import Highlight.Acting
import Highlight.Proofs.Spans.Length

/-!
# The first stage that fails decides

A computation of styles goes through stages: the scan, the language's contributors and the further
ones. A stage passes if it gives spans of the snapshot's length and the request is not cancelled when
it ends (`Passes`), and there are three ways in which it can fail (`Fails`). While stages pass, what
they gave is laid over each other (`run_overlayContributors_of_passes`); the first that fails ends
the computation (`run_overlayContributors_of_fails`), and one of the two happens (`passes_or_fails`).

* `highlight_eq_acting`: languages and contributors that only cancel their request;
* `Acting.highlight_first_failure`: any languages and contributors.
-/

namespace Highlight

variable {σ α β : Type} {w w' : σ}

/-! ## Running actions -/

namespace Action

theorem run_bind_eq_ok {x : Action σ α} {f : α → Action σ β} {b : β} :
    (x >>= f).run w = .ok b w' ↔ ∃ a w₁, x.run w = .ok a w₁ ∧ (f a).run w₁ = .ok b w' := by
  rw [EStateM.run_bind]
  cases x.run w with
  | ok a w₁ =>
    constructor
    · exact fun h => ⟨a, w₁, rfl, h⟩
    · rintro ⟨_, _, h, hb⟩
      cases h
      exact hb
  | error fault w₁ => simp

theorem run_ofExcept_eq_ok {x : Except Fault α} {a : α} :
    (ofExcept x).run w = .ok a w' ↔ x = .ok a ∧ w = w' := by
  cases x with
  | error fault =>
    show EStateM.Result.error fault w = _ ↔ _
    simp
  | ok b => simp [ofExcept]

theorem ofExcept_bind (x : Except Fault α) (f : α → Except Fault β) :
    (ofExcept (x >>= f) : Action σ β) = ofExcept x >>= fun a => ofExcept (f a) := by
  cases x with
  | error fault => rfl
  | ok a => rfl

end Action

namespace Acting

/-- An action as a part of a computation of styles. -/
theorem run_lift_bind (x : Action σ α) (f : α → ExceptT StylingError (EStateM Fault σ) β) (w : σ) :
    (liftM x >>= f).run.run w =
      match x.run w with
      | .ok a w' => (f a).run.run w'
      | .error fault w' => .error fault w' := by
  show (ExceptT.lift x >>= f).run.run w = _
  rw [ExceptT.run_bind_lift, EStateM.run_bind]
  cases x.run w <;> rfl

variable {number : RequestNumber} {cancelled : σ → Bool} {snapshot : Snapshot}

theorem run_checkpoint_bind (f : Unit → ExceptT StylingError (EStateM Fault σ) β) (w : σ) :
    (checkpoint number cancelled >>= f).run.run w =
      if cancelled w then .ok (.error (.cancelled number)) w else (f ()).run.run w := by
  rw [checkpoint, bind_assoc]
  show ((if cancelled w then _ else _) >>= f).run.run w = _
  split <;> rfl

/-- What becomes of the first of some contributors. -/
theorem run_overlayContributors_cons (spans : Spans) (c : Contributor σ)
    (rest : List (Contributor σ)) (w : σ) :
    (overlayContributors number cancelled snapshot spans (c :: rest)).run.run w =
      match (c.create snapshot).run w with
      | .error fault w' => .error fault w'
      | .ok more w' =>
        if more.length ≠ snapshot.length then
          .ok (.error (.lengthMismatch c.name snapshot.length more.length)) w'
        else
          match spans.merge more with
          | .error fault => .error fault w'
          | .ok merged =>
            if cancelled w' then .ok (.error (.cancelled number)) w'
            else (overlayContributors number cancelled snapshot merged rest).run.run w' := by
  rw [overlayContributors, run_lift_bind]
  cases (c.create snapshot).run w with
  | error fault w' => rfl
  | ok more w' =>
    simp only
    split
    · rfl
    · rw [run_lift_bind]
      cases spans.merge more with
      | error fault => rfl
      | ok merged => exact run_checkpoint_bind _ w'

/-! ## Stages -/

/-- A scan that ends in spans covers the snapshot, so the snapshot is not too long to be covered. -/
theorem length_of_scan {labelling : Pattern → Pattern.Match → Action σ (Option Label)} {p : Pattern}
    {spans : Spans} (h : (scan labelling p snapshot).run w = .ok spans w') :
    spans.length = snapshot.length ∧ snapshot.length ≤ maxLength := by
  obtain ⟨marks, w₁, -, hmarks⟩ := Action.run_bind_eq_ok.1 h
  obtain ⟨hspans, -⟩ := Action.run_ofExcept_eq_ok.1 hmarks
  have hlen := Spans.length_of_ofMarks hspans
  refine ⟨hlen, Nat.le_of_not_lt fun hlong => ?_⟩
  rw [Spans.ofMarks, Spans.build_eq_error] at hspans
  · cases hspans
  · rwa [totalLength_markRuns marks (Nat.zero_le _)]

/-- The stages of a computation with a pattern. -/
def Language.stages (l : Language σ) (p : Pattern) (extensions : List (Contributor σ)) :
    List (Contributor σ) :=
  ⟨"scan", scan l.labelling p⟩ :: (l.contributors ++ extensions)

/-- How a computation ends. -/
abbrev Ending (σ : Type) := EStateM.Result Fault σ (Except StylingError Spans)

/-- How a stage fails in a world. Spans of another length are an error even if the request was
cancelled by then. -/
inductive Fails (number : RequestNumber) (cancelled : σ → Bool) (snapshot : Snapshot)
    (stage : Contributor σ) (w : σ) : Ending σ → Prop
  | fault {fault : Fault} {w' : σ} (h : (stage.create snapshot).run w = .error fault w') :
    Fails number cancelled snapshot stage w (.error fault w')
  | lengthMismatch {given : Spans} {w' : σ} (h : (stage.create snapshot).run w = .ok given w')
    (hlen : given.length ≠ snapshot.length) :
    Fails number cancelled snapshot stage w
      (.ok (.error (.lengthMismatch stage.name snapshot.length given.length)) w')
  | cancelled {given : Spans} {w' : σ} (h : (stage.create snapshot).run w = .ok given w')
    (hlen : given.length = snapshot.length) (hc : cancelled w' = true) :
    Fails number cancelled snapshot stage w (.ok (.error (.cancelled number)) w')

/-- Stages that pass one after the other, with the spans they give and the world they leave. -/
inductive Passes (cancelled : σ → Bool) (snapshot : Snapshot) :
    List (Contributor σ) → σ → List Spans → σ → Prop
  | nil {w : σ} : Passes cancelled snapshot [] w [] w
  | cons {stage : Contributor σ} {rest : List (Contributor σ)} {w w₁ w' : σ} {given : Spans}
    {givens : List Spans} (h : (stage.create snapshot).run w = .ok given w₁)
    (hlen : given.length = snapshot.length) (hc : cancelled w₁ = false)
    (hrest : Passes cancelled snapshot rest w₁ givens w') :
    Passes cancelled snapshot (stage :: rest) w (given :: givens) w'

/-- Either all stages pass, or one of them fails after those before it have passed. -/
theorem passes_or_fails (number : RequestNumber) (stages : List (Contributor σ)) (w : σ) :
    (∃ givens w', Passes cancelled snapshot stages w givens w') ∨
      ∃ before stage after givens w₁ ending, stages = before ++ stage :: after ∧
        Passes cancelled snapshot before w givens w₁ ∧
        Fails number cancelled snapshot stage w₁ ending := by
  induction stages generalizing w with
  | nil => exact .inl ⟨[], w, .nil⟩
  | cons stage rest ih =>
    have first {ending : Ending σ} (h : Fails number cancelled snapshot stage w ending) :
        ∃ before s after givens w₁ ending, stage :: rest = before ++ s :: after ∧
          Passes cancelled snapshot before w givens w₁ ∧
          Fails number cancelled snapshot s w₁ ending :=
      ⟨[], stage, rest, [], w, ending, rfl, .nil, h⟩
    cases h : (stage.create snapshot).run w with
    | error fault w₁ => exact .inr (first (.fault h))
    | ok given w₁ =>
      by_cases hlen : given.length = snapshot.length
      · cases hc : cancelled w₁ with
        | true => exact .inr (first (.cancelled h hlen hc))
        | false =>
          rcases ih w₁ with ⟨givens, w', hrest⟩ |
            ⟨before, s, after, givens, w₂, ending, rfl, hbefore, hfails⟩
          · exact .inl ⟨_, w', .cons h hlen hc hrest⟩
          · exact .inr ⟨stage :: before, s, after, _, w₂, ending, rfl, .cons h hlen hc hbefore,
              hfails⟩
      · exact .inr (first (.lengthMismatch h hlen))

/-! ## Computations -/

section

variable {spans : Spans} (hspans : spans.length = snapshot.length)
  (hmax : snapshot.length ≤ maxLength)

include hspans hmax

/-- Spans of the right length are laid over those before, and the computation goes on unless its
request was cancelled. -/
theorem exists_run_overlayContributors {c : Contributor σ} {more : Spans}
    (h : (c.create snapshot).run w = .ok more w') (hlen : more.length = snapshot.length)
    (rest : List (Contributor σ)) :
    ∃ merged, spans.merge more = .ok merged ∧ merged.length = snapshot.length ∧
      (overlayContributors number cancelled snapshot spans (c :: rest)).run.run w =
        if cancelled w' then .ok (.error (.cancelled number)) w'
        else (overlayContributors number cancelled snapshot merged rest).run.run w' := by
  obtain ⟨merged, hmerged⟩ : ∃ merged, spans.merge more = .ok merged :=
    Spans.exists_merge (by omega)
  have hlength := Spans.length_of_merge hmerged
  refine ⟨merged, hmerged, by omega, ?_⟩
  rw [run_overlayContributors_cons, h]
  simp only
  rw [if_neg (not_not_intro hlen), hmerged]

/-- What contributors give that pass is laid over the spans before, and the computation goes on with
those behind them. -/
theorem run_overlayContributors_of_passes (number : RequestNumber)
    {before : List (Contributor σ)} {givens : List Spans}
    (h : Passes cancelled snapshot before w givens w') (after : List (Contributor σ)) :
    ∃ merged, givens.foldlM Spans.merge spans = .ok merged ∧ merged.length = snapshot.length ∧
      (overlayContributors number cancelled snapshot spans (before ++ after)).run.run w =
        (overlayContributors number cancelled snapshot merged after).run.run w' := by
  induction h generalizing spans with
  | nil => exact ⟨spans, rfl, hspans, rfl⟩
  | @cons stage rest w w₁ w' given givens h hlen hc hrest ih =>
    obtain ⟨merged, hmerged, hlength, hrun⟩ :=
      exists_run_overlayContributors hspans hmax h hlen (rest ++ after)
    obtain ⟨all, hall, hlength', hrun'⟩ := ih hlength
    refine ⟨all, ?_, hlength', ?_⟩
    · rw [List.foldlM_cons, hmerged]
      exact hall
    · rw [List.cons_append, hrun, if_neg (by simp [hc]), hrun']

/-- A contributor that fails ends the computation; those behind it are not asked. -/
theorem run_overlayContributors_of_fails {stage : Contributor σ} {ending : Ending σ}
    (h : Fails number cancelled snapshot stage w ending) (after : List (Contributor σ)) :
    (overlayContributors number cancelled snapshot spans (stage :: after)).run.run w = ending := by
  cases h with
  | fault h => rw [run_overlayContributors_cons, h]
  | lengthMismatch h hlen =>
    rw [run_overlayContributors_cons, h]
    exact if_pos hlen
  | cancelled h hlen hc =>
    obtain ⟨merged, -, -, hrun⟩ := exists_run_overlayContributors hspans hmax h hlen after
    rw [hrun, if_pos hc]

end

section

variable {language : Language σ} {p : Pattern} (hp : language.pattern = some p)
  (extensions : List (Contributor σ))

include hp

/-- What becomes of the scan. -/
theorem run_highlight (w : σ) :
    (highlight number cancelled snapshot language extensions).run.run w =
      match (scan language.labelling p snapshot).run w with
      | .error fault w' => .error fault w'
      | .ok spans w' =>
        if cancelled w' then .ok (.error (.cancelled number)) w'
        else
          (overlayContributors number cancelled snapshot spans
            (language.contributors ++ extensions)).run.run w' := by
  rw [highlight, hp]
  simp only
  rw [run_lift_bind]
  cases (scan language.labelling p snapshot).run w with
  | error fault w' => rfl
  | ok spans w' => exact run_checkpoint_bind _ w'

/-- If all stages pass, what they gave is laid over each other in their order. -/
theorem run_highlight_of_passes (number : RequestNumber) {givens : List Spans}
    (h : Passes cancelled snapshot (language.stages p extensions) w givens w') :
    ∃ first rest spans, givens = first :: rest ∧ rest.foldlM Spans.merge first = .ok spans ∧
      (highlight number cancelled snapshot language extensions).run.run w =
        .ok (.ok spans) w' := by
  cases h with
  | @cons _ _ _ w₁ _ first rest hscan hlen hc hrest =>
    have hmax := (length_of_scan hscan).2
    obtain ⟨spans, hspans, -, hrun⟩ :=
      run_overlayContributors_of_passes hlen hmax number hrest []
    refine ⟨first, rest, spans, rfl, hspans, ?_⟩
    rw [List.append_nil] at hrun
    rw [run_highlight hp, hscan]
    simp only [hc]
    exact hrun

/-- The first stage that fails ends the computation. -/
theorem run_highlight_of_fails {before after : List (Contributor σ)} {stage : Contributor σ}
    {givens : List Spans} {ending : Ending σ}
    (hstages : language.stages p extensions = before ++ stage :: after)
    (hbefore : Passes cancelled snapshot before w givens w')
    (h : Fails number cancelled snapshot stage w' ending) :
    (highlight number cancelled snapshot language extensions).run.run w = ending := by
  rw [run_highlight hp]
  cases hbefore with
  | nil =>
    obtain ⟨rfl, rfl⟩ := List.cons.inj hstages
    cases h with
    | fault h =>
      rw [show (scan language.labelling p snapshot).run w = _ from h]
    | lengthMismatch h hlen =>
      -- The scan is the one stage that cannot fail in this way.
      exact (hlen (length_of_scan h).1).elim
    | cancelled h hlen hc =>
      rw [show (scan language.labelling p snapshot).run w = _ from h]
      exact if_pos hc
  | @cons _ before _ w₁ _ first givens hscan hlen hc hbefore =>
    obtain ⟨rfl, hrest⟩ := List.cons.inj hstages
    have hmax := (length_of_scan hscan).2
    obtain ⟨spans, -, hlength, hrun⟩ :=
      run_overlayContributors_of_passes hlen hmax number hbefore (stage :: after)
    rw [show (scan language.labelling p snapshot).run w = _ from hscan]
    simp only [hc]
    rw [hrest]
    exact hrun.trans (run_overlayContributors_of_fails hlength hmax h after)

/-- There are styles exactly if all stages pass. -/
theorem run_highlight_eq_ok_iff {spans : Spans} :
    (highlight number cancelled snapshot language extensions).run.run w = .ok (.ok spans) w' ↔
      ∃ first rest, Passes cancelled snapshot (language.stages p extensions) w (first :: rest) w' ∧
        rest.foldlM Spans.merge first = .ok spans := by
  constructor
  · intro hspans
    rcases passes_or_fails number (language.stages p extensions) w with
      ⟨givens, w₁, hpasses⟩ | ⟨before, stage, after, givens, w₁, ending, hstages, hbefore, hfails⟩
    · obtain ⟨first, rest, merged, rfl, hmerged, hrun⟩ :=
        run_highlight_of_passes hp extensions number hpasses
      cases hrun.symm.trans hspans
      exact ⟨first, rest, hpasses, hmerged⟩
    · have hrun := run_highlight_of_fails hp extensions hstages hbefore hfails
      -- A stage that fails ends in a fault or in an error.
      cases hrun.symm.trans hspans
      cases hfails
  · rintro ⟨first, rest, hpasses, hspans⟩
    obtain ⟨_, _, merged, hgivens, hmerged, hrun⟩ :=
      run_highlight_of_passes hp extensions number hpasses
    cases hgivens
    cases hmerged.symm.trans hspans
    exact hrun

/-- There are styles, or some stage fails and the computation ends as it does. -/
theorem ok_or_fails (w : σ) :
    (∃ spans w',
        (highlight number cancelled snapshot language extensions).run.run w = .ok (.ok spans) w') ∨
      ∃ before stage after givens w₁, language.stages p extensions = before ++ stage :: after ∧
        Passes cancelled snapshot before w givens w₁ ∧
        Fails number cancelled snapshot stage w₁
          ((highlight number cancelled snapshot language extensions).run.run w) := by
  rcases passes_or_fails number (language.stages p extensions) w with
    ⟨givens, w₁, hpasses⟩ | ⟨before, stage, after, givens, w₁, ending, hstages, hbefore, hfails⟩
  · obtain ⟨first, rest, merged, rfl, hmerged, hrun⟩ :=
      run_highlight_of_passes hp extensions number hpasses
    exact .inl ⟨merged, w₁, hrun⟩
  · refine .inr ⟨before, stage, after, givens, w₁, hstages, hbefore, ?_⟩
    rwa [run_highlight_of_fails hp extensions hstages hbefore hfails]

end

/-! ## Languages and contributors that only cancel their request -/

theorem marksOf_ofExcept (label : Pattern.Match → Except Fault (Option Label))
    (ms : List Pattern.Match) :
    (marksOf (fun m => Action.ofExcept (label m)) ms : Action σ (List Mark)) =
      Action.ofExcept (Highlight.marksOf label ms) := by
  induction ms with
  | nil => rfl
  | cons m rest ih =>
    rw [marksOf, Highlight.marksOf]
    cases label m with
    | error fault => rfl
    | ok l =>
      cases l with
      | none => exact ih
      | some l =>
        show (marksOf _ rest >>= fun _ => pure _) = Action.ofExcept (_ >>= fun _ => pure _)
        rw [ih, Action.ofExcept_bind]
        rfl

theorem scan_ofExcept (labelling : Labelling) (p : Pattern) (snapshot : Snapshot) :
    (scan (fun p m => Action.ofExcept (labelling p m)) p snapshot : Action σ Spans) =
      Action.ofExcept (do
        Spans.ofMarks (← p.scan labelling snapshot.text) snapshot.length) := by
  rw [scan, marksOf_ofExcept, Action.ofExcept_bind]
  rfl

theorem overlayContributors_eq_acting (number : RequestNumber) (worker : String)
    (snapshot : Snapshot) (contributors : List Highlight.Contributor) (spans : Spans)
    (cancelled : Bool) :
    Highlight.overlayContributors number worker snapshot cancelled spans contributors =
      .ofEnding ((overlayContributors number id snapshot spans
        (contributors.map (Contributor.acting worker))).run.run cancelled) := by
  induction contributors generalizing spans cancelled with
  | nil => rfl
  | cons c rest ih =>
    have hcreate : ((c.acting worker).create snapshot).run cancelled =
        (Action.ofExcept (c.contribute worker snapshot).spans).run
          (cancelled || (c.contribute worker snapshot).cancels) := rfl
    rw [Highlight.overlayContributors, List.map_cons, run_overlayContributors_cons, hcreate]
    -- From here on it does not matter who cancelled the request.
    generalize (cancelled || (c.contribute worker snapshot).cancels) = cancelled
    cases (c.contribute worker snapshot).spans with
    | error fault => rfl
    | ok more =>
      simp only [Action.ofExcept, EStateM.run_pure]
      split
      · rfl
      · cases spans.merge more with
        | error fault => rfl
        | ok merged =>
          cases cancelled with
          | true => rfl
          | false => exact ih merged false

/-- Languages and contributors that look at the snapshot and at most cancel their request act in a
world that is no more than whether it was cancelled. -/
theorem highlight_eq_acting (number : RequestNumber) (worker : String) (snapshot : Snapshot)
    (language : Highlight.Language) (extensions : List Highlight.Contributor) (cancelled : Bool) :
    Highlight.highlight number worker snapshot language extensions cancelled =
      .ofEnding ((highlight number id snapshot (language.acting worker)
        (extensions.map (Contributor.acting worker))).run.run cancelled) := by
  rw [Highlight.highlight]
  cases hp : language.pattern with
  | none =>
    rw [highlight, show (language.acting worker).pattern = none from hp]
    rfl
  | some p =>
    have hscan : scan (language.acting worker).labelling p snapshot = _ :=
      scan_ofExcept language.labelling p snapshot
    have hcontributors : (language.acting worker).contributors ++
        extensions.map (Contributor.acting worker) =
          (language.contributors ++ extensions).map (Contributor.acting worker) :=
      List.map_append.symm
    rw [run_highlight (show (language.acting worker).pattern = some p from hp), hscan, hcontributors]
    simp only
    cases (do Spans.ofMarks (← p.scan language.labelling snapshot.text) snapshot.length) with
    | error fault => rfl
    | ok spans =>
      cases cancelled with
      | true => rfl
      | false => exact overlayContributors_eq_acting ..

/-! ## The first stage that fails -/

/-- Without a pattern the styles are those of plain text, whatever the token says, and the world is
as it was: neither the labelling nor a contributor is called. With a pattern the stages run in order,
and there are styles exactly if all of them pass; the styles are then what the stages gave, laid over
each other. Otherwise one stage fails after all before it have passed, and the computation ends as
that stage does, in the world it leaves, so nothing behind it is called. This holds of whatever
languages and contributors do in whatever world. `Highlight.highlight` is the computation for those
that do no more than cancel their request. -/
theorem highlight_first_failure (number : RequestNumber) (snapshot : Snapshot) :
    (∀ (σ : Type) (cancelled : σ → Bool) (language : Language σ) (extensions : List (Contributor σ))
        (w : σ),
      let ending := (highlight number cancelled snapshot language extensions).run.run w
      (language.pattern = none → ending = .ok (.ok (.plain snapshot.length)) w) ∧
      ∀ p, language.pattern = some p →
        let stages := language.stages p extensions
        (∀ spans w', ending = .ok (.ok spans) w' ↔ ∃ first rest,
          Passes cancelled snapshot stages w (first :: rest) w' ∧
            rest.foldlM Spans.merge first = .ok spans) ∧
        (∀ before stage after givens w₁ failure, stages = before ++ stage :: after →
          Passes cancelled snapshot before w givens w₁ →
          Fails number cancelled snapshot stage w₁ failure → ending = failure) ∧
        ((∃ spans w', ending = .ok (.ok spans) w') ∨
          ∃ before stage after givens w₁, stages = before ++ stage :: after ∧
            Passes cancelled snapshot before w givens w₁ ∧
            Fails number cancelled snapshot stage w₁ ending)) ∧
    ∀ (worker : String) (language : Highlight.Language) (extensions : List Highlight.Contributor)
        (cancelled : Bool),
      Highlight.highlight number worker snapshot language extensions cancelled =
        .ofEnding ((highlight number id snapshot (language.acting worker)
          (extensions.map (Contributor.acting worker))).run.run cancelled) := by
  refine ⟨fun σ cancelled language extensions w => ⟨fun hp => ?_, fun p hp => ⟨?_, ?_, ?_⟩⟩,
    fun worker language extensions cancelled => highlight_eq_acting ..⟩
  · rw [highlight, hp]
    rfl
  · exact fun spans w' => run_highlight_eq_ok_iff hp extensions
  · intro before stage after givens w₁ failure hstages hbefore hfails
    exact run_highlight_of_fails hp extensions hstages hbefore hfails
  · exact ok_or_fails hp extensions w

/-- A contributor that notes its name, and may cancel its request, before anything else. -/
def Contributor.noting (name : String) (cancels : Bool) (spans : Except Fault Spans) :
    Contributor (List String × Bool) where
  name := name
  create _ := do
    modify fun (notes, cancelled) => (notes ++ [name], cancelled || cancels)
    Action.ofExcept spans

/-- One stage passes after the scan. Behind it, one cancels the request and gives too long spans, one
only cancels it, one breaks off, and none is there; the last one is not called if another fails
before it, and none is called without a pattern. -/
theorem highlight_first_failure_long_and_cancelled :
    let snapshot : Snapshot := ⟨"ab", 0, none, 0⟩
    let language : Language (List String × Bool) :=
      ⟨some ⟨"b", .text ['b'], []⟩, fun _ _ => do
        modify fun (notes, cancelled) => (notes ++ ["label"], cancelled)
        return some "match", [.noting "all" false (.ok (.labeled 2 "all"))]⟩
    let long : Contributor (List String × Bool) := .noting "long" true (.ok (.plain 3))
    let cancelling : Contributor (List String × Bool) := .noting "cancelling" true (.ok (.plain 2))
    let failing : Contributor (List String × Bool) := .noting "failing" false (.error (.raised none))
    let ending (language : Language (List String × Bool)) extensions cancelled :=
      (highlight 1 Prod.snd snapshot language extensions).run.run ([], cancelled)
    ending language [long, failing] false =
      .ok (.error (.lengthMismatch "long" 2 3)) (["label", "all", "long"], true) ∧
    ending language [cancelling, failing] false =
      .ok (.error (.cancelled 1)) (["label", "all", "cancelling"], true) ∧
    ending language [failing, long] false =
      .error (.raised none) (["label", "all", "failing"], false) ∧
    (∃ spans, ending language [] false = .ok (.ok spans) (["label", "all"], false)) ∧
    ending { language with pattern := none } [failing] true = .ok (.ok (.plain 2)) ([], true) := by
  intro snapshot language long cancelling failing ending
  let pattern : Pattern := ⟨"b", .text ['b'], []⟩
  have hfound : pattern.findAll "ab" = [⟨⟨1, some 'a', ['b']⟩, ⟨2, some 'b', []⟩, []⟩] := by
    decide +kernel
  have hlen : snapshot.length = 2 := by decide
  have hscan : (scan language.labelling pattern snapshot).run ([], false) =
      .ok ⟨[⟨1, .empty⟩, ⟨1, .single "match"⟩], ⟨Nat.one_pos, by decide, Nat.one_pos⟩⟩
        (["label"], false) := by
    rw [scan, show pattern.findAll snapshot.text = _ from hfound, hlen]
    rfl
  have hpasses : Passes Prod.snd snapshot [⟨"scan", scan language.labelling pattern⟩,
      .noting "all" false (.ok (.labeled 2 "all"))] ([], false) _ (["label", "all"], false) :=
    .cons hscan hlen.symm rfl (.cons rfl hlen.symm rfl .nil)
  have hlong : (Spans.plain 3).length = 3 := Spans.length_plain 3
  obtain ⟨hall, -⟩ := highlight_first_failure 1 snapshot
  have hsome extensions := (hall _ Prod.snd language extensions ([], false)).2 pattern rfl
  refine ⟨?_, ?_, ?_, ?_, ?_⟩
  · have hfails := (hsome [long, failing]).2.1 _ long [failing] _ _ _ rfl hpasses
      (.lengthMismatch rfl (by omega))
    rwa [hlong, hlen] at hfails
  · exact (hsome [cancelling, failing]).2.1 _ cancelling [failing] _ _ _ rfl hpasses
      (.cancelled rfl hlen.symm rfl)
  · exact (hsome [failing, long]).2.1 _ failing [long] _ _ _ rfl hpasses (.fault rfl)
  · exact ⟨_, ((hsome []).1 _ _).2 ⟨_, _, hpasses, rfl⟩⟩
  · have hnone := (hall _ Prod.snd { language with pattern := none } [failing] ([], true)).1 rfl
    exact hnone.trans (by rw [hlen])

end Acting

end Highlight
