import Highlight.Contributor.Brackets
import Highlight.Proofs.Editor.Currency

/-!
# Styles of the last request

The last request of an editor stays the measure of what it shows: as long as no further request is
made, the editor keeps the text, the version, the language, the extensions and, if styles depend on
the caret whenever it moves, the caret that the request captured (`LastRequest`). So the styles that
are shown for it are those of the present state. Only a selection that changes while the caret stays
where it was asks for no styles: what a contributor made of the selection is then what it made of the
one at the time of the request.

* `Attentive.step_cases`: a step makes a request, ends without a pattern, or keeps the last request;
* `exists_lastRequest`: the last request in any run of a new editor;
* `shown_styles_current`: the styles shown for the last request, in terms of the present state;
* `stale_after_selection`: the exception occurs.
-/

namespace Highlight.Editor

/-- `r` was the last request, and captured what the editor holds except perhaps the selection. If the
editor shows styles for it, they are the ones computed for it. -/
structure LastRequest (e : Editor) (r : Request) : Prop where
  number_eq : r.number = e.requests.lastNumber
  describes : r.Describes e
  caret_eq : r.snapshot.caret = e.caret
  current_eq : ∀ q, e.requests.current = some q → q = r
  computed : e.source = some r.number → r.compute.result = .ok (.ok e.styles)

/-- The styles belong to no request that was not made yet. -/
def Numbered (e : Editor) : Prop := ∀ n, e.source = some n → n ≤ e.requests.lastNumber

/-- What every state of a run has. -/
structure Attentive (e : Editor) : Prop where
  sound : e.Sound
  placed : e.WellPlaced
  numbered : e.Numbered

/-- The contributors that a request made now has. -/
def contributors (e : Editor) : List Contributor :=
  e.language.contributors ++ e.requests.extensions

/-- No request was made on the way from `e` to `e'`, and what was the last one still is. -/
structure KeepsLast (e e' : Editor) : Prop where
  language_eq : e'.language = e.language
  lastNumber_eq : e'.requests.lastNumber = e.requests.lastNumber
  last : ∀ r, e.LastRequest r → e'.LastRequest r

variable {e e' m : Editor}

/-- A snapshot taken now differs from the one that the last request captured in the selection at
most. -/
theorem LastRequest.snapshot_eq {r : Request} (h : e.LastRequest r) (hw : e.WellPlaced) :
    { e.snapshot with selection := r.snapshot.selection } = r.snapshot := by
  have htext : e.snapshot.text = r.snapshot.text := h.describes.text_eq.symm
  have hversion : e.snapshot.version = r.snapshot.version := h.describes.version_eq.symm
  have hcaret : e.snapshot.caret = r.snapshot.caret := hw.caret_snapshot.trans h.caret_eq.symm
  show Snapshot.mk e.snapshot.text e.snapshot.caret r.snapshot.selection e.snapshot.version = _
  rw [htext, hversion, hcaret]

/-! ## Numbers of shown requests -/

theorem Numbered.outcome (h : e.Numbered) (ho : Outcome e e') (hw : e'.WellPlaced) :
    e'.Numbered := by
  intro n hn
  rcases outcome_cases ho hw with ⟨hk, -⟩ | hr | hc
  · rw [hk.source_eq] at hn
    rw [hk.requests_eq]
    exact h n hn
  · rw [hr.source_eq] at hn
    rw [hr.number_eq]
    exact Nat.le_succ_of_le (h n hn)
  · rw [hc.number_eq]
    rcases hc.source_eq with hnone | hsame
    · rw [hnone] at hn
      cases hn
    · exact h n (hsame ▸ hn)

theorem Numbered.step (h : e.Numbered) (hs : e.Sound) (hw : e.WellPlaced) (s : Step) :
    (e.step s).Numbered := by
  have hw' := hw.step s
  cases s with
  | operation o =>
    rcases e.outcome_operate o with ⟨styles, rfl⟩ | ho
    · show (e.showStyles styles).2.Numbered
      unfold showStyles
      split
      · exact fun n hn => nomatch hn
      · exact h
    · exact h.outcome ho hw'
  | conclude number => exact h
  | arrive number => exact h
  | follow update => exact h.outcome (e.outcome_followUpdate update) hw'
  | followCaret offset => exact h.outcome (e.outcome_followCaret offset) hw'
  | receive =>
    simp only [Editor.step, receiveNext]
    split
    · exact h
    · rename_i c rest hq
      have hh := hs.handling hq
      generalize (e.leaving rest).handle c = answer at hh
      cases hh with
      | passedOver => exact h
      | failed => exact h
      | shown r styles hr =>
        intro n hn
        cases hn
        exact Nat.le_of_eq (hs.coherent.number_eq r hr)
  | mail inbox outbox => exact h

theorem attentive_new (text : String) (language : Language) (settings : Settings) :
    (new text language settings).Attentive :=
  ⟨sound_new text language settings, wellPlaced_new text language settings, fun _ h => nomatch h⟩

theorem Attentive.step (h : e.Attentive) (s : Step) : (e.step s).Attentive :=
  ⟨h.sound.step s, h.placed.step s, h.numbered.step h.sound h.placed s⟩

theorem Attentive.run (h : e.Attentive) (steps : List Step) : (e.run steps).Attentive :=
  run_induction h (fun _ s h => h.step s) steps

/-! ## The last request after a step -/

/-- Requests that changed in other respects than number, current request and extensions. -/
theorem keepsLast_requests {requests : Requests}
    (hnumber : requests.lastNumber = e.requests.lastNumber)
    (hcurrent : ∀ q, requests.current = some q → e.requests.current = some q)
    (hext : requests.extensions = e.requests.extensions) :
    e.KeepsLast { e with requests := requests } where
  language_eq := rfl
  lastNumber_eq := hnumber
  last _ hr :=
    { number_eq := hr.number_eq.trans hnumber.symm
      describes := hr.describes.congr rfl rfl rfl hext
      caret_eq := hr.caret_eq
      current_eq := fun q hq => hr.current_eq q (hcurrent q hq)
      computed := hr.computed }

theorem Kept.keepsLast (h : Kept e e') (hcaret : e'.caret = e.caret) : e.KeepsLast e' where
  language_eq := h.language_eq
  lastNumber_eq := by rw [h.requests_eq]
  last _ hr :=
    { number_eq := by rw [h.requests_eq]; exact hr.number_eq
      describes := h.describes hr.describes
      caret_eq := hr.caret_eq.trans hcaret.symm
      current_eq := by rw [h.requests_eq]; exact hr.current_eq
      computed := by rw [h.source_eq, h.styles_eq]; exact hr.computed }

theorem Handling.keepsLast {c : Completion} {answer : Except StylingError Nat × Editor}
    (h : Handling e c answer) : e.KeepsLast answer.2 := by
  have hsettled : e.KeepsLast e.settled := keepsLast_requests rfl (fun _ h => nomatch h) rfl
  cases h with
  | passedOver => exact ⟨rfl, rfl, fun _ hr => hr⟩
  | failed => exact hsettled
  | shown q styles hq hc hs =>
    refine ⟨rfl, rfl, fun r hr => ?_⟩
    have hlast := hsettled.last r hr
    refine ⟨hlast.number_eq, hlast.describes.congr rfl rfl rfl rfl, hlast.caret_eq,
      hlast.current_eq, fun _ => ?_⟩
    -- The request that was current is the last one.
    rw [← hr.current_eq q hq]
    exact (Request.result_eq_ok_iff hc).1 hs

/-- A request that was made just now is the last one, and no styles are shown for it. -/
theorem Makes.lastRequest {s : Step} {r : Request} (h : e.Makes s r) (ha : (e.step s).Attentive)
    (hsource : ∀ n, (e.step s).source = some n → n ≤ e.requests.lastNumber) :
    (e.step s).LastRequest r where
  number_eq := ha.sound.coherent.number_eq r h.current
  describes := ha.sound.describes r h.current
  caret_eq := by
    rw [h.captured]
    exact ha.placed.caret_snapshot
  current_eq q hq := Option.some.inj (hq.symm.trans h.current)
  computed hs := absurd (hsource _ hs) (Nat.not_le_of_lt h.fresh)

theorem Attentive.outcome (h : e.Attentive) {s : Step} (ho : Outcome e (e.step s))
    (hwatched : (e.step s).caret ≠ e.caret → e.settings.caretSensitive = true) :
    (∃ r, e.Makes s r ∧ (e.step s).LastRequest r) ∨ (e.step s).language.pattern = none ∨
      e.KeepsLast (e.step s) := by
  rcases outcome_cases ho (h.step s).placed with ⟨hk, hcaret⟩ | hr | hc
  · refine .inr (.inr (hk.keepsLast ?_))
    by_cases hmoved : (e.step s).caret = e.caret
    · exact hmoved
    · exact hcaret (hwatched hmoved)
  · have hfresh : e.requests.lastNumber < (e.step s).requests.lastNumber := by
      rw [hr.number_eq]
      exact Nat.lt_succ_self _
    have hmakes : e.Makes s (e.step s).document.request := ⟨hfresh, hr.current, rfl⟩
    exact .inl ⟨_, hmakes,
      hmakes.lastRequest (h.step s) fun n hn => h.numbered n (hr.source_eq ▸ hn)⟩
  · exact .inr (.inl hc.pattern)

/-- A step makes a request, ends without a pattern, or keeps the last request, unless it shows styles
from elsewhere or moves the caret where styles do not depend on it. -/
theorem Attentive.step_cases (h : e.Attentive) {s : Step}
    (hdirect : ∀ styles, s ≠ .operation (.showStyles styles))
    (hwatched : (e.step s).caret ≠ e.caret → e.settings.caretSensitive = true) :
    (∃ r, e.Makes s r ∧ (e.step s).LastRequest r) ∨ (e.step s).language.pattern = none ∨
      e.KeepsLast (e.step s) := by
  cases s with
  | operation o =>
    rcases e.outcome_operate o with ⟨styles, rfl⟩ | ho
    · exact absurd rfl (hdirect styles)
    · exact h.outcome ho hwatched
  | conclude number => exact .inr (.inr (keepsLast_requests rfl (fun _ hq => hq) rfl))
  | arrive number => exact .inr (.inr (keepsLast_requests rfl (fun _ hq => hq) rfl))
  | follow update => exact h.outcome (e.outcome_followUpdate update) hwatched
  | followCaret offset => exact h.outcome (e.outcome_followCaret offset) hwatched
  | receive =>
    refine .inr (.inr ?_)
    simp only [Editor.step, receiveNext]
    split
    · exact ⟨rfl, rfl, fun _ hr => hr⟩
    · rename_i c rest hq
      have hleft : e.KeepsLast (e.leaving rest) := keepsLast_requests rfl (fun _ hq => hq) rfl
      have hhandled := (h.sound.handling hq).keepsLast
      exact ⟨hhandled.language_eq, hhandled.lastNumber_eq,
        fun r hr => hhandled.last r (hleft.last r hr)⟩
  | mail inbox outbox =>
    refine .inr (.inr ⟨rfl, rfl, fun r hr => ?_⟩)
    exact ⟨hr.number_eq, hr.describes.congr rfl rfl rfl rfl, hr.caret_eq, hr.current_eq,
      hr.computed⟩

/-! ## The last request of a run -/

/-- In a run that shows no styles from elsewhere and moves the caret only where styles depend on it,
an editor whose language has a pattern has made no request yet, or one step of the run made its last
one. -/
theorem exists_lastRequest (h : e.Attentive) (hfirst : e.requests.lastNumber = 0) {steps : List Step}
    (hdirect : ∀ styles, .operation (.showStyles styles) ∉ steps) (hwatched : e.CaretWatched steps)
    (hp : (e.run steps).language.pattern.isSome) :
    (e.run steps).requests.lastNumber = 0 ∨
      ∃ earlier s later r, steps = earlier ++ s :: later ∧ (e.run earlier).Makes s r ∧
        (e.run steps).LastRequest r := by
  -- Induction on the run from its end: the last step made the request, or kept the one before.
  induction steps using List.reverseRecOn with
  | nil => exact .inl hfirst
  | append_singleton steps s ih =>
    have hrun : e.run (steps ++ [s]) = (e.run steps).step s := e.run_append steps [s]
    obtain ⟨hwatchedBefore, hwatchedStep, -⟩ := caretWatched_append hwatched
    have hdirectBefore : ∀ styles, .operation (.showStyles styles) ∉ steps :=
      fun styles hmem => hdirect styles (List.mem_append_left _ hmem)
    have hdirectStep : ∀ styles, s ≠ .operation (.showStyles styles) := fun styles heq =>
      hdirect styles (List.mem_append_right _ (List.mem_singleton.2 heq.symm))
    rw [hrun] at hp ⊢
    rcases (h.run steps).step_cases hdirectStep hwatchedStep with ⟨r, hmakes, hlast⟩ | hnone | hkeeps
    · exact .inr ⟨steps, s, [], r, rfl, hmakes, hlast⟩
    · rw [hnone] at hp
      cases hp
    · rw [hkeeps.language_eq] at hp
      rcases ih hdirectBefore hwatchedBefore hp with
        hzero | ⟨earlier, made, later, r, hsplit, hmakes, hlast⟩
      · exact .inl (hkeeps.lastNumber_eq.trans hzero)
      · exact .inr
          ⟨earlier, made, later ++ [s], r, by rw [hsplit]; simp, hmakes, hkeeps.last r hlast⟩

/-- The styles that a new editor shows for its last request, after any run that shows no styles from
elsewhere and moves the caret only where styles depend on it: they are computed from the text, the
caret and the version that the editor has, its language and its extensions, and the selection that it
had after the step that made the request. Hence they are the styles of the present state, if the
selection is still the same, or no contributor looks at it. Every action is a run of steps in which
the user does nothing else, so all this holds of calls, and in the midst of them. -/
theorem shown_styles_current (text : String) (language : Language) (settings : Settings)
    (steps : List Step) :
    let start := new text language settings
    let e := start.run steps
    (∀ a : Action, ∃ more, e.act a = e.run more ∧ ∀ o, .operation o ∈ more → a = .operation o) ∧
    (start.CaretWatched steps → (∀ styles, .operation (.showStyles styles) ∉ steps) →
    ∀ n, e.language.pattern.isSome → e.requests.last? = some n → e.source = some n →
    (∀ c ∈ e.contributors, c.Pure) →
    ∃ earlier s later r, steps = earlier ++ s :: later ∧ (start.run earlier).Makes s r ∧
      r.number = n ∧
      let captured := { e.snapshot with selection := ((start.run earlier).step s).selection }
      (∀ number worker,
        (highlight number worker captured e.language e.requests.extensions false).result =
          .ok (.ok e.styles)) ∧
      ((∀ c ∈ e.contributors, ∀ worker,
          c.contribute worker e.snapshot = c.contribute worker captured) →
        ∀ number worker,
          (highlight number worker e.snapshot e.language e.requests.extensions false).result =
            .ok (.ok e.styles))) := by
  intro start e
  refine ⟨e.exists_run_act_of, fun hwatched hdirect n hp hlast hsource hpure => ?_⟩
  have hstart : start.Attentive := attentive_new text language settings
  obtain ⟨hpos, hn⟩ : e.requests.lastNumber ≠ 0 ∧ e.requests.lastNumber = n := by
    simpa [Requests.last?] using hlast
  rcases exists_lastRequest hstart rfl hdirect hwatched hp with
    hzero | ⟨earlier, s, later, r, hsplit, hmakes, hr⟩
  · exact absurd hzero hpos
  have hnumber : r.number = n := hr.number_eq.trans hn
  have hselection : ((start.run earlier).step s).selection = r.snapshot.selection := by
    rw [hmakes.captured]
    rfl
  refine ⟨earlier, s, later, r, hsplit, hmakes, hnumber, ?_⟩
  intro captured
  have hcaptured : captured = r.snapshot := by
    show { e.snapshot with selection := ((start.run earlier).step s).selection } = r.snapshot
    rw [hselection]
    exact hr.snapshot_eq (hstart.run steps).placed
  have hcomputed :
      (highlight r.number r.worker captured e.language e.requests.extensions false).result =
        .ok (.ok e.styles) := by
    rw [hcaptured, ← hr.describes.language_eq, ← hr.describes.extensions_eq]
    exact hr.computed (hnumber ▸ hsource)
  refine ⟨fun number worker => ?_, fun hblind number worker => ?_⟩
  · exact result_highlight_congr rfl (fun c hc => hpure c hc _ _ _) hcomputed
  · refine result_highlight_congr ?_ (fun c hc => ?_) hcomputed
    · rfl
    · exact (hblind c hc worker).trans (hpure c hc _ _ _)

/-! ## A selection that changes in place -/

theorem contributors_restyle (e : Editor) (textChanged caretMoved : Bool) :
    (e.restyle textChanged caretMoved).contributors = e.contributors := by
  unfold restyle
  split
  · rcases e.requestStyles_cases with ⟨-, he⟩ | ⟨-, -, he⟩ | ⟨-, he⟩ <;>
      exact (congrArg contributors he).trans rfl
  · rfl

theorem Kept.contributors_eq (h : Kept e e') : e'.contributors = e.contributors := by
  rw [contributors, contributors, h.language_eq, h.requests_eq]

theorem contributors_select (e : Editor) (start stop : Nat) :
    (e.step (.operation (.select start stop))).contributors = e.contributors := by
  have hrange : (e.selectRange start stop).contributors = e.contributors := by
    rw [selectRange, contributors_restyle]
    exact ((e.kept_placeSelection _).trans (kept_placeCaret _ _)).contributors_eq
  simp only [step, operate, select]
  by_cases h : start ≤ stop ∧ stop ≤ e.length
  · rw [if_pos h]
    exact hrange
  · rw [if_neg h]
    rfl

/-- What workers do, and what becomes of it, leaves the contributors as they are. -/
theorem Sound.contributors_worked (h : e.Sound) (number : RequestNumber) :
    (((e.step (.conclude number)).step (.arrive number)).step .receive).contributors =
      e.contributors := by
  have hd := ((h.step (.conclude number)).step (.arrive number)).document_receive
  have hlang := congrArg Document.language hd
  have hext := congrArg Document.extensions hd
  exact congrArg₂ (fun language extensions => language.contributors ++ extensions) hlang hext

/-- Both of two characters are selected, the styles of that are awaited, and then the second one
alone is selected: the caret stays behind it. -/
def selectInPlace : List Step :=
  [.operation (.select 0 2), .conclude 1, .arrive 1, .receive, .operation (.select 1 2)]

theorem contributors_selectInPlace (text : String) (language : Language) (settings : Settings) :
    ((new text language settings).run selectInPlace).contributors = language.contributors := by
  have hselected : ((new text language settings).step (.operation (.select 0 2))).Sound :=
    (sound_new text language settings).step _
  simp only [selectInPlace, run, List.foldl_cons, List.foldl_nil]
  rw [contributors_select, hselected.contributors_worked, contributors_select]
  exact List.append_nil _

/-- Brackets are matched at the caret, whatever is selected since. -/
theorem shown_styles_current_in_place :
    let language := Language.ofPattern "x" (some ⟨"x", .text ['x'], []⟩) [.bracketMatch "bracket"]
    let e := (new "()" language .standard).run selectInPlace
    e.selection = some ⟨1, 2⟩ ∧ e.source = some 1 ∧ e.styles.runs = [⟨2, .single "bracket"⟩] ∧
      (highlight 2 "worker" e.snapshot e.language e.requests.extensions false).result =
        .ok (.ok e.styles) := by
  intro language
  have hblind : ∀ worker (s : Snapshot) selection,
      (Contributor.bracketMatch "bracket").contribute worker s =
        (Contributor.bracketMatch "bracket").contribute worker { s with selection := selection } :=
    fun _ _ _ => rfl
  obtain ⟨-, hcurrent⟩ := shown_styles_current "()" language .standard selectInPlace
  have hshown := hcurrent
    ⟨by decide +kernel, by decide +kernel, by decide +kernel, by decide +kernel, by decide +kernel,
      trivial⟩ (by simp [selectInPlace]) 1 (by decide +kernel) (by decide +kernel)
  have hcontributors := contributors_selectInPlace "()" language .standard
  have hsource : ((new "()" language .standard).run selectInPlace).source = some 1 := by
    decide +kernel
  have hselection : ((new "()" language .standard).run selectInPlace).selection = some ⟨1, 2⟩ := by
    decide +kernel
  have hruns : ((new "()" language .standard).run selectInPlace).styles.runs =
      [⟨2, .single "bracket"⟩] := by
    decide +kernel
  -- From here on the run that led to the editor is not to be looked at.
  generalize (new "()" language .standard).run selectInPlace = e at *
  have hmem : ∀ c ∈ e.contributors, c = .bracketMatch "bracket" := by
    intro c hc
    rw [hcontributors] at hc
    exact List.mem_singleton.1 hc
  obtain ⟨_, _, _, _, -, -, -, -, hsame⟩ :=
    hshown hsource fun c hc => by rw [hmem c hc]; exact fun _ _ _ => rfl
  refine ⟨hselection, hsource, hruns, hsame (fun c hc worker => ?_) 2 "worker"⟩
  rw [hmem c hc]
  exact hblind worker _ _

/-- A contributor that marks the selection shows nothing of the one made after its request, although
the caret was watched all the time and nothing is current any more. -/
theorem stale_after_selection :
    let selected : Contributor := .ofSpans "selection" fun s =>
      Spans.ofMarks (s.selection.toList.map fun r => .labeled r.start r.stop "selected") s.length
    let language := Language.ofPattern "x" (some ⟨"x", .text ['x'], []⟩) [selected]
    let start := new "ab" language .standard
    let e := start.run selectInPlace
    (∀ k ≤ selectInPlace.length, (start.run (selectInPlace.take k)).settings.caretSensitive = true) ∧
      (∀ styles, .operation (.showStyles styles) ∉ selectInPlace) ∧
      e.requests.isIdle ∧ e.language.pattern.isSome ∧ e.requests.last? = some 1 ∧
      e.source = some 1 ∧ (∀ c ∈ e.contributors, c.Pure) ∧
      ∀ number worker,
        (highlight number worker e.snapshot e.language e.requests.extensions false).result ≠
          .ok (.ok e.styles) := by
  intro selected language start e
  have hpure : ∀ c ∈ e.contributors, c.Pure := by
    intro c hc
    rw [contributors_selectInPlace] at hc
    rw [List.mem_singleton.1 hc]
    exact fun _ _ _ => rfl
  refine ⟨by decide +kernel, by simp [selectInPlace], by decide +kernel, by decide +kernel,
    by decide +kernel, by decide +kernel, hpure, fun number worker hsame => ?_⟩
  have hcomputed :
      (highlight 0 "" e.snapshot e.language e.requests.extensions false).result =
        .ok (.ok e.styles) :=
    result_highlight_congr rfl (fun c hc => hpure c hc _ _ _) hsame
  have hruns := congrArg (fun result => result.toOption.bind fun answer =>
    answer.toOption.map Spans.runs) hcomputed
  exact absurd hruns (by decide +kernel)

end Highlight.Editor
