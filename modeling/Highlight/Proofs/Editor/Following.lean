import Highlight.Proofs.Editor.Agreement
import Highlight.Proofs.Requests.Awaited

/-!
# Following the operations alone

A run of an unlinked editor, in which completions arrive and are handled at any time, is compared
with the run of its operations alone, in which nothing ever arrives. The comparison (`Follows`) says
that the documents agree, and that where the reference run still has a current request, the other
run has the same one, or has settled it and shows its styles. Edits in between change styles that
are shown already, but an edit that changes the text makes a new request, which all styles before it
give way to.

* `Follows.operate`: both runs do the same about styles, since it can be told from the documents;
* `Follows.handle`: a completion that is handled is passed over, or settles the current request;
* `Follows.live`: the comparison after any actions.
-/

namespace Highlight.Editor

/-- The operations among some actions. -/
def operationsOf (actions : List Action) : List Operation :=
  actions.filterMap fun a => match a with
    | .operation o => some o
    | _ => none

/-- The request that an action of an unlinked editor made, or the last one before it. -/
def latestRequest (e : Editor) (last : Option Request) (a : Action) : Option Request :=
  if (e.act a).requests.lastNumber = e.requests.lastNumber then last
  else (e.act a).requests.current

/-- The request that was made last by some actions, or else `last`. -/
def lastRequest (e : Editor) (last : Option Request) : List Action → Option Request
  | [] => last
  | a :: actions => (e.act a).lastRequest (e.latestRequest last a) actions

/-- The request `r` was settled, and its styles are shown if there are any. -/
structure Settles (e : Editor) (r : Request) : Prop where
  current : e.requests.current = none
  shows : ∀ styles, r.compute.result = .ok (.ok styles) → e.styles = styles ∧ e.source = some r.number

/-- Nothing was requested, or the last request was withdrawn. -/
structure Unstyled (e : Editor) : Prop where
  current : e.requests.current = none
  styles_eq : e.styles = .plain e.length
  source_eq : e.language.pattern.isSome → e.source = none

/-- What holds of an unlinked editor at any time. -/
structure Regular (e : Editor) : Prop where
  sound : e.Sound
  placed : e.WellPlaced
  awaited : e.requests.Awaited
  inbox_eq : e.inbox = []

/-- The editor `e` against `f`, which did the same operations but never handled a completion; `last`
is the last request. -/
structure Follows (last : Option Request) (e f : Editor) : Prop where
  regular : e.Regular
  reference : f.Regular
  document_eq : e.document = f.document
  last_eq : ∀ r, f.requests.current = some r → last = some r
  requested : ∀ r, f.requests.current = some r → e.requests.current = some r ∨ e.Settles r
  unstyled : f.requests.current = none → e.Unstyled

variable {e f e' f' : Editor} {last : Option Request}

theorem regular_new (text : String) (language : Language) (settings : Settings) :
    (new text language settings).Regular :=
  ⟨sound_new _ _ _, wellPlaced_new _ _ _, Requests.awaited_of_idle rfl, rfl⟩

/-- Where the reference run has no current request, the others need not be looked at. -/
theorem follows_of_unstyled (he : e.Regular) (hf : f.Regular) (hdoc : e.document = f.document)
    (hnone : f.requests.current = none) (hu : e.Unstyled) : Follows last e f where
  regular := he
  reference := hf
  document_eq := hdoc
  last_eq r hr := by
    rw [hnone] at hr
    cases hr
  requested r hr := by
    rw [hnone] at hr
    cases hr
  unstyled _ := hu

theorem follows_new (text : String) (language : Language) (settings : Settings) :
    Follows none (new text language settings) (new text language settings) :=
  follows_of_unstyled (regular_new _ _ _) (regular_new _ _ _) rfl rfl ⟨rfl, rfl, fun _ => rfl⟩

/-! ## Operations -/

theorem Sound.current_of_pattern (h : e.Sound) (hp : e.language.pattern = none) :
    e.requests.current = none := by
  cases hr : e.requests.current with
  | none => rfl
  | some r =>
    have hd := (h.describes r hr).pattern
    rw [hp] at hd
    cases hd

theorem Unstyled.of_kept (h : e.Unstyled) (hk : Kept e e') : e'.Unstyled where
  current := by rw [hk.requests_eq]; exact h.current
  styles_eq := by rw [hk.styles_eq, hk.length_eq]; exact h.styles_eq
  source_eq hp := by
    rw [hk.language_eq] at hp
    rw [hk.source_eq]
    exact h.source_eq hp

theorem Settles.of_kept {r : Request} (h : e.Settles r) (hk : Kept e e') : e'.Settles r where
  current := by rw [hk.requests_eq]; exact h.current
  shows styles hs := by
    rw [hk.styles_eq, hk.source_eq]
    exact h.shows styles hs

theorem Cleared.unstyled (h : Cleared e e') : e'.Unstyled where
  current := h.current
  styles_eq := h.styles_eq
  source_eq hp := by
    rw [h.pattern] at hp
    cases hp

theorem Regular.outcome (h : e.Regular) (ho : Outcome e e') (hw : e'.WellPlaced) :
    e'.Regular := by
  refine ⟨h.sound.outcome ho, hw, ?_, ?_⟩
  · cases ho with
    | kept hk =>
      rw [hk.requests_eq]
      exact h.awaited
    | requested m hm he =>
      rw [he]
      cases hp : m.language.pattern with
      | some pattern =>
        rw [m.requests_requestStyles_of_isSome (hp ▸ rfl)]
        exact Requests.awaited_issue _ _ _
      | none =>
        rw [m.requests_requestStyles_of_none hp]
        exact Requests.awaited_of_idle rfl
  · cases ho with
    | kept hk => exact hk.inbox_eq.trans h.inbox_eq
    | requested m hm he =>
      rw [he, inbox_requestStyles]
      exact hm.inbox_eq.trans h.inbox_eq

theorem Regular.operate (h : e.Regular) {o : Operation} (ho : ∀ styles, o ≠ .showStyles styles) :
    (e.operate o).Regular :=
  h.outcome ((e.outcome_operate o).resolve_left fun ⟨styles, hs⟩ => ho styles hs)
    (h.placed.operate o)

theorem Follows.lastNumber_eq (h : Follows last e f) :
    e.requests.lastNumber = f.requests.lastNumber :=
  congrArg Document.lastNumber h.document_eq

section Outcome

variable (h : Follows last e f) (hof : Outcome f f') (he : e'.Regular) (hf : f'.Regular)
  (hdoc : e'.document = f'.document)

include h hof he hf hdoc

/-- Where nothing was asked for in one run, the other one asked for nothing or had no pattern. -/
theorem Follows.of_kept (hke : Kept e e') : Follows last e' f' := by
  have hsame : f'.requests.lastNumber = f.requests.lastNumber := by
    rw [← h.lastNumber_eq, ← hke.requests_eq]
    exact (congrArg Document.lastNumber hdoc).symm
  rcases outcome_cases hof hf.placed with ⟨hkf, -⟩ | hrf | hcf
  · have hcur : f'.requests.current = f.requests.current := by rw [hkf.requests_eq]
    refine ⟨he, hf, hdoc, hcur ▸ h.last_eq, fun r hr => ?_, fun hnone => ?_⟩
    · rw [hcur] at hr
      rw [hke.requests_eq]
      exact (h.requested r hr).imp_right fun hset => hset.of_kept hke
    · rw [hcur] at hnone
      exact (h.unstyled hnone).of_kept hke
  · exact absurd (hrf.number_eq.symm.trans hsame) (Nat.succ_ne_self _)
  · -- There was no pattern before either, so nothing was current and no styles were shown.
    have hlang' : e'.language = f'.language := congrArg Document.language hdoc
    have hlang : e.language = f.language := congrArg Document.language h.document_eq
    have hp : f.language.pattern = none := by
      rw [← hlang, ← hke.language_eq, hlang']
      exact hcf.pattern
    have hu := h.unstyled (h.reference.sound.current_of_pattern hp)
    exact follows_of_unstyled he hf hdoc hcf.current (hu.of_kept hke)

/-- A request is made in both runs, and it is the same one. -/
theorem Follows.of_renewed (hre : Renewed e e') :
    f'.requests.lastNumber ≠ f.requests.lastNumber ∧ Follows e'.requests.current e' f' := by
  have hnext : f'.requests.lastNumber = f.requests.lastNumber + 1 := by
    rw [← h.lastNumber_eq, ← hre.number_eq]
    exact (congrArg Document.lastNumber hdoc).symm
  have hne : f'.requests.lastNumber ≠ f.requests.lastNumber := by
    rw [hnext]
    exact Nat.succ_ne_self _
  refine ⟨hne, ?_⟩
  rcases outcome_cases hof hf.placed with ⟨hkf, -⟩ | hrf | hcf
  · exact absurd (congrArg Requests.lastNumber hkf.requests_eq) hne
  · have hcur : f'.requests.current = e'.requests.current := by
      rw [hrf.current, hre.current, hdoc]
    refine ⟨he, hf, hdoc, fun r hr => hcur ▸ hr, fun r hr => .inl (hcur ▸ hr), fun hnone => ?_⟩
    rw [hrf.current] at hnone
    cases hnone
  · exact absurd hcf.number_eq hne

end Outcome

/-- Both runs do the same about styles, since it can be told from the documents. -/
theorem Follows.outcome (h : Follows last e f) (hoe : Outcome e e') (hof : Outcome f f')
    (he : e'.Regular) (hf : f'.Regular) (hdoc : e'.document = f'.document) :
    Follows (if e'.requests.lastNumber = e.requests.lastNumber then last else e'.requests.current)
      e' f' := by
  have hnum' : e'.requests.lastNumber = f'.requests.lastNumber :=
    congrArg Document.lastNumber hdoc
  rcases outcome_cases hoe he.placed with ⟨hke, -⟩ | hre | hce
  · rw [if_pos (congrArg Requests.lastNumber hke.requests_eq)]
    exact h.of_kept hof he hf hdoc hke
  · obtain ⟨hne, hfollows⟩ := h.of_renewed hof he hf hdoc hre
    rw [h.lastNumber_eq, hnum', if_neg hne]
    exact hfollows
  · rw [if_pos hce.number_eq]
    have hp : f'.language.pattern = none := by
      rw [← show e'.language = f'.language from congrArg Document.language hdoc]
      exact hce.pattern
    exact follows_of_unstyled he hf hdoc (hf.sound.current_of_pattern hp) hce.unstyled

/-- An operation keeps the comparison. -/
theorem Follows.operate (h : Follows last e f) {o : Operation}
    (ho : ∀ styles, o ≠ .showStyles styles) :
    Follows (e.latestRequest last (.operation o)) (e.operate o) (f.operate o) :=
  h.outcome ((e.outcome_operate o).resolve_left fun ⟨styles, hs⟩ => ho styles hs)
    ((f.outcome_operate o).resolve_left fun ⟨styles, hs⟩ => ho styles hs)
    (h.regular.operate ho) (h.reference.operate ho) (document_operate_congr h.document_eq o)

/-! ## Completions -/

/-- What workers do in the background, and what is passed over, keeps the comparison. -/
theorem Follows.background (h : Follows last e f) {requests : Requests}
    (hreg : Regular { e with requests := requests })
    (hdoc : Editor.document { e with requests := requests } = e.document)
    (hcur : requests.current = e.requests.current) :
    Follows last { e with requests := requests } f where
  regular := hreg
  reference := h.reference
  document_eq := hdoc.trans h.document_eq
  last_eq := h.last_eq
  requested r hr :=
    (h.requested r hr).imp hcur.trans fun hset => ⟨hcur.trans hset.current, hset.shows⟩
  unstyled hnone :=
    have hu := h.unstyled hnone
    ⟨hcur.trans hu.current, hu.styles_eq, hu.source_eq⟩

theorem Follows.conclude (h : Follows last e f) (n : RequestNumber) :
    Follows last { e with requests := e.requests.conclude n } f :=
  h.background ⟨h.regular.sound.step (.conclude n), h.regular.placed.requests _,
    h.regular.awaited.conclude h.regular.sound.coherent n, h.regular.inbox_eq⟩ rfl rfl

theorem Follows.arrive (h : Follows last e f) (n : RequestNumber) :
    Follows last { e with requests := e.requests.arrive n } f :=
  h.background ⟨h.regular.sound.step (.arrive n), h.regular.placed.requests _,
    h.regular.awaited.arrive n, h.regular.inbox_eq⟩ rfl rfl

theorem Follows.finish (h : Follows last e f) : Follows last e.finish f := by
  unfold Editor.finish Requests.finish
  split
  · exact (h.conclude _).arrive _
  · exact h

/-- The current request is the same in both runs. -/
theorem Follows.current_eq (h : Follows last e f) {r : Request} (hr : e.requests.current = some r) :
    f.requests.current = some r := by
  cases hf : f.requests.current with
  | none =>
    rw [(h.unstyled hf).current] at hr
    cases hr
  | some q =>
    rcases h.requested q hf with hq | hset
    · rw [← hq]
      exact hr
    · rw [hset.current] at hr
      cases hr

/-- The completion of the current request keeps the comparison. -/
theorem Follows.settle (h : Follows last e f) {r : Request} (hr : e.requests.current = some r)
    (hreg : e'.Regular) (hdoc : e'.document = e.document) (hset : e'.Settles r) :
    Follows last e' f where
  regular := hreg
  reference := h.reference
  document_eq := hdoc.trans h.document_eq
  last_eq := h.last_eq
  requested q hq := by
    rw [h.current_eq hr] at hq
    cases hq
    exact .inr hset
  unstyled hnone := by
    rw [h.current_eq hr] at hnone
    cases hnone

theorem Follows.handle (h : Follows last e f) {c : Completion} {rest : List Completion}
    (hq : e.requests.queue = c :: rest) : Follows last ((e.leaving rest).handle c).2 f := by
  have hplaced : ((e.leaving rest).handle c).2.WellPlaced :=
    (h.regular.placed.requests _).handle c
  have hleft : (e.leaving rest).Sound :=
    h.regular.sound.leaving hq
  have hh := h.regular.sound.handling hq
  generalize (e.leaving rest).handle c = answer at hplaced hh
  cases hh with
  | passedOver hn =>
    exact h.background ⟨hleft, hplaced, h.regular.awaited.leave hq hn, h.regular.inbox_eq⟩ rfl rfl
  | shown r styles hr hc hs =>
    refine h.settle hr ?_ rfl ⟨rfl, fun computed hcomp => ?_⟩
    · exact ⟨hleft.styled _ _, hplaced, Requests.awaited_of_idle rfl, h.regular.inbox_eq⟩
    · rw [(Request.result_eq_ok_iff hc).1 hs] at hcomp
      cases hcomp
      exact ⟨rfl, rfl⟩
  | failed r error hr hc hs =>
    refine h.settle hr ?_ rfl ⟨rfl, fun computed hcomp => ?_⟩
    · exact ⟨hleft.settled, hplaced, Requests.awaited_of_idle rfl, h.regular.inbox_eq⟩
    · rw [(Request.result_eq_ok_iff hc).2 hcomp] at hs
      cases hs

theorem Follows.receiveFrom (h : Follows last e f) {queue : List Completion}
    (hq : e.requests.queue = queue) (shown : Nat) :
    Follows last (e.receiveFrom shown queue).2 f := by
  induction queue generalizing e shown with
  | nil => exact h
  | cons c rest ih =>
    have hnext := h.handle hq
    have hleft : ((e.leaving rest).handle c).2.requests.queue = rest := queue_handle ..
    rw [Editor.receiveFrom]
    rcases hc : (e.leaving rest).handle c with ⟨answer, after⟩
    rw [hc] at hnext hleft
    cases answer with
    | error error => exact hnext
    | ok more => exact ih hnext hleft (shown + more)

/-! ## Actions -/

/-- An editor that was told nothing follows nothing. -/
theorem followInbox_of_empty (h : e.inbox = []) : e.followInbox = e := by
  cases e
  cases h
  rfl

theorem Follows.catchUp (h : Follows last e f) : Follows last e.catchUp.2 f := by
  unfold Editor.catchUp
  rw [followInbox_of_empty h.regular.inbox_eq]
  exact h.receiveFrom rfl 0

theorem Follows.awaitStyles (h : Follows last e f) : Follows last e.awaitStyles.2 f := by
  have hcatch := h.catchUp
  unfold Editor.awaitStyles
  split
  · rename_i he
    rw [he] at hcatch
    exact hcatch
  · rename_i shown after he
    rw [he] at hcatch
    split
    · exact hcatch
    · exact hcatch.finish.receiveFrom rfl shown

/-- Only operations make requests. -/
theorem Follows.latestRequest (h : Follows last e f) {a : Action} (ha : Follows last (e.act a) f) :
    Follows (e.latestRequest last a) (e.act a) f := by
  have hsame : (e.act a).requests.lastNumber = e.requests.lastNumber :=
    congrArg Document.lastNumber (ha.document_eq.trans h.document_eq.symm)
  rw [Editor.latestRequest, if_pos hsame]
  exact ha

/-- Every action keeps the comparison with the run of the operations alone. -/
theorem Follows.act (h : Follows last e f) (a : Action)
    (hown : ∀ o ∈ operationsOf [a], ∀ styles, o ≠ .showStyles styles) :
    Follows (e.latestRequest last a) (e.act a) ((operationsOf [a]).foldl Editor.operate f) := by
  cases a with
  | operation o => exact h.operate (hown o (List.mem_singleton_self o))
  | conclude number => exact h.latestRequest (h.conclude number)
  | arrive number => exact h.latestRequest (h.arrive number)
  | catchUp => exact h.latestRequest h.catchUp
  | awaitStyles => exact h.latestRequest h.awaitStyles

theorem operationsOf_cons (a : Action) (actions : List Action) :
    operationsOf (a :: actions) = operationsOf [a] ++ operationsOf actions := by
  cases a <;> rfl

theorem Follows.live (h : Follows last e f) {actions : List Action}
    (hown : ∀ o ∈ operationsOf actions, ∀ styles, o ≠ .showStyles styles) :
    Follows (e.lastRequest last actions) (e.live actions)
      ((operationsOf actions).foldl Editor.operate f) := by
  induction actions generalizing e f last with
  | nil => exact h
  | cons a actions ih =>
    rw [operationsOf_cons] at hown ⊢
    rw [List.foldl_append]
    refine ih (h.act a fun o ho => hown o (List.mem_append_left _ ho)) ?_
    exact fun o ho => hown o (List.mem_append_right _ ho)

end Highlight.Editor
