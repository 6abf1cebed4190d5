import Highlight.Proofs.Editor.Placement
import Highlight.Proofs.Requests.Coherence

/-!
# The current request and the state of the editor

Whatever happens, the current request describes the editor (`Sound`): there is a pattern, and the
text, its version, the language and the extensions are those that the request captured. Every
operation that changes one of them ends by asking for styles, which makes a request of the new state
or leaves none. Hence the styles that arrive for the current request always fit, and the oldest
completion of the queue is handled in one of three ways (`Handling`).

* `Sound.step`, `Sound.run`: every step keeps it;
* `Sound.showDelivery_of_judge`: styles that were found to be wanted are never dropped;
* `Sound.handling`: what handling a completion comes to.
-/

namespace Highlight

/-- The request captured what the editor holds now, except perhaps where caret and selection are. -/
structure Request.Describes (r : Request) (e : Editor) : Prop where
  pattern : e.language.pattern.isSome
  text_eq : r.snapshot.text = e.text
  version_eq : r.snapshot.version = e.version
  language_eq : r.language = e.language
  extensions_eq : r.extensions = e.requests.extensions

/-- Only text, version, language and extensions matter. -/
theorem Request.Describes.congr {r : Request} {e e' : Editor} (h : r.Describes e)
    (htext : e'.text = e.text) (hversion : e'.version = e.version)
    (hlang : e'.language = e.language)
    (hext : e'.requests.extensions = e.requests.extensions) : r.Describes e' where
  pattern := by rw [hlang]; exact h.pattern
  text_eq := h.text_eq.trans htext.symm
  version_eq := h.version_eq.trans hversion.symm
  language_eq := h.language_eq.trans hlang.symm
  extensions_eq := h.extensions_eq.trans hext.symm

theorem Request.Describes.length_eq {r : Request} {e : Editor} (h : r.Describes e) :
    r.snapshot.length = e.length := congrArg String.length h.text_eq

namespace Editor

/-- The requests are coherent, and the current one describes the editor. -/
structure Sound (e : Editor) : Prop where
  coherent : e.requests.Coherent
  describes : ∀ r, e.requests.current = some r → r.Describes e

theorem sound_new (text : String) (language : Language) (settings : Settings) :
    (new text language settings).Sound :=
  ⟨Requests.coherent_new _ _, fun _ h => (nomatch h)⟩

variable {e m e' : Editor}

/-! ## Asking for styles -/

/-- A request made just now is the one that the document determines. -/
theorem current_requestStyles {r : Request} (hr : e.requestStyles.requests.current = some r) :
    r = e.requestStyles.document.request ∧ r.number = e.requests.lastNumber + 1 := by
  rcases e.requestStyles_cases with ⟨-, he⟩ | ⟨-, -, he⟩ | ⟨-, he⟩
  · rw [he] at hr ⊢
    cases hr
    exact ⟨rfl, rfl⟩
  · rw [he] at hr
    cases hr
  · rw [he] at hr
    cases hr

theorem shownRequests_requestStyles : e.requestStyles.shownRequests = e.shownRequests := by
  rcases e.requestStyles_cases with ⟨-, he⟩ | ⟨-, -, he⟩ | ⟨-, he⟩ <;>
    exact (congrArg shownRequests he).trans rfl

/-- Styles were asked for, and there is a pattern. -/
structure Renewed (e e' : Editor) : Prop where
  number_eq : e'.requests.lastNumber = e.requests.lastNumber + 1
  current : e'.requests.current = some e'.document.request
  source_eq : e'.source = e.source

/-- Styles were asked for, but there is no pattern. -/
structure Cleared (e e' : Editor) : Prop where
  number_eq : e'.requests.lastNumber = e.requests.lastNumber
  pattern : e'.language.pattern = none
  current : e'.requests.current = none
  styles_eq : e'.styles = .plain e'.length
  source_eq : e'.source = none ∨ e'.source = e.source

/-- What an operation did about styles can be told from the document. -/
theorem outcome_cases (ho : Outcome e e') (hw : e'.WellPlaced) :
    (Kept e e' ∧ (e.settings.caretSensitive = true → e'.caret = e.caret)) ∨ Renewed e e' ∨
      Cleared e e' := by
  cases ho with
  | kept hk hcaret => exact .inl ⟨hk, hcaret⟩
  | requested m hm he =>
    subst he
    have hlast : m.requests.lastNumber = e.requests.lastNumber := by rw [hm.requests_eq]
    have hlang := m.language_requestStyles
    rcases m.requestStyles_cases with ⟨-, hm'⟩ | ⟨hp, hplain, hm'⟩ | ⟨hp, hm'⟩
    · refine .inr (.inl ⟨?_, ?_, ?_⟩)
      · rw [hm', ← hlast]
        rfl
      · rw [hm']
        rfl
      · rw [hm']
        exact hm.source_eq
    · refine .inr (.inr ⟨?_, hlang ▸ hp, ?_, ?_, .inr ?_⟩)
      · rw [hm', ← hlast]
        rfl
      · rw [hm']
        rfl
      · rw [← hw.covers, hm']
        exact Spans.eq_plain_of_isPlain hplain
      · rw [hm']
        exact hm.source_eq
    · refine .inr (.inr ⟨?_, hlang ▸ hp, ?_, ?_, .inl ?_⟩)
      · rw [hm', ← hlast]
        rfl
      all_goals
        rw [hm']
        rfl

/-- Whatever was current before, asking for styles leaves a request that describes the editor, or
none. -/
theorem sound_requestStyles (h : e.requests.Coherent) : e.requestStyles.Sound := by
  rcases e.requestStyles_cases with ⟨hp, he⟩ | ⟨-, -, he⟩ | ⟨-, he⟩
  · rw [he]
    refine ⟨h.issue _ _, fun r hr => ?_⟩
    cases hr
    exact ⟨hp, rfl, rfl, rfl, rfl⟩
  · rw [he]
    exact ⟨h.withdraw, fun _ hr => (nomatch hr)⟩
  · rw [he]
    exact ⟨h.withdraw, fun _ hr => (nomatch hr)⟩

theorem Prepared.coherent (h : Prepared e m) (hc : e.requests.Coherent) : m.requests.Coherent := by
  rw [h.requests_eq]
  exact hc.extensions _

theorem Kept.describes (h : Kept e e') {r : Request} (hr : r.Describes e) : r.Describes e' :=
  hr.congr h.text_eq h.version_eq h.language_eq (congrArg Requests.extensions h.requests_eq)

theorem Sound.outcome (h : e.Sound) (ho : Outcome e e') : e'.Sound := by
  cases ho with
  | kept hk =>
    refine ⟨?_, fun r hr => ?_⟩
    · rw [hk.requests_eq]
      exact h.coherent
    · rw [hk.requests_eq] at hr
      exact hk.describes (h.describes r hr)
  | requested m hm he =>
    rw [he]
    exact sound_requestStyles (hm.coherent h.coherent)

/-! ## Completions -/

/-- Requests that changed in other respects than the current one and the extensions. -/
theorem Sound.requests (h : e.Sound) {requests : Requests} (hc : requests.Coherent)
    (hcur : ∀ r, requests.current = some r → e.requests.current = some r)
    (hx : requests.extensions = e.requests.extensions) : Sound { e with requests := requests } := by
  refine ⟨hc, fun r hr => ?_⟩
  exact (h.describes r (hcur r hr)).congr rfl rfl rfl hx

theorem Sound.leaving (h : e.Sound) {c : Completion} {rest : List Completion}
    (hq : e.requests.queue = c :: rest) : (e.leaving rest).Sound := by
  have hsub : rest ⊆ e.requests.queue := by
    rw [hq]
    exact List.subset_cons_self c rest
  exact h.requests (h.coherent.leave hsub) (fun _ hr => hr) rfl

/-- The editor when its current request was settled. -/
def settled (e : Editor) : Editor := { e with requests := { e.requests with current := none } }

/-- The editor when the styles of its current request were shown. -/
def styled (e : Editor) (number : RequestNumber) (styles : Spans) : Editor :=
  { e.settled with styles := styles, source := some number }.announce (.stylesShown (some number))

theorem Sound.settled (h : e.Sound) : e.settled.Sound :=
  h.requests h.coherent.settle (fun _ hr => (nomatch hr)) rfl

theorem Sound.styled (h : e.Sound) (number : RequestNumber) (styles : Spans) :
    (e.styled number styles).Sound :=
  ⟨h.coherent.settle, fun _ hr => (nomatch hr)⟩

/-- What a request asked for fits the editor that it describes. -/
theorem showDelivery_settled {r : Request} {c : Completion} {styles : Spans} (h : r.Describes e)
    (hc : r.completion? = some c) (hs : c.result = .ok styles) :
    e.settled.showDelivery ⟨c.number, c.version, c.length, styles⟩ =
      (.shown, e.styled r.number styles) := by
  obtain ⟨hnumber, hversion, hlength⟩ := Request.completion?_fields hc
  have hlen : styles.length = e.length :=
    (Request.length_of_result hc hs).trans h.length_eq
  have hclen : c.length = e.length := hlength.trans h.length_eq
  have hver : c.version = e.version := hversion.trans h.version_eq
  have hfit : ¬(c.length ≠ e.settled.length ∨ styles.length ≠ e.settled.length) := by
    rintro (hne | hne)
    · exact hne hclen
    · exact hne hlen
  have hcurrent : ¬c.version ≠ e.settled.version := fun hne => hne hver
  rw [showDelivery, if_neg hfit, if_neg hcurrent, hnumber]
  rfl

/-- What handling a completion `c` comes to, in an editor whose queue it was taken from. -/
inductive Handling (e : Editor) (c : Completion) : Except StylingError Nat × Editor → Prop where
  | passedOver (hn : e.requests.running ≠ some c.number) : Handling e c (.ok 0, e)
  | shown (r : Request) (styles : Spans) (hr : e.requests.current = some r)
      (hc : r.completion? = some c) (hs : c.result = .ok styles) :
      Handling e c (.ok 1, e.styled r.number styles)
  | failed (r : Request) (error : StylingError) (hr : e.requests.current = some r)
      (hc : r.completion? = some c) (hs : c.result = .error error) :
      Handling e c (.error error, e.settled)

/-- The oldest completion of the queue is passed over, or settles the current request. -/
theorem Sound.handling (h : e.Sound) {c : Completion} {rest : List Completion}
    (hq : e.requests.queue = c :: rest) :
    Handling (e.leaving rest) c ((e.leaving rest).handle c) := by
  have hl : (e.leaving rest).Sound := h.leaving hq
  rcases h.coherent.belongs (hq ▸ List.mem_cons_self) with hn | ⟨r, hr, hc⟩
  · have hhandle : (e.leaving rest).handle c = (.ok 0, e.leaving rest) := by
      rw [handle, Requests.judge_of_ne (s := (e.leaving rest).requests) hn]
    rw [hhandle]
    exact .passedOver hn
  · have hj := hl.coherent.judge_current hr hc
    cases hs : c.result with
    | error error =>
      have hhandle : (e.leaving rest).handle c = (.error error, (e.leaving rest).settled) := by
        rw [handle, hj, Completion.answer, hs]
        rfl
      rw [hhandle]
      exact .failed r error hr hc hs
    | ok styles =>
      have hshow := showDelivery_settled (hl.describes r hr) hc hs
      have hhandle : (e.leaving rest).handle c =
          (.ok 1, (e.leaving rest).styled r.number styles) := by
        rw [handle, hj, Completion.answer, hs]
        show (Except.ok (ShowOutcome.count ((e.leaving rest).settled.showDelivery _).1),
          ((e.leaving rest).settled.showDelivery _).2) = _
        rw [hshow]
        rfl
      rw [hhandle]
      exact .shown r styles hr hc hs

theorem Handling.document_eq {c : Completion} {answer : Except StylingError Nat × Editor}
    (h : Handling e c answer) : answer.2.document = e.document := by
  cases h <;> rfl

/-- What arrives for requests leaves the document as it is. -/
theorem Sound.document_receive (h : e.Sound) : (e.step .receive).document = e.document := by
  simp only [step, receiveNext]
  split
  · rfl
  · rename_i c rest hq
    exact (h.handling hq).document_eq

/-- Styles that were found to be wanted are never dropped. -/
theorem Sound.showDelivery_of_judge (h : e.Sound) {c : Completion} {rest : List Completion}
    (hq : e.requests.queue = c :: rest) {d : Delivery} {requests : Requests}
    (hj : (e.leaving rest).requests.judge c = (.ok (some d), requests)) :
    ({ e.leaving rest with requests := requests }.showDelivery d).1 = .shown := by
  have hl : (e.leaving rest).Sound := h.leaving hq
  rcases h.coherent.belongs (hq ▸ List.mem_cons_self) with hn | ⟨r, hr, hc⟩
  · rw [Requests.judge_of_ne (s := (e.leaving rest).requests) hn] at hj
    cases hj
  · rw [hl.coherent.judge_current hr hc] at hj
    cases hs : c.result with
    | error error =>
      rw [Completion.answer, hs] at hj
      cases hj
    | ok styles =>
      rw [Completion.answer, hs] at hj
      cases hj
      exact congrArg Prod.fst (showDelivery_settled (hl.describes r hr) hc hs)

/-! ## Steps -/

theorem requests_showStyles (e : Editor) (styles : Spans) :
    (e.showStyles styles).2.requests = e.requests := by
  unfold showStyles
  split <;> rfl

theorem shownRequests_showStyles (e : Editor) (styles : Spans) :
    (e.showStyles styles).2.shownRequests = e.shownRequests := by
  unfold showStyles
  split <;> rfl

theorem Sound.showStyles (h : e.Sound) (styles : Spans) : (e.showStyles styles).2.Sound := by
  unfold Editor.showStyles
  split
  · exact ⟨h.coherent, fun r hr => (h.describes r hr).congr rfl rfl rfl rfl⟩
  · exact h

theorem Sound.operate (h : e.Sound) (o : Operation) : (e.operate o).Sound := by
  rcases e.outcome_operate o with ⟨styles, rfl⟩ | ho
  · exact h.showStyles styles
  · exact h.outcome ho

theorem Sound.handled (h : e.Sound) {c : Completion} {answer : Except StylingError Nat × Editor}
    (hh : Handling e c answer) : answer.2.Sound := by
  cases hh with
  | passedOver => exact h
  | shown r styles => exact h.styled r.number styles
  | failed => exact h.settled

theorem Sound.step (h : e.Sound) (s : Step) : (e.step s).Sound := by
  cases s with
  | operation o => exact h.operate o
  | conclude number => exact h.requests (h.coherent.conclude number) (fun _ hr => hr) rfl
  | arrive number => exact h.requests (h.coherent.arrive number) (fun _ hr => hr) rfl
  | follow update => exact h.outcome (e.outcome_followUpdate update)
  | followCaret offset => exact h.outcome (e.outcome_followCaret offset)
  | receive =>
    show e.receiveNext.Sound
    unfold receiveNext
    split
    · exact h
    · rename_i c rest hq
      have hl : (e.leaving rest).Sound := h.leaving hq
      exact hl.handled (h.handling hq)
  | mail inbox outbox =>
    exact ⟨h.coherent, fun r hr => (h.describes r hr).congr rfl rfl rfl rfl⟩

theorem Sound.run (h : e.Sound) (steps : List Step) : (e.run steps).Sound :=
  run_induction h (fun _ s h => h.step s) steps

end Editor

end Highlight
