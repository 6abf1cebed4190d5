import Highlight.Proofs.Editor.Document

/-!
# What an operation does about styles

An operation other than showing styles from elsewhere does one of two things (`Outcome`): all that
styles are computed from stays, and so do the styles and the requests; or the operation ends by
asking for the styles of the state it led to. The caret may move without a new request only where
the settings allow it.

* `outcome_operate`: one of the two, for every operation;
* `outcome_followUpdate`, `outcome_followCaret`: the same for what another editor told.
-/

namespace Highlight.Editor

/-- The requests whose styles were shown, the last one first. -/
def shownRequests (e : Editor) : List RequestNumber :=
  e.events.filterMap fun event => match event with
    | .stylesShown number => number
    | _ => none

/-- What stays where no styles are asked for. -/
structure Kept (e e' : Editor) : Prop where
  text_eq : e'.text = e.text
  version_eq : e'.version = e.version
  language_eq : e'.language = e.language
  requests_eq : e'.requests = e.requests
  styles_eq : e'.styles = e.styles
  source_eq : e'.source = e.source
  inbox_eq : e'.inbox = e.inbox
  shown_eq : e'.shownRequests = e.shownRequests

/-- What stays up to the point where styles are asked for. -/
structure Prepared (e m : Editor) : Prop where
  requests_eq : m.requests = { e.requests with extensions := m.requests.extensions }
  source_eq : m.source = e.source
  inbox_eq : m.inbox = e.inbox
  shown_eq : m.shownRequests = e.shownRequests

/-- What an operation that led from `e` to `e'` did about styles. -/
inductive Outcome (e e' : Editor) : Prop where
  | kept (h : Kept e e') (hcaret : e.settings.caretSensitive = true → e'.caret = e.caret)
  | requested (m : Editor) (h : Prepared e m) (he : e' = m.requestStyles)

namespace Kept

variable {e m e' : Editor}

theorem refl (e : Editor) : Kept e e := ⟨rfl, rfl, rfl, rfl, rfl, rfl, rfl, rfl⟩

theorem trans (h : Kept e m) (h' : Kept m e') : Kept e e' where
  text_eq := h'.text_eq.trans h.text_eq
  version_eq := h'.version_eq.trans h.version_eq
  language_eq := h'.language_eq.trans h.language_eq
  requests_eq := h'.requests_eq.trans h.requests_eq
  styles_eq := h'.styles_eq.trans h.styles_eq
  source_eq := h'.source_eq.trans h.source_eq
  inbox_eq := h'.inbox_eq.trans h.inbox_eq
  shown_eq := h'.shown_eq.trans h.shown_eq

theorem prepared (h : Kept e m) : Prepared e m where
  requests_eq := by rw [h.requests_eq]
  source_eq := h.source_eq
  inbox_eq := h.inbox_eq
  shown_eq := h.shown_eq

theorem length_eq (h : Kept e e') : e'.length = e.length := congrArg String.length h.text_eq

end Kept

theorem Prepared.trans {e m m' : Editor} (h : Prepared e m) (h' : Prepared m m') :
    Prepared e m' where
  requests_eq := by
    rw [h'.requests_eq, h.requests_eq]
  source_eq := h'.source_eq.trans h.source_eq
  inbox_eq := h'.inbox_eq.trans h.inbox_eq
  shown_eq := h'.shown_eq.trans h.shown_eq

variable (e : Editor)

/-! ## Parts of operations -/

theorem kept_placeSelection (selection : Option TextRange) :
    Kept e (e.placeSelection selection) := by
  unfold placeSelection
  split
  · exact .refl e
  · exact ⟨rfl, rfl, rfl, rfl, rfl, rfl, rfl, rfl⟩

theorem kept_placeCaret (offset : Nat) : Kept e (e.placeCaret offset) := by
  unfold placeCaret
  split
  · exact .refl e
  · exact ⟨rfl, rfl, rfl, rfl, rfl, rfl, rfl, rfl⟩

theorem prepared_changeText (start stop : Nat) (new : String) :
    Prepared e (e.changeText start stop new) := by
  simp only [changeText]
  exact .trans (m := { e with
      text := e.replaced start stop new
      version := e.version + 1
      styles := e.splicedStyles start stop new.length }) ⟨rfl, rfl, rfl, rfl⟩
    (.trans (kept_placeSelection _ none).prepared ⟨rfl, rfl, rfl, rfl⟩)

/-- The caret was moved to `offset`, and styles were asked for again if the settings say so. -/
theorem outcome_restyle {e m : Editor} (h : Kept e m) (hc : m.caret = e.caret)
    (hs : m.settings = e.settings) (offset : Nat) :
    Outcome e ((m.placeCaret offset).restyle false (m.caret != offset)) := by
  have hk := h.trans (m.kept_placeCaret offset)
  unfold restyle
  split
  · exact .requested _ hk.prepared rfl
  · rename_i hr
    refine .kept hk fun hsens => ?_
    rw [settings_placeCaret, hs, hsens, Bool.false_or, Bool.and_true] at hr
    have hm : m.caret = offset := by simpa using hr
    rw [← hc, ← hm]
    exact congrArg Document.caret (m.document_placeCaret m.caret)

/-! ## Operations -/

theorem outcome_refused (x : Except Refusal Editor) (h : ∀ e', x = .ok e' → Outcome e e') :
    Outcome e (e.unlessRefused x) := by
  cases x with
  | ok e' => exact h e' rfl
  | error refusal => exact .kept (.refl e) fun _ => rfl

theorem outcome_edit {e e' : Editor} {start stop : Nat} {new : String}
    (h : e.edit start stop new = .ok e') : Outcome e e' := by
  obtain ⟨-, rfl⟩ := edit_eq_ok_iff.1 h
  by_cases hch : e.changes start stop new = true
  · -- The text changed, so styles are asked for wherever the caret was.
    rw [hch, if_pos rfl]
    exact .requested _ ((e.prepared_changeText start stop new).trans
      (kept_placeCaret _ _).prepared) rfl
  · rw [Bool.not_eq_true] at hch
    rw [hch, if_neg Bool.false_ne_true]
    exact outcome_restyle (.refl e) rfl rfl _

theorem outcome_replace {e e' : Editor} {start stop : Nat} {new : String}
    (h : e.replace start stop new = .ok e') : Outcome e e' :=
  e.outcome_edit (replace_eq_ok_iff.1 h).2

theorem outcome_selectRange (start stop : Nat) : Outcome e (e.selectRange start stop) :=
  outcome_restyle (e.kept_placeSelection _) (e.caret_placeSelection _)
    (e.settings_placeSelection _) stop

theorem outcome_setLanguage (language : Language) : Outcome e (e.setLanguage language) := by
  unfold setLanguage
  refine .requested _ ?_ rfl
  exact ⟨rfl, rfl, rfl, rfl⟩

theorem outcome_operate (o : Operation) :
    (∃ styles, o = .showStyles styles) ∨ Outcome e (e.operate o) := by
  cases o with
  | replace start stop new => exact .inr (e.outcome_refused _ fun _ => outcome_replace)
  | insert offset new => exact .inr (e.outcome_refused _ fun _ => outcome_replace)
  | delete start stop => exact .inr (e.outcome_refused _ fun _ => outcome_replace)
  | setText new => exact .inr (e.outcome_refused _ fun _ => outcome_edit)
  | setCaret offset =>
    refine .inr (e.outcome_refused _ fun e' he => ?_)
    obtain ⟨-, rfl⟩ := setCaret_eq_ok_iff.1 he
    exact e.outcome_selectRange offset offset
  | select start stop =>
    refine .inr (e.outcome_refused _ fun e' he => ?_)
    obtain ⟨-, rfl⟩ := select_eq_ok_iff.1 he
    exact e.outcome_selectRange start stop
  | setEditable value => exact .inr (.kept ⟨rfl, rfl, rfl, rfl, rfl, rfl, rfl, rfl⟩ fun _ => rfl)
  | setCaretSensitive value =>
    exact .inr (.kept ⟨rfl, rfl, rfl, rfl, rfl, rfl, rfl, rfl⟩ fun _ => rfl)
  | setLanguage language => exact .inr (e.outcome_setLanguage language)
  | setExtensions extensions =>
    exact .inr (.requested { e with requests := e.requests.setExtensions extensions }
      ⟨rfl, rfl, rfl, rfl⟩ rfl)
  | addExtension c =>
    exact .inr (.requested { e with requests := e.requests.addExtension c } ⟨rfl, rfl, rfl, rfl⟩ rfl)
  | requestStyles => exact .inr (.requested e ⟨rfl, rfl, rfl, rfl⟩ rfl)
  | showStyles styles => exact .inl ⟨styles, rfl⟩

/-! ## What another editor told -/

theorem outcome_followUpdate (update : Update) : Outcome e (e.followUpdate update) := by
  have hkept : Outcome e e := .kept (.refl e) fun _ => rfl
  cases update with
  | caret offset => exact hkept
  | selection selection =>
    cases selection with
    | none => exact .kept (e.kept_placeSelection none) fun _ => e.caret_placeSelection none
    | some r =>
      show Outcome e (if r.stop ≤ e.length then e.selectRange r.start r.stop else e)
      split
      · exact e.outcome_selectRange r.start r.stop
      · exact hkept
  | language language => exact e.outcome_setLanguage language

theorem outcome_followCaret (offset : Nat) : Outcome e (e.followCaret offset) := by
  unfold followCaret
  split
  · exact outcome_restyle (.refl e) rfl rfl offset
  · exact .kept (.refl e) fun _ => rfl

end Highlight.Editor
