import Highlight.Proofs.Editor.Runs

/-!
# The document of an editor

What an editor holds apart from its styles, its log, its boxes and its workers: all that operations
look at when they decide what to do, and all that a request captures. Each part of an operation
changes the document in one way (`document_placeCaret`, `document_requestStyles`, …), so an
operation does the same to the documents of two editors wherever these agree
(`document_operate_congr`), whatever their styles are and whatever their workers have done.
-/

namespace Highlight

/-- What of an editor does not depend on when its workers finish. -/
structure Document where
  text : String
  caret : Nat
  selection : Option TextRange
  editable : Bool
  version : Nat
  language : Language
  settings : Settings
  extensions : List Contributor
  lastNumber : RequestNumber
  workerName : String

namespace Document

/-- A copy of the document's state. -/
def snapshot (d : Document) : Snapshot := .ofText d.text d.caret d.selection d.version

/-- The request that was made last, if the document has not changed since. -/
def request (d : Document) : Request :=
  ⟨d.lastNumber, d.snapshot, d.language, d.extensions, s!"{d.workerName}-{d.lastNumber}"⟩

/-- The document after its styles were requested. -/
def requested (d : Document) : Document :=
  match d.language.pattern with
  | some _ => { d with lastNumber := d.lastNumber + 1 }
  | none => d

end Document

namespace Editor

/-- The document of an editor. -/
def document (e : Editor) : Document :=
  ⟨e.text, e.caret, e.selection, e.editable, e.version, e.language, e.settings,
    e.requests.extensions, e.requests.lastNumber, e.requests.workerName⟩

variable (e : Editor)

/-! ## Parts of operations -/

theorem document_placeSelection (selection : Option TextRange) :
    (e.placeSelection selection).document = { e.document with selection := selection } := by
  unfold placeSelection
  split
  · rename_i h
    rw [← h]
    rfl
  · rfl

theorem document_placeCaret (offset : Nat) :
    (e.placeCaret offset).document = { e.document with caret := offset } := by
  unfold placeCaret
  split
  · rename_i h
    rw [← h]
    rfl
  · rfl

/-- Asking for styles makes a request, or leaves none; then what is shown is plain, or made so. -/
theorem requestStyles_cases :
    (e.language.pattern.isSome ∧
        e.requestStyles = { e with requests := e.requests.issue e.snapshot e.language }) ∨
      (e.language.pattern = none ∧ e.styles.isPlain ∧
        e.requestStyles = { e with requests := e.requests.withdraw }) ∨
      (e.language.pattern = none ∧
        e.requestStyles = { e with
          requests := e.requests.withdraw
          styles := .plain e.length
          source := none }.announce (.stylesShown none)) := by
  unfold requestStyles
  cases hp : e.language.pattern with
  | some pattern => exact .inl ⟨rfl, rfl⟩
  | none =>
    by_cases hplain : e.styles.isPlain = true
    · exact .inr (.inl ⟨rfl, hplain, if_pos hplain⟩)
    · exact .inr (.inr ⟨rfl, if_neg hplain⟩)

/-- Asking for styles changes nothing but the requests and what is shown. -/
theorem requestStyles_eq :
    ∃ news : List Event, news ⊆ [.stylesShown none] ∧
      e.requestStyles = { e with
        requests := e.requestStyles.requests
        styles := e.requestStyles.styles
        source := e.requestStyles.source
        events := news ++ e.events } := by
  rcases e.requestStyles_cases with ⟨-, he⟩ | ⟨-, -, he⟩ | ⟨-, he⟩
  · rw [he]
    exact ⟨[], List.nil_subset _, rfl⟩
  · rw [he]
    exact ⟨[], List.nil_subset _, rfl⟩
  · rw [he]
    exact ⟨[.stylesShown none], List.Subset.refl _, rfl⟩

theorem text_requestStyles : e.requestStyles.text = e.text := by
  obtain ⟨news, -, he⟩ := e.requestStyles_eq
  rw [he]

theorem caret_requestStyles : e.requestStyles.caret = e.caret := by
  obtain ⟨news, -, he⟩ := e.requestStyles_eq
  rw [he]

theorem settings_requestStyles : e.requestStyles.settings = e.settings := by
  obtain ⟨news, -, he⟩ := e.requestStyles_eq
  rw [he]

theorem language_requestStyles : e.requestStyles.language = e.language := by
  obtain ⟨news, -, he⟩ := e.requestStyles_eq
  rw [he]

theorem inbox_requestStyles : e.requestStyles.inbox = e.inbox := by
  obtain ⟨news, -, he⟩ := e.requestStyles_eq
  rw [he]

theorem outbox_requestStyles : e.requestStyles.outbox = e.outbox := by
  obtain ⟨news, -, he⟩ := e.requestStyles_eq
  rw [he]

theorem requests_requestStyles_of_isSome (hp : e.language.pattern.isSome) :
    e.requestStyles.requests = e.requests.issue e.snapshot e.language := by
  rcases e.requestStyles_cases with ⟨-, he⟩ | ⟨hnone, -⟩ | ⟨hnone, -⟩
  · rw [he]
  all_goals
    rw [hnone] at hp
    cases hp

theorem requests_requestStyles_of_none (hp : e.language.pattern = none) :
    e.requestStyles.requests = e.requests.withdraw := by
  rcases e.requestStyles_cases with ⟨hsome, -⟩ | ⟨-, -, he⟩ | ⟨-, he⟩
  · rw [hp] at hsome
    cases hsome
  · rw [he]
  · rw [he]
    rfl

theorem document_requestStyles : e.requestStyles.document = e.document.requested := by
  have hlang : e.document.language = e.language := rfl
  unfold Document.requested
  rw [hlang]
  rcases e.requestStyles_cases with ⟨hp, h⟩ | ⟨hp, -, h⟩ | ⟨hp, h⟩
  · obtain ⟨pattern, hpattern⟩ := Option.isSome_iff_exists.1 hp
    rw [h, hpattern]
    rfl
  · rw [h, hp]
    rfl
  · rw [h, hp]
    rfl

theorem document_restyle (textChanged caretMoved : Bool) :
    (e.restyle textChanged caretMoved).document =
      if textChanged || caretMoved && e.settings.caretSensitive then e.document.requested
      else e.document := by
  unfold restyle
  split
  · exact e.document_requestStyles
  · rfl

theorem document_changeText (start stop : Nat) (new : String) :
    (e.changeText start stop new).document =
      { e.document with
        text := e.replaced start stop new
        version := e.version + 1
        selection := none } := by
  simp only [changeText]
  exact document_placeSelection _ _

theorem caret_changeText (start stop : Nat) (new : String) :
    (e.changeText start stop new).caret = e.caret :=
  congrArg Document.caret (e.document_changeText start stop new)

theorem settings_changeText (start stop : Nat) (new : String) :
    (e.changeText start stop new).settings = e.settings :=
  congrArg Document.settings (e.document_changeText start stop new)

theorem caret_placeSelection (selection : Option TextRange) :
    (e.placeSelection selection).caret = e.caret :=
  congrArg Document.caret (e.document_placeSelection selection)

theorem settings_placeSelection (selection : Option TextRange) :
    (e.placeSelection selection).settings = e.settings :=
  congrArg Document.settings (e.document_placeSelection selection)

theorem settings_placeCaret (offset : Nat) : (e.placeCaret offset).settings = e.settings :=
  congrArg Document.settings (e.document_placeCaret offset)

/-! ## What is let through -/

section

variable {e} {e' : Editor} {start stop offset : Nat} {new : String}

theorem ite_eq_ok_iff {p : Prop} [Decidable p] {changed : Editor} {reason : Refusal} :
    (if p then .ok changed else .error reason : Except Refusal Editor) = .ok e' ↔
      p ∧ e' = changed := by
  split
  · next hp => exact ⟨fun h => ⟨hp, (Except.ok.inj h).symm⟩, fun h => by rw [h.2]⟩
  · next hp => exact iff_of_false nofun fun h => hp h.1

theorem edit_eq_ok_iff :
    e.edit start stop new = .ok e' ↔ (start ≤ stop ∧ stop ≤ e.length) ∧
      let edited := if e.changes start stop new then e.changeText start stop new else e
      e' = (edited.placeCaret (start + new.length)).restyle (e.changes start stop new)
        (edited.caret != start + new.length) :=
  ite_eq_ok_iff

theorem replace_eq_ok_iff :
    e.replace start stop new = .ok e' ↔ e.editable = true ∧ e.edit start stop new = .ok e' := by
  unfold replace
  split
  · next he => exact ⟨fun h => ⟨he, h⟩, fun h => h.2⟩
  · next he => exact iff_of_false nofun fun h => he h.1

/-- Putting the caret somewhere is selecting an empty range there. -/
theorem setCaret_eq (e : Editor) (offset : Nat) :
    e.setCaret offset =
      if offset ≤ e.length then .ok (e.selectRange offset offset)
      else .error (.offsetOutOfRange offset e.length) := by
  simp only [setCaret, selectRange, Nat.lt_irrefl, if_false]

theorem setCaret_eq_ok_iff :
    e.setCaret offset = .ok e' ↔ offset ≤ e.length ∧ e' = e.selectRange offset offset := by
  rw [setCaret_eq, ite_eq_ok_iff]

theorem select_eq_ok_iff :
    e.select start stop = .ok e' ↔
      (start ≤ stop ∧ stop ≤ e.length) ∧ e' = e.selectRange start stop :=
  ite_eq_ok_iff

end

/-! ## Operations -/

section

variable {e} {f : Editor}

theorem document_requestStyles_congr (h : e.document = f.document) :
    e.requestStyles.document = f.requestStyles.document := by
  rw [document_requestStyles, document_requestStyles, h]

theorem document_unlessRefused_congr {x y : Except Refusal Editor} (h : e.document = f.document)
    (hxy : x.map document = y.map document) :
    (e.unlessRefused x).document = (f.unlessRefused y).document := by
  cases x <;> cases y <;> simp only [Except.map, reduceCtorEq, Except.ok.injEq] at hxy
  · exact h
  · exact hxy

theorem document_edit_congr (h : e.document = f.document) (start stop : Nat) (new : String) :
    (e.edit start stop new).map document = (f.edit start stop new).map document := by
  have htext : e.text = f.text := congrArg Document.text h
  have hlen : e.length = f.length := congrArg String.length htext
  have hcaret : e.caret = f.caret := congrArg Document.caret h
  have hversion : e.version = f.version := congrArg Document.version h
  have hsettings : e.settings = f.settings := congrArg Document.settings h
  have hchanges : e.changes start stop new = f.changes start stop new := by
    simp only [changes, htext]
  simp only [edit, hchanges, hlen]
  by_cases hr : start ≤ stop ∧ stop ≤ f.length
  · rw [if_pos hr, if_pos hr]
    simp only [Except.map, document_restyle, document_placeCaret, settings_placeCaret]
    by_cases hch : f.changes start stop new = true
    · rw [if_pos hch, if_pos hch]
      simp only [document_changeText, caret_changeText, settings_changeText, replaced, h, htext,
        hcaret, hversion, hsettings]
    · rw [if_neg hch, if_neg hch]
      simp only [h, hcaret, hsettings]
  · rw [if_neg hr, if_neg hr]

theorem document_replace_congr (h : e.document = f.document) (start stop : Nat) (new : String) :
    (e.replace start stop new).map document = (f.replace start stop new).map document := by
  have heditable : e.editable = f.editable := congrArg Document.editable h
  simp only [replace, heditable]
  by_cases hf : f.editable = true
  · rw [if_pos hf, if_pos hf]
    exact document_edit_congr h start stop new
  · rw [if_neg hf, if_neg hf]

theorem document_selectRange_congr (h : e.document = f.document) (start stop : Nat) :
    (e.selectRange start stop).document = (f.selectRange start stop).document := by
  have hcaret : e.caret = f.caret := congrArg Document.caret h
  have hsettings : e.settings = f.settings := congrArg Document.settings h
  simp only [selectRange, document_restyle, document_placeCaret, document_placeSelection,
    settings_placeCaret, settings_placeSelection, caret_placeSelection, h, hcaret, hsettings]

theorem document_setCaret_congr (h : e.document = f.document) (offset : Nat) :
    (e.setCaret offset).map document = (f.setCaret offset).map document := by
  have htext : e.text = f.text := congrArg Document.text h
  have hlen : e.length = f.length := congrArg String.length htext
  rw [setCaret_eq, setCaret_eq, hlen]
  by_cases hr : offset ≤ f.length
  · rw [if_pos hr, if_pos hr]
    exact congrArg Except.ok (document_selectRange_congr h offset offset)
  · rw [if_neg hr, if_neg hr]

theorem document_select_congr (h : e.document = f.document) (start stop : Nat) :
    (e.select start stop).map document = (f.select start stop).map document := by
  have htext : e.text = f.text := congrArg Document.text h
  have hlen : e.length = f.length := congrArg String.length htext
  simp only [select, hlen]
  by_cases hr : start ≤ stop ∧ stop ≤ f.length
  · rw [if_pos hr, if_pos hr]
    exact congrArg Except.ok (document_selectRange_congr h start stop)
  · rw [if_neg hr, if_neg hr]

/-- Styles shown from elsewhere leave the document as it is. -/
theorem document_showStyles (e : Editor) (styles : Spans) :
    (e.showStyles styles).2.document = e.document := by
  unfold showStyles
  split <;> rfl

/-- An operation does the same to equal documents. -/
theorem document_operate_congr (h : e.document = f.document) (o : Operation) :
    (e.operate o).document = (f.operate o).document := by
  have hfields := h
  simp only [document, Document.mk.injEq] at hfields
  obtain ⟨ht, hc, hs, he, hv, hl, hset, hx, hn, hw⟩ := hfields
  cases o with
  | replace start stop new =>
    exact document_unlessRefused_congr h (document_replace_congr h start stop new)
  | insert offset new =>
    exact document_unlessRefused_congr h (document_replace_congr h offset offset new)
  | delete start stop =>
    exact document_unlessRefused_congr h (document_replace_congr h start stop "")
  | setText new =>
    refine document_unlessRefused_congr h ?_
    rw [setText, setText, show e.length = f.length from congrArg String.length ht]
    exact document_edit_congr h 0 _ new
  | setCaret offset => exact document_unlessRefused_congr h (document_setCaret_congr h offset)
  | select start stop => exact document_unlessRefused_congr h (document_select_congr h start stop)
  | setEditable value =>
    simp only [operate, setEditable, document, ht, hc, hs, hv, hl, hset, hx, hn, hw]
  | setCaretSensitive value =>
    simp only [operate, setCaretSensitive, document, ht, hc, hs, he, hv, hl, hset, hx, hn, hw]
  | setLanguage language =>
    refine document_requestStyles_congr ?_
    simp only [document, announce, passOn, ht, hc, hs, he, hv, hset, hx, hn, hw]
  | setExtensions extensions =>
    refine document_requestStyles_congr ?_
    simp only [document, Requests.setExtensions, ht, hc, hs, he, hv, hl, hset, hn, hw]
  | addExtension c =>
    refine document_requestStyles_congr ?_
    simp only [document, Requests.addExtension, ht, hc, hs, he, hv, hl, hset, hx, hn, hw]
  | requestStyles => exact document_requestStyles_congr h
  | showStyles styles =>
    simp only [operate, document_showStyles]
    exact h

end

end Editor

end Highlight
