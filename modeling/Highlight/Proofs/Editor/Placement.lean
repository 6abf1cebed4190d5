import Highlight.Proofs.Editor.Outcome
import Highlight.Proofs.Spans.Length

/-!
# Caret, selection and styles within the text

The caret is never past the end of the text, what is selected is not empty and within the text, and
the styles cover exactly the text (`WellPlaced`). In the midst of an edit, when the text has changed
already and the caret is still where it was, only the latter two hold (`Fitting`).

* `WellPlaced.step`, `WellPlaced.run`: every step keeps it, whatever was told by other editors;
* `WellPlaced.caret_snapshot`: a snapshot never moves the caret;
* `WellPlaced.exists_splice`: the styles follow every edit within the text.
-/

namespace Highlight.Editor

/-- Selection and styles fit the text. -/
structure Fitting (e : Editor) : Prop where
  selection_lt : ∀ r, e.selection = some r → r.start < r.stop ∧ r.stop ≤ e.length
  covers : e.styles.length = e.length

/-- Caret, selection and styles fit the text. -/
structure WellPlaced (e : Editor) : Prop extends e.Fitting where
  caret_le : e.caret ≤ e.length

theorem wellPlaced_new (text : String) (language : Language) (settings : Settings) :
    (new text language settings).WellPlaced where
  selection_lt _ h := nomatch h
  covers := Spans.length_plain _
  caret_le := Nat.zero_le _

variable {e e' : Editor}

/-! ## What follows -/

theorem WellPlaced.caret_snapshot (h : e.WellPlaced) : e.snapshot.caret = e.caret :=
  Nat.min_eq_left h.caret_le

/-- Every edit within the text has spliced styles, if the new text is not too long. -/
theorem Fitting.exists_splice (h : e.Fitting) {start stop inserted : Nat} (hle : start ≤ stop)
    (hstop : stop ≤ e.length) (hmax : e.length - (stop - start) + inserted ≤ maxLength) :
    ∃ styles, e.styles.splice start stop inserted = .ok (.ok styles) := by
  rw [← h.covers] at hstop hmax
  exact Spans.exists_splice hle hstop hmax

/-! ## Parts of operations -/

theorem length_changeText {start stop : Nat} (new : String) (hle : start ≤ stop)
    (hstop : stop ≤ e.length) :
    (e.changeText start stop new).length = e.length - (stop - start) + new.length := by
  have htext : (e.changeText start stop new).text = e.replaced start stop new :=
    congrArg Document.text (e.document_changeText start stop new)
  rw [length] at hstop ⊢
  rw [length, htext, replaced, String.length_ofList, List.length_append, List.length_append,
    List.length_take, List.length_drop, String.length_toList, String.length_toList]
  omega

theorem length_splicedStyles (h : e.styles.length = e.length) (start stop inserted : Nat) :
    (e.splicedStyles start stop inserted).length = e.length - (stop - start) + inserted := by
  unfold splicedStyles
  split
  · rename_i styles hs
    rw [Spans.length_of_splice hs, h]
  · exact Spans.length_plain _

theorem styles_changeText (start stop : Nat) (new : String) :
    (e.changeText start stop new).styles = e.splicedStyles start stop new.length := by
  simp only [changeText]
  exact (kept_placeSelection _ none).styles_eq

theorem Fitting.changeText (h : e.Fitting) {start stop : Nat} (new : String) (hle : start ≤ stop)
    (hstop : stop ≤ e.length) : (e.changeText start stop new).Fitting where
  selection_lt r hr := by
    have hnone : (e.changeText start stop new).selection = none :=
      congrArg Document.selection (e.document_changeText start stop new)
    rw [hnone] at hr
    cases hr
  covers := by
    rw [styles_changeText, length_splicedStyles h.covers, length_changeText new hle hstop]

theorem Fitting.placeSelection (h : e.Fitting) {selection : Option TextRange}
    (hs : ∀ r, selection = some r → r.start < r.stop ∧ r.stop ≤ e.length) :
    (e.placeSelection selection).Fitting := by
  have hk := e.kept_placeSelection selection
  have hsel : (e.placeSelection selection).selection = selection :=
    congrArg Document.selection (e.document_placeSelection selection)
  refine ⟨fun r hr => ?_, ?_⟩
  · rw [hsel] at hr
    rw [hk.length_eq]
    exact hs r hr
  · rw [hk.styles_eq, hk.length_eq]
    exact h.covers

theorem Fitting.unselect (h : e.Fitting) : (e.placeSelection none).Fitting :=
  h.placeSelection fun _ hr => (nomatch hr)

/-- Wherever the caret was, it may be put anywhere within the text. -/
theorem Fitting.placeCaret (h : e.Fitting) {offset : Nat} (ho : offset ≤ e.length) :
    (e.placeCaret offset).WellPlaced := by
  have hk := e.kept_placeCaret offset
  have hd := e.document_placeCaret offset
  have hsel : (e.placeCaret offset).selection = e.selection := congrArg Document.selection hd
  have hcaret : (e.placeCaret offset).caret = offset := congrArg Document.caret hd
  refine ⟨⟨fun r hr => ?_, ?_⟩, ?_⟩
  · rw [hsel] at hr
    rw [hk.length_eq]
    exact h.selection_lt r hr
  · rw [hk.styles_eq, hk.length_eq]
    exact h.covers
  · rw [hcaret, hk.length_eq]
    exact ho

/-- Only text, caret, selection and styles matter. -/
theorem WellPlaced.congr (h : e.WellPlaced) (htext : e'.text = e.text) (hcaret : e'.caret = e.caret)
    (hsel : e'.selection = e.selection) (hstyles : e'.styles = e.styles) : e'.WellPlaced := by
  have hlen : e'.length = e.length := congrArg String.length htext
  refine ⟨⟨fun r hr => ?_, ?_⟩, ?_⟩
  · rw [hsel] at hr
    rw [hlen]
    exact h.selection_lt r hr
  · rw [hstyles, hlen]
    exact h.covers
  · rw [hcaret, hlen]
    exact h.caret_le

theorem WellPlaced.requests (h : e.WellPlaced) (requests : Requests) :
    WellPlaced { e with requests := requests } :=
  h.congr rfl rfl rfl rfl

theorem WellPlaced.requestStyles (h : e.WellPlaced) : e.requestStyles.WellPlaced := by
  rcases e.requestStyles_cases with ⟨-, he⟩ | ⟨-, -, he⟩ | ⟨-, he⟩
  · rw [he]
    exact h.requests _
  · rw [he]
    exact h.requests _
  · rw [he]
    exact ⟨⟨h.selection_lt, Spans.length_plain _⟩, h.caret_le⟩

theorem WellPlaced.restyle (h : e.WellPlaced) (textChanged caretMoved : Bool) :
    (e.restyle textChanged caretMoved).WellPlaced := by
  unfold Editor.restyle
  split
  · exact h.requestStyles
  · exact h

/-! ## Operations -/

theorem WellPlaced.unlessRefused (h : e.WellPlaced) {x : Except Refusal Editor}
    (hx : ∀ e', x = .ok e' → e'.WellPlaced) : (e.unlessRefused x).WellPlaced := by
  cases x with
  | ok e' => exact hx e' rfl
  | error refusal => exact h

theorem WellPlaced.edit (h : e.WellPlaced) {start stop : Nat} {new : String}
    (he : e.edit start stop new = .ok e') : e'.WellPlaced := by
  unfold Editor.edit at he
  by_cases hr : start ≤ stop ∧ stop ≤ e.length
  · rw [if_pos hr] at he
    cases he
    refine WellPlaced.restyle ?_ _ _
    by_cases hch : e.changes start stop new = true
    · rw [if_pos hch]
      refine (h.toFitting.changeText new hr.1 hr.2).placeCaret ?_
      rw [length_changeText new hr.1 hr.2]
      omega
    · rw [if_neg hch]
      refine h.toFitting.placeCaret ?_
      -- The new text is the text it replaces, so it does not reach past the end.
      have hsame : (e.text.toList.drop start).take (stop - start) = new.toList := by
        simpa [changes] using hch
      have hlen : new.length ≤ stop - start := by
        rw [← String.length_toList, ← hsame]
        exact List.length_take_le _ _
      omega
  · rw [if_neg hr] at he
    cases he

theorem WellPlaced.replace (h : e.WellPlaced) {start stop : Nat} {new : String}
    (he : e.replace start stop new = .ok e') : e'.WellPlaced := by
  unfold Editor.replace at he
  split at he
  · exact h.edit he
  · cases he

theorem WellPlaced.setCaret (h : e.WellPlaced) {offset : Nat} (he : e.setCaret offset = .ok e') :
    e'.WellPlaced := by
  unfold Editor.setCaret at he
  split at he
  · rename_i ho
    cases he
    have hf := h.toFitting.unselect
    refine WellPlaced.restyle (hf.placeCaret ?_) _ _
    rw [(e.kept_placeSelection none).length_eq]
    exact ho
  · cases he

theorem WellPlaced.selectRange (h : e.WellPlaced) {start stop : Nat} (hstop : stop ≤ e.length) :
    (e.selectRange start stop).WellPlaced := by
  have hsel : ∀ r, (if start < stop then some (⟨start, stop⟩ : TextRange) else none) = some r →
      r.start < r.stop ∧ r.stop ≤ e.length := by
    intro r hr
    split at hr
    · rename_i hlt
      cases hr
      exact ⟨hlt, hstop⟩
    · cases hr
  refine WellPlaced.restyle ((h.toFitting.placeSelection hsel).placeCaret ?_) _ _
  rw [(e.kept_placeSelection _).length_eq]
  exact hstop

theorem WellPlaced.select (h : e.WellPlaced) {start stop : Nat}
    (he : e.select start stop = .ok e') : e'.WellPlaced := by
  unfold Editor.select at he
  split at he
  · rename_i hr
    cases he
    exact h.selectRange hr.2
  · cases he

theorem WellPlaced.setLanguage (h : e.WellPlaced) (language : Language) :
    (e.setLanguage language).WellPlaced := by
  unfold Editor.setLanguage
  refine WellPlaced.requestStyles ?_
  exact h.congr rfl rfl rfl rfl

theorem WellPlaced.showStyles (h : e.WellPlaced) (styles : Spans) :
    (e.showStyles styles).2.WellPlaced := by
  unfold Editor.showStyles
  split
  · rename_i hs
    exact ⟨⟨h.selection_lt, hs⟩, h.caret_le⟩
  · exact h

theorem WellPlaced.operate (h : e.WellPlaced) (o : Operation) : (e.operate o).WellPlaced := by
  cases o with
  | replace start stop new => exact h.unlessRefused fun _ => h.replace
  | insert offset new => exact h.unlessRefused fun _ => h.replace
  | delete start stop => exact h.unlessRefused fun _ => h.replace
  | setText new => exact h.unlessRefused fun _ => h.edit
  | setCaret offset => exact h.unlessRefused fun _ => h.setCaret
  | select start stop => exact h.unlessRefused fun _ => h.select
  | setEditable value => exact h.congr rfl rfl rfl rfl
  | setCaretSensitive value => exact h.congr rfl rfl rfl rfl
  | setLanguage language => exact h.setLanguage language
  | setExtensions extensions => exact (h.requests _).requestStyles
  | addExtension c => exact (h.requests _).requestStyles
  | requestStyles => exact h.requestStyles
  | showStyles styles => exact h.showStyles styles

/-! ## What arrives -/

/-- Offsets told by another editor were checked against its text, so they are checked again. -/
theorem WellPlaced.followUpdate (h : e.WellPlaced) (update : Update) :
    (e.followUpdate update).WellPlaced := by
  cases update with
  | caret offset => exact h
  | selection selection =>
    cases selection with
    | none =>
      have hk := e.kept_placeSelection none
      have hf := h.toFitting.unselect
      refine ⟨hf, ?_⟩
      show (e.placeSelection none).caret ≤ (e.placeSelection none).length
      rw [hk.length_eq, e.caret_placeSelection none]
      exact h.caret_le
    | some r =>
      show WellPlaced (if r.stop ≤ e.length then e.selectRange r.start r.stop else e)
      split
      · rename_i hr
        exact h.selectRange hr
      · exact h
  | language language => exact h.setLanguage language

theorem WellPlaced.followCaret (h : e.WellPlaced) (offset : Nat) :
    (e.followCaret offset).WellPlaced := by
  unfold Editor.followCaret
  split
  · rename_i ho
    exact (h.toFitting.placeCaret ho).restyle _ _
  · exact h

/-- Styles are only shown where they cover the text. -/
theorem WellPlaced.showDelivery (h : e.WellPlaced) (d : Delivery) :
    (e.showDelivery d).2.WellPlaced := by
  unfold Editor.showDelivery
  split
  · exact h
  · rename_i hlen
    split
    · exact h
    · refine ⟨⟨h.selection_lt, ?_⟩, h.caret_le⟩
      show d.spans.length = e.length
      omega

theorem WellPlaced.handle (h : e.WellPlaced) (c : Completion) : (e.handle c).2.WellPlaced := by
  unfold Editor.handle
  split
  · exact h.requests _
  · exact h.requests _
  · exact (h.requests _).showDelivery _

theorem WellPlaced.step (h : e.WellPlaced) (s : Step) : (e.step s).WellPlaced := by
  cases s with
  | operation o => exact h.operate o
  | conclude number => exact h.requests _
  | arrive number => exact h.requests _
  | follow update => exact h.followUpdate update
  | followCaret offset => exact h.followCaret offset
  | receive =>
    show e.receiveNext.WellPlaced
    unfold receiveNext
    split
    · exact h
    · exact (h.requests _).handle _
  | mail inbox outbox => exact h.congr rfl rfl rfl rfl

theorem WellPlaced.run (h : e.WellPlaced) (steps : List Step) : (e.run steps).WellPlaced :=
  run_induction h (fun _ s h => h.step s) steps

end Highlight.Editor
