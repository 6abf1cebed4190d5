import Highlight.Proofs.Editor.Placement

/-!
# What an edit does

An operation that is not refused replaces a range, selects one, adjusts a setting or what is shown,
or asks for styles (`Effect`).

An edit that is let through (`Admits`) replaces its range and puts the caret behind what it put
there. Whether the text changes is told from the range alone (`changes_iff`). Only if it does, there
is a new version, nothing is selected any more, the styles follow, and subscribers are told of a
change. In the end styles are asked for if the text changed, or if the caret moved and styles depend
on it, and nothing else touches the requests (`edit_replaces`).
-/

namespace Highlight.Editor

variable {e : Editor} {o : Operation} {start stop : Nat} {inserted : String}

/-! ## Operations with their answers -/

/-- The answer to an operation. An operation that is never refused answers with what it leads to. -/
def attempt (e : Editor) : Operation → Except Refusal Editor
  | .replace start stop new => e.replace start stop new
  | .insert offset new => e.insert offset new
  | .delete start stop => e.delete start stop
  | .setText new => e.setText new
  | .setCaret offset => e.setCaret offset
  | .select start stop => e.select start stop
  | o => .ok (e.operate o)

/-- The operations that ask for styles whatever is there already. -/
def Operation.asks : Operation → Bool
  | .setLanguage _ => true
  | .setExtensions _ => true
  | .addExtension _ => true
  | .requestStyles => true
  | _ => false

/-- What an operation that is not refused comes to. -/
inductive Effect (e : Editor) (o : Operation) : Editor → Prop where
  /-- A range is replaced. -/
  | edited {start stop : Nat} {inserted : String} {e' : Editor} (ho : o.asks = false)
      (h : e.edit start stop inserted = .ok e') : Effect e o e'
  /-- A range is selected, or an empty one, and the caret put at its end. -/
  | selected (start stop : Nat) (ho : o.asks = false) : Effect e o (e.selectRange start stop)
  /-- Only settings change, or what is shown. -/
  | adjusted (editable : Bool) (settings : Settings) (styles : Spans)
      (source : Option RequestNumber) (events : List Event) (ho : o.asks = false) :
      Effect e o { e with
        editable := editable
        settings := settings
        styles := styles
        source := source
        events := events }
  /-- Styles are asked for, after a language was told or nothing. -/
  | asked (m : Editor) (told : Option Language) (ho : o.asks = true) (hm : Prepared e m)
      (hout : m.outbox = e.outbox ++ told.toList.map .language) : Effect e o m.requestStyles

theorem operate_eq (e : Editor) (o : Operation) : e.operate o = e.unlessRefused (e.attempt o) := by
  cases o <;> rfl

theorem effect_of_attempt {e' : Editor} (h : e.attempt o = .ok e') : e.Effect o e' := by
  cases o with
  | replace start stop new => exact .edited rfl (replace_eq_ok_iff.1 h).2
  | insert offset new => exact .edited rfl (replace_eq_ok_iff.1 h).2
  | delete start stop => exact .edited rfl (replace_eq_ok_iff.1 h).2
  | setText new => exact .edited rfl h
  | setCaret offset =>
    obtain ⟨-, rfl⟩ := setCaret_eq_ok_iff.1 h
    exact .selected offset offset rfl
  | select start stop =>
    obtain ⟨-, rfl⟩ := select_eq_ok_iff.1 h
    exact .selected start stop rfl
  | setEditable value =>
    cases h
    exact .adjusted value e.settings e.styles e.source e.events rfl
  | setCaretSensitive value =>
    cases h
    exact .adjusted e.editable { e.settings with caretSensitive := value } e.styles e.source
      e.events rfl
  | setLanguage language =>
    cases h
    have hprepared : Prepared e
        (({ e with language := language }.announce (.languageChanged language.name)).passOn
          (.language language)) := ⟨rfl, rfl, rfl, rfl⟩
    exact .asked _ (some language) rfl hprepared rfl
  | setExtensions extensions =>
    cases h
    exact .asked { e with requests := e.requests.setExtensions extensions } none rfl
      ⟨rfl, rfl, rfl, rfl⟩ (List.append_nil _).symm
  | addExtension c =>
    cases h
    exact .asked { e with requests := e.requests.addExtension c } none rfl ⟨rfl, rfl, rfl, rfl⟩
      (List.append_nil _).symm
  | requestStyles =>
    cases h
    exact .asked e none rfl ⟨rfl, rfl, rfl, rfl⟩ (List.append_nil _).symm
  | showStyles styles =>
    cases h
    show e.Effect _ (e.showStyles styles).2
    unfold showStyles
    split
    · exact .adjusted e.editable e.settings styles none (.stylesShown none :: e.events) rfl
    · exact .adjusted e.editable e.settings e.styles e.source e.events rfl

/-- The operation is to put `new` in the place of the range from `start` to `stop`, and it is let
through: the range is one of the text, and the user may edit or the whole text is set. -/
inductive Admits (e : Editor) : Operation → Nat → Nat → String → Prop where
  | replace {start stop : Nat} {new : String} (he : e.editable) (hle : start ≤ stop)
      (hstop : stop ≤ e.length) : Admits e (.replace start stop new) start stop new
  | insert {offset : Nat} {new : String} (he : e.editable) (ho : offset ≤ e.length) :
      Admits e (.insert offset new) offset offset new
  | delete {start stop : Nat} (he : e.editable) (hle : start ≤ stop) (hstop : stop ≤ e.length) :
      Admits e (.delete start stop) start stop ""
  | setText (new : String) : Admits e (.setText new) 0 e.length new

theorem Admits.attempt_eq (h : e.Admits o start stop inserted) :
    e.attempt o = e.edit start stop inserted := by
  cases h with
  | replace he => exact if_pos he
  | insert he => exact if_pos he
  | delete he => exact if_pos he
  | setText => rfl

theorem Admits.within (h : e.Admits o start stop inserted) : start ≤ stop ∧ stop ≤ e.length := by
  cases h with
  | replace _ hle hstop => exact ⟨hle, hstop⟩
  | insert _ ho => exact ⟨Nat.le_refl _, ho⟩
  | delete _ hle hstop => exact ⟨hle, hstop⟩
  | setText => exact ⟨Nat.zero_le _, Nat.le_refl _⟩

/-- The operations that put text in the place of a range. -/
def Operation.edits : Operation → Bool
  | .replace .. => true
  | .insert .. => true
  | .delete .. => true
  | .setText _ => true
  | _ => false

/-- Such an operation is let through unless it is refused. -/
theorem exists_admits {e' : Editor} (h : e.attempt o = .ok e') (ho : o.edits = true) :
    ∃ start stop inserted, e.Admits o start stop inserted := by
  have hreplace {start stop : Nat} {new : String} (h : e.replace start stop new = .ok e') :
      e.editable = true ∧ start ≤ stop ∧ stop ≤ e.length := by
    obtain ⟨he, h⟩ := replace_eq_ok_iff.1 h
    exact ⟨he, (edit_eq_ok_iff.1 h).1⟩
  cases o with
  | replace start stop new =>
    obtain ⟨he, hle, hstop⟩ := hreplace h
    exact ⟨start, stop, new, .replace he hle hstop⟩
  | insert offset new =>
    obtain ⟨he, -, hoffset⟩ := hreplace h
    exact ⟨offset, offset, new, .insert he hoffset⟩
  | delete start stop =>
    obtain ⟨he, hle, hstop⟩ := hreplace h
    exact ⟨start, stop, "", .delete he hle hstop⟩
  | setText new => exact ⟨0, e.length, new, .setText new⟩
  | _ => cases ho

/-! ## What is told -/

/-- What subscribers are told when the caret is put somewhere. -/
def moveEvents (e : Editor) (target : Nat) : List Event :=
  if e.caret = target then [] else [.caretMoved target]

/-- What followers are told when the caret is put somewhere. -/
def moveUpdates (e : Editor) (target : Nat) : List Update :=
  if e.caret = target then [] else [.caret target]

/-- What subscribers are told when nothing is to be selected any more. -/
def unselectEvents (e : Editor) : List Event :=
  if e.selection = none then [] else [.selectionChanged none]

/-- What followers are told when nothing is to be selected any more. -/
def unselectUpdates (e : Editor) : List Update :=
  if e.selection = none then [] else [.selection none]

theorem placeCaret_eq (e : Editor) (target : Nat) :
    e.placeCaret target = { e with
      caret := target
      events := e.moveEvents target ++ e.events
      outbox := e.outbox ++ e.moveUpdates target } := by
  unfold placeCaret moveEvents moveUpdates
  split
  · rename_i h
    rw [← h, List.append_nil]
    rfl
  · rfl

theorem unselect_eq (e : Editor) :
    e.placeSelection none = { e with
      selection := none
      events := e.unselectEvents ++ e.events
      outbox := e.outbox ++ e.unselectUpdates } := by
  unfold placeSelection unselectEvents unselectUpdates
  split
  · rename_i h
    rw [← h, List.append_nil]
    rfl
  · rfl

/-! ## Edits -/

/-- Whether the text changes can be told from the range that is replaced. -/
theorem changes_iff (hle : start ≤ stop) :
    e.changes start stop inserted = true ↔ e.replaced start stop inserted ≠ e.text := by
  have hdrop : e.text.toList.drop stop = (e.text.toList.drop start).drop (stop - start) := by
    rw [List.drop_drop, Nat.add_sub_cancel' hle]
  have hsplit : e.text.toList = e.text.toList.take start ++
      (e.text.toList.drop start).take (stop - start) ++ e.text.toList.drop stop := by
    rw [hdrop, List.append_assoc, List.take_append_drop, List.take_append_drop]
  have hsame : e.replaced start stop inserted = e.text ↔
      inserted.toList = (e.text.toList.drop start).take (stop - start) := by
    constructor
    · intro h
      have hlist := (congrArg String.toList h).trans hsplit
      rwa [replaced, String.toList_ofList, List.append_left_inj, List.append_right_inj] at hlist
    · intro h
      rw [← String.toList_inj, replaced, String.toList_ofList, h]
      exact hsplit.symm
  rw [changes, bne_iff_ne, ne_eq, ne_eq, hsame, eq_comm]

/-- After a change of the text styles are asked for; otherwise it depends on the caret. -/
theorem restyle_placeCaret (m : Editor) (textChanged : Bool) (target : Nat) :
    (m.placeCaret target).restyle textChanged (m.caret != target) =
      if textChanged = true ∨ m.caret ≠ target ∧ m.settings.caretSensitive = true then
        (m.placeCaret target).requestStyles
      else m.placeCaret target := by
  rw [restyle, settings_placeCaret]
  simp only [Bool.or_eq_true, Bool.and_eq_true, bne_iff_ne]

/-- The text changes, and with it the version, the selection and the styles. -/
theorem changeText_eq (e : Editor) (start stop : Nat) (inserted : String) :
    e.changeText start stop inserted = { e with
      text := e.replaced start stop inserted
      selection := none
      version := e.version + 1
      styles := e.splicedStyles start stop inserted.length
      events := .textChanged start (stop - start) inserted.length (e.version + 1) ::
        (e.unselectEvents ++ e.events)
      outbox := e.outbox ++ e.unselectUpdates } := by
  simp only [changeText, unselect_eq]
  rfl

theorem edit_of_changes (hr : start ≤ stop ∧ stop ≤ e.length)
    (hne : e.replaced start stop inserted ≠ e.text) :
    e.edit start stop inserted = .ok
      ((e.changeText start stop inserted).placeCaret (start + inserted.length)).requestStyles := by
  have hch := (changes_iff hr.1).2 hne
  simp only [edit, hch, if_pos hr, if_true, restyle_placeCaret, true_or]

theorem edit_of_same (hr : start ≤ stop ∧ stop ≤ e.length)
    (hsame : e.replaced start stop inserted = e.text) :
    e.edit start stop inserted =
      .ok (if e.caret ≠ start + inserted.length ∧ e.settings.caretSensitive = true then
        (e.placeCaret (start + inserted.length)).requestStyles
      else e.placeCaret (start + inserted.length)) := by
  have hch : e.changes start stop inserted = false := by
    rw [← Bool.not_eq_true, changes_iff hr.1]
    exact not_not_intro hsame
  simp only [edit, hch, if_pos hr, restyle_placeCaret, Bool.false_eq_true, if_false, false_or]

/-- An edit that is let through leads to an editor `m` with the new text and the caret behind what
was put there, and then styles are asked for if the text changed, or the caret moved and styles
depend on it. If the text changed, so did the version, by one; subscribers are told of this one
change, after having been told that nothing is selected any more if something was; and the styles
were spliced as the text was, provided that the new text has a length that a text can have. If the
text is the same, only the caret may have moved. Nothing else changed up to `m`; asking for styles
changes nothing but the requests and what is shown. -/
theorem edit_replaces (text : String) (language : Language) (settings : Settings)
    (steps : List Step) {o : Operation} {start stop : Nat} {inserted : String}
    (h : ((new text language settings).run steps).Admits o start stop inserted) :
    let e := (new text language settings).run steps
    let result := String.ofList
      (e.text.toList.take start ++ inserted.toList ++ e.text.toList.drop stop)
    let target := start + inserted.length
    ∃ m : Editor,
      e.attempt o = .ok
        (if result ≠ e.text ∨ e.caret ≠ target ∧ e.settings.caretSensitive = true then
          m.requestStyles
        else m) ∧
      (result ≠ e.text →
        m = { e with
          text := result
          caret := target
          selection := none
          version := e.version + 1
          styles := m.styles
          events := e.moveEvents target ++
            .textChanged start (stop - start) inserted.length (e.version + 1) ::
              (e.unselectEvents ++ e.events)
          outbox := e.outbox ++ e.unselectUpdates ++ e.moveUpdates target } ∧
        (e.length - (stop - start) + inserted.length ≤ maxLength →
          e.styles.splice start stop inserted.length = .ok (.ok m.styles))) ∧
      (result = e.text →
        m = { e with
          caret := target
          events := e.moveEvents target ++ e.events
          outbox := e.outbox ++ e.moveUpdates target }) ∧
      ∃ news : List Event, news ⊆ [.stylesShown none] ∧
        m.requestStyles = { m with
          requests := m.requestStyles.requests
          styles := m.requestStyles.styles
          source := m.requestStyles.source
          events := news ++ m.events } := by
  intro e result target
  have hplaced : e.WellPlaced := (wellPlaced_new text language settings).run steps
  have hwithin : start ≤ stop ∧ stop ≤ e.length := h.within
  by_cases hresult : result = e.text
  · refine ⟨e.placeCaret target, ?_, fun hne => absurd hresult hne, fun _ => e.placeCaret_eq target,
      requestStyles_eq _⟩
    have hiff : (result ≠ e.text ∨ e.caret ≠ target ∧ e.settings.caretSensitive = true) ↔
        e.caret ≠ target ∧ e.settings.caretSensitive = true :=
      or_iff_right (not_not_intro hresult)
    rw [h.attempt_eq, edit_of_same hwithin hresult]
    simp only [hiff]
    rfl
  · refine ⟨(e.changeText start stop inserted).placeCaret target, ?_, fun _ => ⟨?_, fun hmax => ?_⟩,
      fun heq => absurd heq hresult, requestStyles_eq _⟩
    · rw [h.attempt_eq, edit_of_changes hwithin hresult, if_pos (.inl hresult)]
    · rw [placeCaret_eq, changeText_eq]
      rfl
    · have hstyles := (kept_placeCaret (e.changeText start stop inserted) target).styles_eq
      obtain ⟨styles, hs⟩ := hplaced.exists_splice hwithin.1 hwithin.2 hmax
      rw [hstyles, styles_changeText, splicedStyles, hs]

/-- A letter outside ASCII within the selection is replaced by another one: there are as many as
before, and the caret stays. -/
theorem edit_replaces_letter :
    let language := Language.ofPattern "x" (some ⟨"x", .text ['x'], []⟩) []
    let e := (new "naïve" language .standard).run [.operation (.select 0 3)]
    ∃ m : Editor, e.attempt (.replace 2 3 "i") = .ok m.requestStyles ∧ m.text = "naive" ∧
      m.caret = 3 ∧ m.selection = none ∧ m.version = 1 ∧ m.requests.lastNumber = 1 ∧
      m.events = [.textChanged 2 1 1 1, .selectionChanged none, .caretMoved 3,
        .selectionChanged (some ⟨0, 3⟩)] := by
  intro language e
  have hadmits : e.Admits (.replace 2 3 "i") 2 3 "i" :=
    .replace (by decide +kernel) (by decide) (by decide +kernel)
  obtain ⟨m, hattempt, hchanged, -⟩ :=
    edit_replaces "naïve" language .standard [.operation (.select 0 3)] hadmits
  have hne :
      String.ofList (e.text.toList.take 2 ++ "i".toList ++ e.text.toList.drop 3) ≠ e.text := by
    decide +kernel
  obtain ⟨hm, -⟩ := hchanged hne
  rw [if_pos (.inl hne)] at hattempt
  refine ⟨m, hattempt, ?_⟩
  rw [hm]
  dsimp only
  decide +kernel

end Highlight.Editor
