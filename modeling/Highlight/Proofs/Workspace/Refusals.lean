import Highlight.Editor.InPlace
import Highlight.Proofs.Editor.Edits
import Highlight.Proofs.Workspace.Mirrors

/-!
# Refused operations leave everything as it was

What an operation in place did before it is refused is not undone. But every operation looks at its
arguments first, so that in place it does the same as in one go, where nothing comes of a refusal
(`Editor.on_change`): each part of it changes the editor as it is known to, in the order of the parts.
When an operation is refused can be told from its arguments, the length of the text and whether the
user may edit (`Editor.Refuses`). Nothing that was told is delivered then.

* `Editor.Change.on_edit`, `Editor.Change.on_select`, …: the operations, made of their parts;
* `Editor.attempt_eq_error_iff`: when they are refused;
* `refused_leaves_all`: both, for any editor of a workspace and all that are linked with it.
-/

namespace Highlight

namespace Editor

variable {e : Editor} {o : Operation} {r : Refusal} {start stop offset : Nat} {new : String}

/-! ## Running changes -/

namespace Change

variable {α β : Type}

@[simp]
theorem on_pure (a : α) (e : Editor) : (pure a : Change α).on e = (.ok a, e) := rfl

@[simp]
theorem on_throw (r : Refusal) (e : Editor) : (throw r : Change α).on e = (.error r, e) := rfl

@[simp]
theorem on_get (e : Editor) : (get : Change Editor).on e = (.ok e, e) := rfl

@[simp]
theorem on_modify (f : Editor → Editor) (e : Editor) :
    (modify f : Change Unit).on e = (.ok (), f e) := rfl

/-- After a refusal nothing more is done, and nothing is undone. -/
@[simp]
theorem on_bind (c : Change α) (f : α → Change β) (e : Editor) :
    (c >>= f).on e = match c.on e with
      | (.ok a, e') => (f a).on e'
      | (.error r, e') => (.error r, e') := by
  rcases h : c.on e with ⟨answer, e'⟩
  have hrun : c.run.run e = (answer, e') := h
  show (ExceptT.bind c f).run.run e = _
  simp only [ExceptT.bind, ExceptT.mk, ExceptT.run, StateT.run, bind, StateT.bind] at hrun ⊢
  rw [hrun]
  cases answer <;> rfl

@[simp]
theorem on_map (f : α → β) (c : Change α) (e : Editor) :
    (f <$> c).on e = ((c.on e).1.map f, (c.on e).2) := by
  rw [← bind_pure_comp, on_bind]
  rcases c.on e with ⟨_ | _, _⟩ <;> rfl

@[simp]
theorem on_ite (p : Prop) [Decidable p] (c d : Change α) (e : Editor) :
    (if p then c else d).on e = if p then c.on e else d.on e := apply_ite (·.on e) p c d

@[simp]
theorem on_announce (event : Event) (e : Editor) :
    (announce event).on e = (.ok (), e.announce event) := rfl

@[simp]
theorem on_passOn (update : Update) (e : Editor) :
    (passOn update).on e = (.ok (), e.passOn update) := rfl

/-! ## Parts of operations -/

@[simp]
theorem on_placeSelection (selection : Option TextRange) (e : Editor) :
    (placeSelection selection).on e = (.ok (), e.placeSelection selection) := by
  by_cases h : e.selection = selection <;> simp [placeSelection, Editor.placeSelection, h]

@[simp]
theorem on_placeCaret (offset : Nat) (e : Editor) :
    (placeCaret offset).on e = (.ok (e.caret != offset), e.placeCaret offset) := by
  by_cases h : e.caret = offset <;> simp [placeCaret, Editor.placeCaret, h, Except.map]

@[simp]
theorem on_restyle (textChanged caretMoved : Bool) (e : Editor) :
    (restyle textChanged caretMoved).on e = (.ok (), e.restyle textChanged caretMoved) := by
  simp only [restyle, Editor.restyle, on_bind, on_get, on_ite, on_modify, on_pure]
  split <;> rfl

/-- The text that the styles follow is as long as they will be. -/
theorem on_spliceStyles (start stop : Nat) (new : String) {m : Editor} (hm : m.styles = e.styles)
    (hlength : m.length = e.length - (stop - start) + new.length) :
    (spliceStyles start stop new.length).on m =
      (.ok (), { m with styles := e.splicedStyles start stop new.length }) := by
  simp only [spliceStyles, splicedStyles, on_bind, on_get, hm, ← hlength]
  rcases e.styles.splice start stop new.length with _ | _ | _ <;> rfl

theorem on_changeText (new : String) (hle : start ≤ stop) (hstop : stop ≤ e.length) :
    (changeText start stop new).on e = (.ok (), e.changeText start stop new) := by
  have hlength : (e.replaced start stop new).length = e.length - (stop - start) + new.length := by
    rw [← length_changeText new hle hstop, changeText_eq, length]
  have hspliced := on_spliceStyles (e := e) start stop new
    (m := { e with text := e.replaced start stop new, version := e.version + 1 }) rfl hlength
  simp only [changeText, on_bind, on_modify, hspliced, on_get, on_placeSelection, on_announce]
  rw [(kept_placeSelection _ none).version_eq]
  rfl

/-! ## Operations -/

/-- The answer to an operation, and the editor then: as it was if the operation was refused. -/
def answered (e : Editor) (answer : Except Refusal Editor) : Except Refusal Unit × Editor :=
  (answer.map fun _ => (), e.unlessRefused answer)

theorem on_edit (start stop : Nat) (new : String) (e : Editor) :
    (edit start stop new).on e = answered e (e.edit start stop new) := by
  by_cases hr : start ≤ stop ∧ stop ≤ e.length
  · have hin : ¬(stop < start ∨ e.length < stop) := by omega
    have hchanged := on_changeText new hr.1 hr.2
    cases hch : e.changes start stop new <;>
      simp [edit, Editor.edit, hin, hr, hch, hchanged, answered, Except.map, unlessRefused]
  · have hout : stop < start ∨ e.length < stop := by omega
    simp [edit, Editor.edit, hout, hr, answered, Except.map, unlessRefused]

theorem on_replace (start stop : Nat) (new : String) (e : Editor) :
    (replace start stop new).on e = answered e (e.replace start stop new) := by
  cases he : e.editable <;> simp [replace, Editor.replace, he, answered, Except.map,
    unlessRefused, on_edit]

theorem on_setCaret (offset : Nat) (e : Editor) :
    (setCaret offset).on e = answered e (e.setCaret offset) := by
  by_cases h : offset ≤ e.length
  · simp [setCaret, Editor.setCaret, Nat.not_lt.2 h, h, answered, Except.map, unlessRefused]
  · simp [setCaret, Editor.setCaret, Nat.not_le.1 h, h, answered, Except.map, unlessRefused]

theorem on_select (start stop : Nat) (e : Editor) :
    (select start stop).on e = answered e (e.select start stop) := by
  by_cases hr : start ≤ stop ∧ stop ≤ e.length
  · have hin : ¬(stop < start ∨ e.length < stop) := by omega
    simp [select, selectRange, Editor.select, Editor.selectRange, hin, hr, answered, Except.map,
      unlessRefused]
  · have hout : stop < start ∨ e.length < stop := by omega
    simp [select, Editor.select, hout, hr, answered, Except.map, unlessRefused]

theorem on_showStyles (styles : Spans) (e : Editor) :
    (showStyles styles).on e = (.ok (e.showStyles styles).1, (e.showStyles styles).2) := by
  by_cases h : styles.length = e.length <;> simp [showStyles, Editor.showStyles, h, Except.map]

end Change

/-- An operation, in place. -/
def change : Operation → Change Unit
  | .replace start stop new => .replace start stop new
  | .insert offset new => .insert offset new
  | .delete start stop => .delete start stop
  | .setText new => .setText new
  | .setCaret offset => .setCaret offset
  | .select start stop => .select start stop
  | .showStyles styles => do let _ ← Change.showStyles styles
  | o => modify fun e => e.operate o

/-- In place, an operation does the same, and nothing at all if it is refused. -/
theorem on_change (o : Operation) (e : Editor) :
    (change o).on e = ((e.attempt o).map fun _ => (), e.operate o) := by
  rw [operate_eq]
  cases o with
  | replace start stop new => exact Change.on_replace start stop new e
  | insert offset new => exact Change.on_replace offset offset new e
  | delete start stop => exact Change.on_replace start stop "" e
  | setText new => exact Change.on_edit 0 e.length new e
  | setCaret offset => exact Change.on_setCaret offset e
  | select start stop => exact Change.on_select start stop e
  | showStyles styles =>
    rw [change, Change.on_bind, Change.on_showStyles]
    rfl
  | _ => rfl

/-! ## What is refused -/

/-- An edit of a range by the user is refused if the user may not edit, and otherwise if the range is
reversed or reaches past the end. -/
inductive RefusesEdit (e : Editor) (start stop : Nat) : Refusal → Prop where
  | readOnly (he : e.editable = false) : RefusesEdit e start stop .readOnly
  | invalidRange (he : e.editable = true) (hr : stop < start ∨ e.length < stop) :
      RefusesEdit e start stop (.invalidRange start stop e.length)

/-- The operation is refused. -/
inductive Refuses (e : Editor) : Operation → Refusal → Prop where
  | replace {start stop : Nat} {new : String} {r : Refusal} (h : e.RefusesEdit start stop r) :
      Refuses e (.replace start stop new) r
  | insert {offset : Nat} {new : String} {r : Refusal} (h : e.RefusesEdit offset offset r) :
      Refuses e (.insert offset new) r
  | delete {start stop : Nat} {r : Refusal} (h : e.RefusesEdit start stop r) :
      Refuses e (.delete start stop) r
  | setCaret {offset : Nat} (h : e.length < offset) :
      Refuses e (.setCaret offset) (.offsetOutOfRange offset e.length)
  | select {start stop : Nat} (hr : stop < start ∨ e.length < stop) :
      Refuses e (.select start stop) (.invalidRange start stop e.length)

/-- A check with two outcomes. -/
theorem ite_eq_error_iff {p : Prop} [Decidable p] {changed : Editor} {reason : Refusal} :
    (if p then .ok changed else .error reason : Except Refusal Editor) = .error r ↔
      ¬p ∧ r = reason := by
  split
  · next hp => exact ⟨nofun, fun h => absurd hp h.1⟩
  · next hp => exact ⟨fun h => ⟨hp, (Except.error.inj h).symm⟩, fun h => by rw [h.2]⟩

theorem invalid_iff {length : Nat} :
    ¬(start ≤ stop ∧ stop ≤ length) ↔ stop < start ∨ length < stop := by omega

theorem edit_eq_error_iff :
    e.edit start stop new = .error r ↔
      (stop < start ∨ e.length < stop) ∧ r = .invalidRange start stop e.length :=
  ite_eq_error_iff.trans (and_congr_left' invalid_iff)

theorem replace_eq_error_iff :
    e.replace start stop new = .error r ↔ e.RefusesEdit start stop r := by
  cases he : e.editable with
  | true =>
    rw [replace, if_pos he, edit_eq_error_iff]
    constructor
    · rintro ⟨hr, rfl⟩
      exact .invalidRange he hr
    · rintro (hread | ⟨-, hr⟩)
      · cases he.symm.trans hread
      · exact ⟨hr, rfl⟩
  | false =>
    rw [replace, if_neg (by simp [he])]
    constructor
    · rintro ⟨⟩
      exact .readOnly he
    · rintro (- | ⟨hedit, -⟩)
      · rfl
      · cases he.symm.trans hedit

theorem setCaret_eq_error_iff :
    e.setCaret offset = .error r ↔ e.length < offset ∧ r = .offsetOutOfRange offset e.length :=
  ite_eq_error_iff.trans (and_congr_left' Nat.not_le)

theorem select_eq_error_iff :
    e.select start stop = .error r ↔
      (stop < start ∨ e.length < stop) ∧ r = .invalidRange start stop e.length :=
  ite_eq_error_iff.trans (and_congr_left' invalid_iff)

/-- Refused is what is said to be; that the whole text is replaced is never refused. -/
theorem attempt_eq_error_iff : e.attempt o = .error r ↔ e.Refuses o r := by
  constructor
  · intro h
    cases o with
    | replace start stop new => exact .replace (replace_eq_error_iff.1 h)
    | insert offset new => exact .insert (replace_eq_error_iff.1 h)
    | delete start stop => exact .delete (replace_eq_error_iff.1 h)
    | setText new =>
      -- The range of the whole text is never invalid.
      obtain ⟨hr, -⟩ := edit_eq_error_iff.1 h
      omega
    | setCaret offset =>
      obtain ⟨hout, rfl⟩ := setCaret_eq_error_iff.1 h
      exact .setCaret hout
    | select start stop =>
      obtain ⟨hr, rfl⟩ := select_eq_error_iff.1 h
      exact .select hr
    | _ => cases h
  · intro h
    cases h with
    | replace h => exact replace_eq_error_iff.2 h
    | insert h => exact replace_eq_error_iff.2 h
    | delete h => exact replace_eq_error_iff.2 h
    | setCaret h => exact setCaret_eq_error_iff.2 ⟨h, rfl⟩
    | select hr => exact select_eq_error_iff.2 ⟨hr, rfl⟩

/-- Styles are dropped for no other reason. -/
theorem showStyles_eq_dropped_iff {styles : Spans} {reason : DropReason} :
    (e.showStyles styles).1 = .dropped reason ↔
      styles.length ≠ e.length ∧ reason = .lengthMismatch e.length styles.length := by
  unfold showStyles
  split
  · next h => exact ⟨nofun, fun hne => absurd h hne.1⟩
  · next h => exact ⟨fun heq => ⟨h, (ShowOutcome.dropped.inj heq).symm⟩, fun heq => by rw [heq.2]⟩

theorem showStyles_of_ne {styles : Spans} (h : styles.length ≠ e.length) :
    e.showStyles styles = (.dropped (.lengthMismatch e.length styles.length), e) := if_neg h

end Editor

namespace Workspace

variable {w : Workspace} {name : String} {e : Editor}

/-- All members are the same after an editor was replaced by itself. -/
theorem member?_modifyEditor_of_eq {f : Editor → Editor} (he : w.editor? name = some e)
    (hf : f e = e) (k : String) : (w.modifyEditor name f).member? k = w.member? k := by
  rw [modifyEditor, member?_modify w name (fun m => { m with editor := f m.editor }) fun _ => rfl]
  cases hm : w.member? k with
  | none => rfl
  | some m =>
    rw [Option.map_some]
    split
    · next hk =>
      obtain rfl : m.editor = e := by simpa [editor?, ← hk, hm] using he
      rw [hf]
    · rfl

/-- Where nothing is told, nothing is delivered. -/
theorem member?_deliverFrom_of_nil (he : w.editor? name = some e) (hout : e.outbox = [])
    (k : String) : (w.deliverFrom name).member? k = w.member? k := by
  obtain ⟨m, hm, rfl⟩ := Option.map_eq_some_iff.1 he
  simp only [deliverFrom, hm, hout, List.foldl_nil]
  refine member?_modifyEditor_of_eq he ?_ k
  rw [← hout]

/-- A call is an action of the editor that it is made on. -/
theorem act_eq_perform {α : Type} {f : Editor → α × Editor} {answer : α} {a : Editor.Action}
    (he : w.editor? name = some e) (hf : f e = (answer, e.act a)) :
    w.act name f = some (answer, w.perform (.act name a)) := by
  simp only [perform, act, he, Option.map_some, hf]

/-- What leaves an editor as it is leaves all members as they are, once all is delivered. -/
theorem member?_perform_of_eq (hw : w.Delivered) (he : w.editor? name = some e)
    {a : Editor.Action} (ha : e.act a = e) (k : String) :
    (w.perform (.act name a)).member? k = w.member? k := by
  have hsame := member?_modifyEditor_of_eq (f := fun _ => e) he rfl
  have he' : (w.modifyEditor name fun _ => e).editor? name = some e := by
    rw [editor?, hsame, ← he, editor?]
  simp only [perform, act, he, Option.map_some, ha]
  rw [member?_deliverFrom_of_nil he' (hw name e he), hsame]

/-- Operations are made in place and part by part, and what was done before a refusal stays done. An
operation on any open editor is refused exactly if the user may not edit, a range is reversed or
reaches past the end, or an offset is past the end, and styles are dropped exactly if they are not as
long as the text. Then all members of the workspace are as they were, the editor among them with all
that it has told and requested, and the inboxes of those that follow it. -/
theorem refused_leaves_all (openings : List Opening) (actions : List Action) {name : String}
    {e : Editor} (he : ((opened openings).run actions).editor? name = some e) :
    let w := (opened openings).run actions
    (∀ o, ∃ answer w', w.act name (Editor.change o).on = some (answer, w') ∧
      w' = w.perform (.act name (.operation o)) ∧
      (∀ r, answer = .error r ↔ e.Refuses o r) ∧
      (∀ r, e.Refuses o r → ∀ k, w'.member? k = w.member? k)) ∧
    (∀ styles, ∃ outcome w',
      w.act name (Editor.Change.showStyles styles).on = some (.ok outcome, w') ∧
      w' = w.perform (.act name (.operation (.showStyles styles))) ∧
      (∀ reason, outcome = .dropped reason ↔
        styles.length ≠ e.length ∧ reason = .lengthMismatch e.length styles.length) ∧
      (styles.length ≠ e.length → ∀ k, w'.member? k = w.member? k)) := by
  intro w
  have hw : w.Delivered := (delivered_opened openings).run actions
  refine ⟨fun o => ?_, fun styles => ?_⟩
  · have hanswer : ∀ r, (e.attempt o).map (fun _ => ()) = .error r ↔ e.Refuses o r := fun r => by
      rw [← Editor.attempt_eq_error_iff]
      cases e.attempt o <;> simp [Except.map]
    refine ⟨_, _, act_eq_perform he (Editor.on_change o e), rfl, hanswer, fun r hr => ?_⟩
    refine member?_perform_of_eq hw he ?_
    rw [Editor.act, Editor.operate_eq, Editor.attempt_eq_error_iff.2 hr, Editor.unlessRefused]
  · refine ⟨_, _, act_eq_perform he (Editor.Change.on_showStyles styles e), rfl,
      fun reason => Editor.showStyles_eq_dropped_iff,
      fun hne => member?_perform_of_eq hw he ?_⟩
    rw [Editor.act, Editor.operate, Editor.showStyles_of_ne hne]

/-- An edit of a follower that has updates in its inbox, and a reversed range and styles that are too
long for the editor that it follows. -/
theorem refused_leaves_all_linked :
    let openings : List Opening :=
      [⟨"notes", "ab", .plainText, .standard⟩, ⟨"mirror", "ab", .plainText, .standard⟩]
    let actions : List Action := [.link "notes" "mirror", .act "notes" (.operation (.select 0 2))]
    let w := (opened openings).run actions
    (w.editor? "mirror").map (·.inbox.length) = some 2 ∧
      (∃ w', w.act "mirror" (Editor.change (.insert 3 "c")).on = some (.error .readOnly, w') ∧
        ∀ k, w'.member? k = w.member? k) ∧
      (∃ w', w.act "notes" (Editor.change (.delete 2 1)).on =
        some (.error (.invalidRange 2 1 2), w') ∧ ∀ k, w'.member? k = w.member? k) ∧
      ∃ w', w.act "notes" (Editor.Change.showStyles (.plain 3)).on =
        some (.ok (.dropped (.lengthMismatch 2 3)), w') ∧ ∀ k, w'.member? k = w.member? k := by
  intro openings actions w
  have hmirror : (w.editor? "mirror").map (·.editable) = some false := by decide +kernel
  have hnotes : (w.editor? "notes").map (fun e => (e.editable, e.length)) = some (true, 2) := by
    decide +kernel
  obtain ⟨m, hm, hreadOnly⟩ := Option.map_eq_some_iff.1 hmirror
  obtain ⟨e, he, hstate⟩ := Option.map_eq_some_iff.1 hnotes
  obtain ⟨hedit, hlength⟩ := Prod.mk.inj hstate
  obtain ⟨hmirrorOps, -⟩ := refused_leaves_all openings actions hm
  obtain ⟨hnotesOps, hnotesShows⟩ := refused_leaves_all openings actions he
  refine ⟨by decide +kernel, ?_, ?_, ?_⟩
  · obtain ⟨answer, w', hact, -, hrefused, hsame⟩ := hmirrorOps (.insert 3 "c")
    have hr : m.Refuses (.insert 3 "c") .readOnly := .insert (.readOnly hreadOnly)
    obtain rfl := (hrefused _).2 hr
    exact ⟨w', hact, hsame _ hr⟩
  · obtain ⟨answer, w', hact, -, hrefused, hsame⟩ := hnotesOps (.delete 2 1)
    have hr : e.Refuses (.delete 2 1) (.invalidRange 2 1 e.length) :=
      .delete (.invalidRange hedit (.inl Nat.one_lt_two))
    rw [hlength] at hr
    obtain rfl := (hrefused _).2 hr
    exact ⟨w', hact, hsame _ hr⟩
  · obtain ⟨outcome, w', hact, -, hdropped, hsame⟩ := hnotesShows (.plain 3)
    have hne : (Spans.plain 3).length ≠ e.length := by
      rw [hlength, Spans.length_plain]
      decide
    obtain rfl := (hdropped (.lengthMismatch 2 3)).2 ⟨hne, by rw [hlength, Spans.length_plain]⟩
    exact ⟨w', hact, hsame hne⟩

end Workspace

end Highlight
