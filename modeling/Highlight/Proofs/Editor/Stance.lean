import Highlight.Proofs.Editor.Outcome

/-!
# What followers are told

An editor tells its followers where its user is: the caret, the selection and the language, its
stance. Whatever changes the stance, what is told meanwhile leads from the stance before to the one
after (`Stance.Moves`): a range that is selected always has the caret at its end, either because the
caret is told next or because it was there. A follower reads all selections and languages first and
only then the last place of the caret. This comes to the same, as far as the follower's text reaches
(`Stance.Mirrors.followAll`).

* `Stance.follow`, `Stance.followAll`: what updates do to the stance of the editor that reads them;
* `moved_followInbox`: an editor that reads its inbox does that to its stance, and nothing to its text;
* `tells_act`: whatever an editor does, it tells where it moves.
-/

namespace Highlight

/-- Where the user of an editor is, and in which language. -/
structure Stance where
  caret : Nat
  selection : Option TextRange
  language : Language

namespace Stance

/-- The stance after an update that is not a move of the caret, in a text of `length` characters. -/
def follow (length : Nat) (s : Stance) : Update → Stance
  | .caret _ => s
  | .selection none => { s with selection := none }
  | .selection (some r) =>
    if r.stop ≤ length then
      { s with
        caret := r.stop
        selection := if r.start < r.stop then some r else none }
    else s
  | .language language => { s with language := language }

/-- The stance after a move of the caret. -/
def followCaret (length : Nat) (s : Stance) (offset : Nat) : Stance :=
  if offset ≤ length then { s with caret := offset } else s

/-- The stance after some updates that were read together. -/
def followAll (length : Nat) (s : Stance) (updates : List Update) : Stance :=
  let followed := updates.foldl (follow length) s
  match Editor.lastCaret? updates with
  | some offset => followed.followCaret length offset
  | none => followed

/-- What is told on the way from one stance to another. -/
inductive Moves (b : Stance) : List Update → Stance → Prop where
  | nil : Moves b [] b
  | caret {us : List Update} {s : Stance} (h : Moves b us s) (offset : Nat) :
      Moves b (us ++ [.caret offset]) { s with caret := offset }
  | unselect {us : List Update} {s : Stance} (h : Moves b us s) :
      Moves b (us ++ [.selection none]) { s with selection := none }
  /-- A range is selected at whose end the caret is already. -/
  | select {us : List Update} {s : Stance} (h : Moves b us s) {r : TextRange}
      (hlt : r.start < r.stop) (hcaret : s.caret = r.stop) :
      Moves b (us ++ [.selection (some r)]) { s with selection := some r }
  | selectAt {us : List Update} {s : Stance} (h : Moves b us s) {r : TextRange}
      (hlt : r.start < r.stop) :
      Moves b (us ++ [.selection (some r), .caret r.stop])
        { s with selection := some r, caret := r.stop }
  | language {us : List Update} {s : Stance} (h : Moves b us s) (language : Language) :
      Moves b (us ++ [.language language]) { s with language := language }

/-- `m` is where `s` is, as far as that is within the first `length` characters. -/
structure Mirrors (length : Nat) (m s : Stance) : Prop where
  language_eq : m.language = s.language
  caret_eq : s.caret ≤ length → m.caret = s.caret
  selection_eq : (∀ r, s.selection = some r → r.stop ≤ length) → m.selection = s.selection

/-- `m` is where `s` is, as far as that is within the first `length` characters, once the caret has
been moved to `last`. -/
structure Awaits (length : Nat) (m s : Stance) (last : Option Nat) : Prop where
  language_eq : m.language = s.language
  last_eq : ∀ offset, last = some offset → offset = s.caret
  caret_eq : last = none → s.caret ≤ length → m.caret = s.caret
  selection_eq : (∀ r, s.selection = some r → r.stop ≤ length) → m.selection = s.selection

variable {length : Nat} {b m s s' : Stance} {us vs : List Update}

theorem Moves.trans (h : Moves b us s) (h' : Moves s vs s') : Moves b (us ++ vs) s' := by
  induction h' with
  | nil =>
    rw [List.append_nil]
    exact h
  | caret h' offset ih =>
    rw [← List.append_assoc]
    exact ih.caret offset
  | unselect h' ih =>
    rw [← List.append_assoc]
    exact ih.unselect
  | select h' hlt hcaret ih =>
    rw [← List.append_assoc]
    exact ih.select hlt hcaret
  | selectAt h' hlt ih =>
    rw [← List.append_assoc]
    exact ih.selectAt hlt
  | language h' language ih =>
    rw [← List.append_assoc]
    exact ih.language language

theorem Mirrors.refl (length : Nat) (s : Stance) : Mirrors length s s :=
  ⟨rfl, fun _ => rfl, fun _ => rfl⟩

/-! ## Reading updates -/

theorem lastCaret?_concat (us : List Update) (update : Update) :
    Editor.lastCaret? (us ++ [update]) =
      match update with
      | .caret offset => some offset
      | _ => Editor.lastCaret? us := by
  rw [Editor.lastCaret?, List.foldl_append]
  cases update <;> rfl

/-- A selected range, which the caret is at the end of or still to be moved to. -/
theorem Awaits.select {last : Option Nat} (h : Awaits length m s last) {r : TextRange}
    (hlt : r.start < r.stop) {last' : Option Nat}
    (hlast : ∀ offset, last' = some offset → offset = r.stop) :
    Awaits length (m.follow length (.selection (some r)))
      { s with selection := some r, caret := r.stop } last' := by
  by_cases hr : r.stop ≤ length
  · rw [follow, if_pos hr, if_pos hlt]
    exact ⟨h.language_eq, hlast, fun _ _ => rfl, fun _ => rfl⟩
  · rw [follow, if_neg hr]
    refine ⟨h.language_eq, hlast, fun _ hle => absurd hle hr, fun hall => absurd (hall r rfl) hr⟩

/-- What was told on the way from `b` to `s` leads a follower of `b` to one of `s`, once it also
moves the caret. -/
theorem Moves.awaits (h : Moves b us s) (hm : Mirrors length m b) :
    Awaits length (us.foldl (follow length) m) s (Editor.lastCaret? us) := by
  induction h with
  | nil => exact ⟨hm.language_eq, nofun, fun _ => hm.caret_eq, hm.selection_eq⟩
  | caret h offset ih =>
    rw [List.foldl_append, lastCaret?_concat]
    exact ⟨ih.language_eq, fun _ ho => (Option.some.inj ho).symm, nofun, ih.selection_eq⟩
  | unselect h ih =>
    rw [List.foldl_append, lastCaret?_concat]
    exact ⟨ih.language_eq, ih.last_eq, ih.caret_eq, fun _ => rfl⟩
  | select h hlt hcaret ih =>
    rw [List.foldl_append, lastCaret?_concat]
    have hselect := ih.select hlt fun offset ho => (ih.last_eq offset ho).trans hcaret
    rw [← hcaret] at hselect
    exact hselect
  | selectAt h hlt ih =>
    rw [List.foldl_append, List.append_cons, lastCaret?_concat]
    exact ih.select hlt fun _ ho => (Option.some.inj ho).symm
  | language h language ih =>
    rw [List.foldl_append, lastCaret?_concat]
    exact ⟨rfl, ih.last_eq, ih.caret_eq, ih.selection_eq⟩

/-- A follower that reads all it was told is where the editor that it follows is. -/
theorem Mirrors.followAll (hm : Mirrors length m b) (h : Moves b us s) :
    Mirrors length (m.followAll length us) s := by
  have ha := h.awaits hm
  rw [Stance.followAll]
  cases hlast : Editor.lastCaret? us with
  | none => exact ⟨ha.language_eq, ha.caret_eq hlast, ha.selection_eq⟩
  | some offset =>
    have hoffset := ha.last_eq offset hlast
    simp only [followCaret]
    split
    · exact ⟨ha.language_eq, fun _ => hoffset, ha.selection_eq⟩
    · rename_i hout
      refine ⟨ha.language_eq, fun hle => absurd (hoffset ▸ hle) hout, ha.selection_eq⟩

end Stance

namespace Editor

/-- Where the user of the editor is. -/
def stance (e : Editor) : Stance := ⟨e.caret, e.selection, e.language⟩

/-- What was told on the way from `e` to `e'` leads from where `e` is to where `e'` is. -/
def Tells (e e' : Editor) : Prop :=
  ∃ us, e'.outbox = e.outbox ++ us ∧ e.stance.Moves us e'.stance

/-- On the way from `e` to `e'` only the stance changed, to `s`, apart from styles; this was told. -/
structure Moved (e e' : Editor) (s : Stance) : Prop where
  text_eq : e'.text = e.text
  inbox_eq : e'.inbox = e.inbox
  stance_eq : e'.stance = s
  tells : e.Tells e'

variable {e e' m : Editor} {s s' : Stance}

theorem Tells.refl (e : Editor) : e.Tells e := ⟨[], (List.append_nil _).symm, .nil⟩

theorem Tells.trans (h : e.Tells m) (h' : m.Tells e') : e.Tells e' := by
  obtain ⟨first, hfirst, hmoves⟩ := h
  obtain ⟨second, hsecond, hmoves'⟩ := h'
  refine ⟨first ++ second, ?_, hmoves.trans hmoves'⟩
  rw [hsecond, hfirst, List.append_assoc]

theorem tells_of_eq (houtbox : e'.outbox = e.outbox) (hstance : e'.stance = e.stance) :
    e.Tells e' := by
  refine ⟨[], by rw [houtbox, List.append_nil], ?_⟩
  rw [hstance]
  exact .nil

theorem Moved.refl (e : Editor) : e.Moved e e.stance := ⟨rfl, rfl, rfl, .refl e⟩

theorem Moved.trans (h : e.Moved m s) (h' : m.Moved e' s') : e.Moved e' s' :=
  ⟨h'.text_eq.trans h.text_eq, h'.inbox_eq.trans h.inbox_eq, h'.stance_eq, h.tells.trans h'.tells⟩

/-- Staying there afterwards. -/
theorem Moved.still (h : e.Moved m s) (h' : m.Moved e' m.stance) : e.Moved e' s :=
  ⟨h'.text_eq.trans h.text_eq, h'.inbox_eq.trans h.inbox_eq, h'.stance_eq.trans h.stance_eq,
    h.tells.trans h'.tells⟩

theorem moved_of_eq (htext : e'.text = e.text) (hinbox : e'.inbox = e.inbox)
    (hstance : e'.stance = e.stance) (houtbox : e'.outbox = e.outbox) : e.Moved e' e.stance :=
  ⟨htext, hinbox, hstance, tells_of_eq houtbox hstance⟩

theorem Moved.length_eq (h : e.Moved e' s) : e'.length = e.length :=
  congrArg String.length h.text_eq

/-! ## Parts of operations -/

theorem moved_requestStyles (e : Editor) : e.Moved e.requestStyles e.stance := by
  rcases e.requestStyles_cases with ⟨-, he⟩ | ⟨-, -, he⟩ | ⟨-, he⟩ <;>
  · rw [he]
    exact moved_of_eq rfl rfl rfl rfl

theorem moved_restyle (e : Editor) (textChanged caretMoved : Bool) :
    e.Moved (e.restyle textChanged caretMoved) e.stance := by
  unfold restyle
  split
  · exact e.moved_requestStyles
  · exact .refl e

theorem moved_placeCaret (e : Editor) (offset : Nat) :
    e.Moved (e.placeCaret offset) { e.stance with caret := offset } := by
  unfold placeCaret
  split
  · rename_i h
    rw [← h]
    exact .refl e
  · exact ⟨rfl, rfl, rfl, _, rfl, .caret .nil offset⟩

theorem moved_unselect (e : Editor) :
    e.Moved (e.placeSelection none) { e.stance with selection := none } := by
  unfold placeSelection
  split
  · rename_i h
    rw [← h]
    exact .refl e
  · exact ⟨rfl, rfl, rfl, _, rfl, .unselect .nil⟩

/-- A range is selected and the caret put at its end, unless both are so already. -/
theorem moved_selectAt (e : Editor) {r : TextRange} (hlt : r.start < r.stop) :
    e.Moved ((e.placeSelection (some r)).placeCaret r.stop)
      { e.stance with selection := some r, caret := r.stop } := by
  by_cases hsel : e.selection = some r
  · rw [placeSelection, if_pos hsel, ← hsel]
    exact e.moved_placeCaret r.stop
  · rw [placeSelection, if_neg hsel, placeCaret]
    split
    · rename_i hcaret
      replace hcaret : e.caret = r.stop := hcaret
      rw [← hcaret]
      exact ⟨rfl, rfl, rfl, _, rfl, .select .nil hlt hcaret⟩
    · exact ⟨rfl, rfl, rfl, _, List.append_assoc .., .selectAt .nil hlt⟩

theorem moved_selectRange (e : Editor) (start stop : Nat) :
    e.Moved (e.selectRange start stop)
      { e.stance with
        caret := stop
        selection := if start < stop then some ⟨start, stop⟩ else none } := by
  unfold selectRange
  refine .still ?_ (moved_restyle _ _ _)
  split
  · rename_i hlt
    exact e.moved_selectAt (r := ⟨start, stop⟩) hlt
  · have hcaret := (e.placeSelection none).moved_placeCaret stop
    rw [e.moved_unselect.stance_eq] at hcaret
    exact e.moved_unselect.trans hcaret

theorem moved_setLanguage (e : Editor) (language : Language) :
    e.Moved (e.setLanguage language) { e.stance with language := language } := by
  unfold setLanguage
  refine .still ?_ (moved_requestStyles _)
  exact ⟨rfl, rfl, rfl, _, rfl, .language .nil language⟩

/-! ## Operations -/

theorem tells_refused {x : Except Refusal Editor} (h : ∀ e', x = .ok e' → e.Tells e') :
    e.Tells (e.unlessRefused x) := by
  cases x with
  | ok e' => exact h e' rfl
  | error refusal => exact .refl e

/-- A change of the text tells that nothing is selected any more. -/
theorem tells_changeText (e : Editor) (start stop : Nat) (new : String) :
    e.Tells (e.changeText start stop new) := by
  let changed := { e with
    text := e.replaced start stop new
    version := e.version + 1
    styles := e.splicedStyles start stop new.length }
  have hchanged : e.Tells changed := tells_of_eq rfl rfl
  exact hchanged.trans (changed.moved_unselect.tells.trans (tells_of_eq rfl rfl))

theorem tells_edit {start stop : Nat} {new : String} (he : e.edit start stop new = .ok e') :
    e.Tells e' := by
  obtain ⟨-, rfl⟩ := edit_eq_ok_iff.1 he
  refine .trans (.trans ?_ (moved_placeCaret _ _).tells) (moved_restyle _ _ _).tells
  split
  · exact e.tells_changeText start stop new
  · exact .refl e

theorem tells_replace {start stop : Nat} {new : String} (he : e.replace start stop new = .ok e') :
    e.Tells e' :=
  tells_edit (replace_eq_ok_iff.1 he).2

theorem moved_showStyles (e : Editor) (styles : Spans) :
    e.Moved (e.showStyles styles).2 e.stance := by
  unfold showStyles
  split
  · exact moved_of_eq rfl rfl rfl rfl
  · exact .refl e

theorem tells_operate (e : Editor) (o : Operation) : e.Tells (e.operate o) := by
  cases o with
  | replace start stop new => exact tells_refused fun _ => tells_replace
  | insert offset new => exact tells_refused fun _ => tells_replace
  | delete start stop => exact tells_refused fun _ => tells_replace
  | setText new => exact tells_refused fun _ => tells_edit
  | setCaret offset =>
    refine tells_refused fun e' he => ?_
    obtain ⟨-, rfl⟩ := setCaret_eq_ok_iff.1 he
    exact (e.moved_selectRange offset offset).tells
  | select start stop =>
    refine tells_refused fun e' he => ?_
    obtain ⟨-, rfl⟩ := select_eq_ok_iff.1 he
    exact (e.moved_selectRange start stop).tells
  | setEditable value => exact tells_of_eq rfl rfl
  | setCaretSensitive value => exact tells_of_eq rfl rfl
  | setLanguage language => exact (e.moved_setLanguage language).tells
  | setExtensions extensions =>
    exact .trans (m := { e with requests := e.requests.setExtensions extensions })
      (tells_of_eq rfl rfl) (moved_requestStyles _).tells
  | addExtension c =>
    exact .trans (m := { e with requests := e.requests.addExtension c })
      (tells_of_eq rfl rfl) (moved_requestStyles _).tells
  | requestStyles => exact e.moved_requestStyles.tells
  | showStyles styles => exact (e.moved_showStyles styles).tells

/-! ## What arrives -/

theorem moved_followUpdate (e : Editor) (update : Update) :
    e.Moved (e.followUpdate update) (e.stance.follow e.length update) := by
  cases update with
  | caret offset => exact .refl e
  | selection selection =>
    cases selection with
    | none => exact e.moved_unselect
    | some r =>
      simp only [followUpdate, Stance.follow]
      split
      · exact e.moved_selectRange r.start r.stop
      · exact .refl e
  | language language => exact e.moved_setLanguage language

theorem moved_followUpdates (e : Editor) (updates : List Update) :
    e.Moved (updates.foldl followUpdate e) (updates.foldl (Stance.follow e.length) e.stance) := by
  induction updates generalizing e with
  | nil => exact .refl e
  | cons update updates ih =>
    have hfirst := e.moved_followUpdate update
    have hrest := ih (e.followUpdate update)
    rw [hfirst.length_eq, hfirst.stance_eq] at hrest
    exact hfirst.trans hrest

theorem moved_followCaret (e : Editor) (offset : Nat) :
    e.Moved (e.followCaret offset) (e.stance.followCaret e.length offset) := by
  unfold followCaret Stance.followCaret
  split
  · exact (e.moved_placeCaret offset).still (moved_restyle _ _ _)
  · exact .refl e

/-- Reading the inbox does to the stance what all updates together do. -/
theorem moved_followInbox (e : Editor) :
    Moved { e with inbox := [] } e.followInbox (e.stance.followAll e.length e.inbox) := by
  have hfollowed := moved_followUpdates { e with inbox := [] } e.inbox
  unfold followInbox Stance.followAll
  cases lastCaret? e.inbox with
  | none => exact hfollowed
  | some offset =>
    have hcaret := moved_followCaret (e.inbox.foldl followUpdate { e with inbox := [] }) offset
    rw [hfollowed.length_eq, hfollowed.stance_eq] at hcaret
    exact hfollowed.trans hcaret

theorem moved_showDelivery (e : Editor) (d : Delivery) : e.Moved (e.showDelivery d).2 e.stance := by
  unfold showDelivery
  split
  · exact .refl e
  · split
    · exact .refl e
    · exact moved_of_eq rfl rfl rfl rfl

theorem moved_requests (e : Editor) (requests : Requests) :
    e.Moved { e with requests := requests } e.stance := moved_of_eq rfl rfl rfl rfl

theorem moved_handle (e : Editor) (c : Completion) : e.Moved (e.handle c).2 e.stance := by
  unfold handle
  split
  · exact e.moved_requests _
  · exact e.moved_requests _
  · exact (e.moved_requests _).still (moved_showDelivery _ _)

theorem moved_receiveFrom (e : Editor) (shown : Nat) (queue : List Completion) :
    e.Moved (e.receiveFrom shown queue).2 e.stance := by
  induction queue generalizing e shown with
  | nil => exact .refl e
  | cons c rest ih =>
    have hhandled : e.Moved ((e.leaving rest).handle c).2 e.stance :=
      (e.moved_requests _).still (moved_handle _ c)
    rw [receiveFrom]
    rcases hc : (e.leaving rest).handle c with ⟨answer, after⟩
    rw [hc] at hhandled
    cases answer with
    | error error => exact hhandled
    | ok more => exact hhandled.still (ih after (shown + more))

theorem moved_catchUp (e : Editor) :
    Moved { e with inbox := [] } e.catchUp.2 (e.stance.followAll e.length e.inbox) :=
  e.moved_followInbox.still (moved_receiveFrom _ _ _)

theorem moved_finish (e : Editor) : e.Moved e.finish e.stance := e.moved_requests _

theorem moved_awaitStyles (e : Editor) :
    Moved { e with inbox := [] } e.awaitStyles.2 (e.stance.followAll e.length e.inbox) := by
  have hcaught := e.moved_catchUp
  unfold awaitStyles
  split
  · rename_i h
    rwa [h] at hcaught
  · rename_i shown after h
    rw [h] at hcaught
    split
    · exact hcaught
    · exact (hcaught.still after.moved_finish).still (moved_receiveFrom _ _ _)

/-- An editor that is left alone keeps its text, and reads its inbox as a whole or not at all. -/
theorem read_act (e : Editor) {a : Action} (ha : ∀ o, a ≠ .operation o) :
    (e.act a).text = e.text ∧
      ((e.act a).inbox = e.inbox ∧ (e.act a).stance = e.stance ∨
        (e.act a).inbox = [] ∧ (e.act a).stance = e.stance.followAll e.length e.inbox) := by
  cases a with
  | operation o => exact absurd rfl (ha o)
  | conclude number => exact ⟨rfl, .inl ⟨rfl, rfl⟩⟩
  | arrive number => exact ⟨rfl, .inl ⟨rfl, rfl⟩⟩
  | catchUp =>
    exact ⟨e.moved_catchUp.text_eq, .inr ⟨e.moved_catchUp.inbox_eq, e.moved_catchUp.stance_eq⟩⟩
  | awaitStyles =>
    exact ⟨e.moved_awaitStyles.text_eq,
      .inr ⟨e.moved_awaitStyles.inbox_eq, e.moved_awaitStyles.stance_eq⟩⟩

/-- What `m` was told and has not read leads to `s`, from a place where `m` is as far as its text
reaches. -/
def Trails (m : Editor) (s : Stance) : Prop :=
  ∃ base : Stance, base.Moves m.inbox s ∧ m.stance.Mirrors m.length base

/-- With nothing left to read, `m` is there. -/
theorem Trails.mirrors (h : m.Trails s) (hinbox : m.inbox = []) : m.stance.Mirrors m.length s := by
  obtain ⟨base, hmoves, hmirrors⟩ := h
  rw [hinbox] at hmoves
  exact hmirrors.followAll hmoves

/-- Whether it reads what it was told or leaves it for later, it is on the same way. -/
theorem Trails.read (h : m.Trails s) {a : Action} (ha : ∀ o, a ≠ .operation o) :
    (m.act a).Trails s := by
  obtain ⟨base, hmoves, hmirrors⟩ := h
  obtain ⟨htext, ⟨hinbox, hstance⟩ | ⟨hinbox, hstance⟩⟩ := m.read_act ha
  · refine ⟨base, by rw [hinbox]; exact hmoves, ?_⟩
    rw [hstance, show (m.act a).length = m.length from congrArg String.length htext]
    exact hmirrors
  · refine ⟨s, by rw [hinbox]; exact .nil, ?_⟩
    rw [hstance, show (m.act a).length = m.length from congrArg String.length htext]
    exact hmirrors.followAll hmoves

/-- Whatever an editor does, it tells where it moves. -/
theorem tells_act (e : Editor) (a : Action) : e.Tells (e.act a) := by
  have hemptied : e.Tells { e with inbox := [] } := tells_of_eq rfl rfl
  cases a with
  | operation o => exact e.tells_operate o
  | conclude number => exact tells_of_eq rfl rfl
  | arrive number => exact tells_of_eq rfl rfl
  | catchUp => exact hemptied.trans e.moved_catchUp.tells
  | awaitStyles => exact hemptied.trans e.moved_awaitStyles.tells

end Editor

end Highlight
