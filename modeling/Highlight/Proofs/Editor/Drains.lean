import Highlight.Proofs.Editor.Requesting
import Highlight.Proofs.Editor.Stance

/-!
# Requests made while updates are followed

An editor that follows another one reads all that waits in its inbox in one call. Moves of the caret
are read last and together, so they ask for styles once at most, but every range that was selected
and every language is followed by itself, and asks for styles by itself. How many requests a call
makes can be told from where the editor is (`Stance.countAsksAll`), and all but the last of them are
cancelled when it ends (`catchUp_issues`). There is one at most where the inbox holds what a single
operation has told (`Told`): a range that is selected takes the caret with it, and then the caret is
already where it is said to be.
-/

namespace Highlight

/-- The updates that can ask for styles by themselves. -/
def Update.mayAsk : Update → Bool
  | .caret _ => false
  | .selection none => false
  | .selection (some _) => true
  | .language _ => true

/-! ## Counting requests -/

namespace Stance

section

variable (length : Nat) (sensitive : Bool)

/-- Whether a caret that is put at `offset`, in a text of `length` characters, asks for styles. -/
def asksAt (s : Stance) (offset : Nat) : Bool :=
  offset ≤ length && offset != s.caret && sensitive && s.language.pattern.isSome

/-- Whether an update that is not a move of the caret asks for styles. -/
def asks (s : Stance) : Update → Bool
  | .caret _ => false
  | .selection none => false
  | .selection (some r) => s.asksAt length sensitive r.stop
  | .language language => language.pattern.isSome

/-- How often updates that are followed one after the other ask for styles. -/
def countAsks (s : Stance) : List Update → Nat
  | [] => 0
  | update :: updates =>
    (s.asks length sensitive update).toNat + (s.follow length update).countAsks updates

/-- How often updates ask for styles that are read together, the caret last. -/
def countAsksAll (s : Stance) (updates : List Update) : Nat :=
  s.countAsks length sensitive updates +
    match Editor.lastCaret? updates with
    | some offset => ((updates.foldl (follow length) s).asksAt length sensitive offset).toNat
    | none => 0

end

variable {length : Nat} {sensitive : Bool}

theorem toNat_asks_le (s : Stance) (update : Update) :
    (s.asks length sensitive update).toNat ≤ update.mayAsk.toNat := by
  cases update with
  | caret offset => exact Nat.le_refl _
  | selection selection =>
    cases selection with
    | none => exact Nat.le_refl _
    | some r => exact Bool.toNat_le _
  | language language => exact Bool.toNat_le _

theorem countAsks_le (s : Stance) (updates : List Update) :
    s.countAsks length sensitive updates ≤ updates.countP Update.mayAsk := by
  induction updates generalizing s with
  | nil => exact Nat.le_refl _
  | cons update updates ih =>
    have hcount : (update :: updates).countP Update.mayAsk =
        update.mayAsk.toNat + updates.countP Update.mayAsk := by
      rw [List.countP_cons, Nat.add_comm]
      cases update.mayAsk <;> rfl
    rw [countAsks, hcount]
    exact Nat.add_le_add (s.toNat_asks_le update) (ih _)

theorem countAsksAll_le (s : Stance) (updates : List Update) :
    s.countAsksAll length sensitive updates ≤
      updates.countP Update.mayAsk + (Editor.lastCaret? updates).isSome.toNat := by
  refine Nat.add_le_add (s.countAsks_le updates) ?_
  cases Editor.lastCaret? updates with
  | none => exact Nat.le_refl _
  | some offset => exact Bool.toNat_le _

/-- A caret that is put where it is, or past the end, asks for nothing. -/
theorem asksAt_of_eq {s : Stance} {offset : Nat} (h : offset ≤ length → s.caret = offset) :
    s.asksAt length sensitive offset = false := by
  by_cases hle : offset ≤ length
  · simp [asksAt, h hle]
  · simp [asksAt, hle]

/-- A range that is selected takes the caret with it. -/
theorem caret_follow_selection (s : Stance) {r : TextRange} (hle : r.stop ≤ length) :
    (s.follow length (.selection (some r))).caret = r.stop := by
  rw [follow, if_pos hle]

end Stance

namespace Editor

/-- What a single operation can tell. -/
inductive Told : List Update → Prop where
  | nothing : Told []
  | one (update : Update) : Told [update]
  | unselected (offset : Nat) : Told [.selection none, .caret offset]
  | selected (r : TextRange) : Told [.selection (some r), .caret r.stop]

/-- On the way from `e` to `e'` followers are told what a single operation can tell. -/
def TellsOnce (e e' : Editor) : Prop := ∃ updates, e'.outbox = e.outbox ++ updates ∧ Told updates

variable {e m e' : Editor}

theorem Told.countAsksAll_le {updates : List Update} (h : Told updates) (length : Nat)
    (sensitive : Bool) (s : Stance) : s.countAsksAll length sensitive updates ≤ 1 := by
  have hle : s.countAsksAll length sensitive updates ≤ _ := s.countAsksAll_le updates
  cases h with
  | nothing => exact Nat.le_succ_of_le hle
  | one update =>
    cases update with
    | caret offset => exact hle
    | selection selection =>
      cases selection with
      | none => exact Nat.le_succ_of_le hle
      | some r => exact hle
    | language language => exact hle
  | unselected offset => exact hle
  | selected r =>
    -- The bound counts the caret too, but it is already there when its update is read.
    have hthere : (List.foldl (Stance.follow length) s
        [.selection (some r), .caret r.stop]).asksAt length sensitive r.stop = false :=
      Stance.asksAt_of_eq fun hstop => s.caret_follow_selection hstop
    have hcount : s.countAsksAll length sensitive [.selection (some r), .caret r.stop] =
        (s.asksAt length sensitive r.stop).toNat := by
      show (s.asksAt length sensitive r.stop).toNat + (0 + 0) + Bool.toNat (Stance.asksAt ..) = _
      rw [hthere]
      rfl
    rw [hcount]
    exact Bool.toNat_le _

/-! ## Following updates -/

/-- Styles that were due are asked for once, if there is a pattern. -/
theorem Asked.exists_counted {due : Prop} {asks : Bool} (h : e.Asked e' due)
    (hasks : due ∧ e'.language.pattern.isSome ↔ asks = true) :
    ∃ made, e.Issues e' made ∧ made.length = asks.toNat := by
  obtain ⟨made, hissues, hmade, hiff, -⟩ := h.exists_issues
  refine ⟨made, hissues, ?_⟩
  have hne : made ≠ [] ↔ asks = true := hiff.trans hasks
  cases asks with
  | true =>
    rcases hmade with rfl | rfl
    · exact absurd rfl (hne.2 rfl)
    · rfl
  | false =>
    rcases hmade with rfl | rfl
    · rfl
    · exact absurd (hne.1 (List.cons_ne_nil _ _)) Bool.false_ne_true

/-- Where only the caret was put elsewhere, styles were asked for if it asked for them. -/
theorem Moved.exists_counted {s : Stance} {offset : Nat} (h : e.Moved e' s)
    (hasked : e.Asked e' (e.Unsettles e')) (hcaret : s.caret = offset)
    (hlang : s.language = e.language) (hle : offset ≤ e.length) :
    ∃ made, e.Issues e' made ∧
      made.length = (e.stance.asksAt e.length e.settings.caretSensitive offset).toNat := by
  refine hasked.exists_counted ?_
  have hcaret' : e'.caret = offset := (congrArg Stance.caret h.stance_eq).trans hcaret
  have hlang' : e'.language = e.language := (congrArg Stance.language h.stance_eq).trans hlang
  rw [Unsettles, h.text_eq, hcaret', hlang']
  simp [Stance.asksAt, stance, hle]

theorem exists_issues_followUpdate (e : Editor) (update : Update) :
    ∃ made, e.Issues (e.followUpdate update) made ∧
      made.length = (e.stance.asks e.length e.settings.caretSensitive update).toNat := by
  cases update with
  | caret offset => exact ⟨[], issues_of_eq rfl, rfl⟩
  | selection selection =>
    cases selection with
    | none => exact ⟨[], issues_of_eq (e.kept_placeSelection none).requests_eq, rfl⟩
    | some r =>
      by_cases hle : r.stop ≤ e.length
      · have hfollow : e.followUpdate (.selection (some r)) = e.selectRange r.start r.stop :=
          if_pos hle
        rw [hfollow]
        exact (e.moved_selectRange r.start r.stop).exists_counted
          (e.asked_selectRange r.start r.stop) rfl rfl hle
      · have hfollow : e.followUpdate (.selection (some r)) = e := if_neg hle
        refine ⟨[], issues_of_eq (by rw [hfollow]), ?_⟩
        rw [Stance.asks, Stance.asksAt_of_eq fun h => absurd h hle]
        rfl
  | language language =>
    have hprepared : Prepared e
        (({ e with language := language }.announce (.languageChanged language.name)).passOn
          (.language language)) := ⟨rfl, rfl, rfl, rfl⟩
    have hasked : e.Asked (e.setLanguage language) True := asked_requestStyles hprepared trivial
    have hlang : (e.setLanguage language).language = language := language_requestStyles _
    refine hasked.exists_counted ?_
    rw [hlang, true_and]
    rfl

theorem exists_issues_followCaret (e : Editor) (offset : Nat) :
    ∃ made, e.Issues (e.followCaret offset) made ∧
      made.length = (e.stance.asksAt e.length e.settings.caretSensitive offset).toNat := by
  by_cases hle : offset ≤ e.length
  · have hfollow : e.followCaret offset =
        (e.placeCaret offset).restyle false (e.caret != offset) := if_pos hle
    have hmoved := (e.moved_placeCaret offset).still
      (moved_restyle _ false (e.caret != offset))
    rw [hfollow]
    exact hmoved.exists_counted (asked_placeCaret (.refl e) rfl rfl offset) rfl rfl hle
  · have hfollow : e.followCaret offset = e := if_neg hle
    refine ⟨[], issues_of_eq (by rw [hfollow]), ?_⟩
    rw [Stance.asksAt_of_eq fun h => absurd h hle]
    rfl

theorem settings_restyle (e : Editor) (textChanged caretMoved : Bool) :
    (e.restyle textChanged caretMoved).settings = e.settings := by
  unfold restyle
  split
  · exact e.settings_requestStyles
  · rfl

theorem settings_selectRange (e : Editor) (start stop : Nat) :
    (e.selectRange start stop).settings = e.settings := by
  rw [selectRange, settings_restyle, settings_placeCaret, settings_placeSelection]

theorem settings_followUpdate (e : Editor) (update : Update) :
    (e.followUpdate update).settings = e.settings := by
  cases update with
  | caret offset => rfl
  | selection selection =>
    cases selection with
    | none => exact e.settings_placeSelection none
    | some r =>
      simp only [followUpdate]
      split
      · exact e.settings_selectRange r.start r.stop
      · rfl
  | language language => exact settings_requestStyles _

theorem settings_followUpdates (e : Editor) (updates : List Update) :
    (updates.foldl followUpdate e).settings = e.settings := by
  induction updates generalizing e with
  | nil => rfl
  | cons update updates ih =>
    exact (ih (e.followUpdate update)).trans (e.settings_followUpdate update)

theorem exists_issues_followUpdates (e : Editor) (updates : List Update) :
    ∃ made, e.Issues (updates.foldl followUpdate e) made ∧
      made.length = e.stance.countAsks e.length e.settings.caretSensitive updates := by
  induction updates generalizing e with
  | nil => exact ⟨[], issues_of_eq rfl, rfl⟩
  | cons update updates ih =>
    have hmoved := e.moved_followUpdate update
    obtain ⟨first, hfirst, hone⟩ := e.exists_issues_followUpdate update
    obtain ⟨rest, hrest, hmany⟩ := ih (e.followUpdate update)
    rw [hmoved.length_eq, hmoved.stance_eq, settings_followUpdate] at hmany
    refine ⟨first ++ rest, hfirst.trans hrest, ?_⟩
    rw [List.length_append, hone, hmany]
    rfl

theorem exists_issues_followInbox (e : Editor) :
    ∃ made, e.Issues e.followInbox made ∧
      made.length = e.stance.countAsksAll e.length e.settings.caretSensitive e.inbox := by
  have hemptied : e.Issues { e with inbox := [] } [] := issues_of_eq rfl
  obtain ⟨made, hmade, hmany⟩ := exists_issues_followUpdates { e with inbox := [] } e.inbox
  have hfollowed := hemptied.trans hmade
  have hmoved := moved_followUpdates { e with inbox := [] } e.inbox
  have hsettings := settings_followUpdates { e with inbox := [] } e.inbox
  unfold followInbox Stance.countAsksAll
  cases hlast : lastCaret? e.inbox with
  | none => exact ⟨made, hfollowed, hmany⟩
  | some offset =>
    obtain ⟨last, hcaret, hone⟩ :=
      exists_issues_followCaret (e.inbox.foldl followUpdate { e with inbox := [] }) offset
    rw [hmoved.length_eq, hmoved.stance_eq, hsettings] at hone
    refine ⟨made ++ last, hfollowed.trans hcaret, ?_⟩
    rw [List.length_append, hmany, hone]
    rfl

/-! ## What a single operation tells -/

theorem tellsOnce_of_eq (h : e'.outbox = e.outbox) : e.TellsOnce e' :=
  ⟨[], by rw [h, List.append_nil], .nothing⟩

theorem outbox_restyle (e : Editor) (textChanged caretMoved : Bool) :
    (e.restyle textChanged caretMoved).outbox = e.outbox := by
  unfold restyle
  split
  · exact e.outbox_requestStyles
  · rfl

theorem told_moveUpdates (e : Editor) (target : Nat) : Told (e.moveUpdates target) := by
  unfold moveUpdates
  split
  · exact .nothing
  · exact .one _

theorem told_unselect_move (e m : Editor) (target : Nat) :
    Told (e.unselectUpdates ++ m.moveUpdates target) := by
  unfold unselectUpdates
  split
  · exact m.told_moveUpdates target
  · unfold moveUpdates
    split
    · exact .one _
    · exact .unselected target

/-- The caret is put somewhere after `updates` were told. -/
theorem tellsOnce_placeCaret (updates : List Update) (h : m.outbox = e.outbox ++ updates)
    (target : Nat) (textChanged caretMoved : Bool) (ht : Told (updates ++ m.moveUpdates target)) :
    e.TellsOnce ((m.placeCaret target).restyle textChanged caretMoved) := by
  refine ⟨_, ?_, ht⟩
  rw [outbox_restyle, placeCaret_eq, ← List.append_assoc, ← h]

theorem tellsOnce_edit {start stop : Nat} {inserted : String}
    (h : e.edit start stop inserted = .ok e') : e.TellsOnce e' := by
  obtain ⟨-, rfl⟩ := edit_eq_ok_iff.1 h
  split
  · refine tellsOnce_placeCaret e.unselectUpdates ?_ _ _ _ (told_unselect_move _ _ _)
    rw [changeText_eq]
  · exact tellsOnce_placeCaret [] (List.append_nil _).symm _ _ _ (told_moveUpdates _ _)

theorem tellsOnce_selectRange (e : Editor) (start stop : Nat) :
    e.TellsOnce (e.selectRange start stop) := by
  unfold selectRange
  by_cases hlt : start < stop
  · rw [if_pos hlt]
    by_cases hsame : e.selection = some ⟨start, stop⟩
    · rw [placeSelection, if_pos hsame]
      exact tellsOnce_placeCaret [] (List.append_nil _).symm _ _ _ (told_moveUpdates _ _)
    · rw [placeSelection, if_neg hsame]
      refine tellsOnce_placeCaret [.selection (some ⟨start, stop⟩)] rfl _ _ _ ?_
      unfold moveUpdates
      split
      · exact .one _
      · exact .selected ⟨start, stop⟩
  · rw [if_neg hlt]
    refine tellsOnce_placeCaret e.unselectUpdates ?_ _ _ _ (told_unselect_move _ _ _)
    rw [unselect_eq]

theorem tellsOnce_operate (e : Editor) (o : Operation) : e.TellsOnce (e.operate o) := by
  rw [operate_eq]
  cases hattempt : e.attempt o with
  | error refusal => exact tellsOnce_of_eq rfl
  | ok e' =>
    show e.TellsOnce e'
    cases effect_of_attempt hattempt with
    | edited ho h => exact tellsOnce_edit h
    | selected start stop => exact e.tellsOnce_selectRange start stop
    | adjusted => exact tellsOnce_of_eq rfl
    | asked m told ho hm hout =>
      refine ⟨told.toList.map .language, m.outbox_requestStyles.trans hout, ?_⟩
      cases told with
      | none => exact .nothing
      | some language => exact .one (.language language)

/-! ## Whole calls -/

theorem judge_eq (s : Requests) (c : Completion) :
    ∃ current, (s.judge c).2 = { s with current := current } := by
  unfold Requests.judge
  split
  · split <;> exact ⟨none, rfl⟩
  · exact ⟨s.current, rfl⟩

theorem requests_handle (e : Editor) (c : Completion) :
    (e.handle c).2.requests = (e.requests.judge c).2 := by
  unfold handle
  split
  · rename_i h
    rw [h]
  · rename_i h
    rw [h]
  · rename_i h
    rw [h]
    exact requests_showDelivery _ _

/-- Handling completions changes nothing of the requests but which one is current, and the queue. -/
theorem requests_receiveFrom (e : Editor) (shown : Nat) (queue : List Completion) :
    ∃ current rest, (e.receiveFrom shown queue).2.requests =
      { e.requests with current := current, queue := rest } := by
  induction queue generalizing e shown with
  | nil => exact ⟨e.requests.current, e.requests.queue, rfl⟩
  | cons c rest ih =>
    have hhandle := (e.leaving rest).requests_handle c
    obtain ⟨current, hjudge⟩ := judge_eq (e.leaving rest).requests c
    rw [hjudge] at hhandle
    rw [receiveFrom]
    rcases hc : (e.leaving rest).handle c with ⟨answer, after⟩
    rw [hc] at hhandle
    cases answer with
    | error error => exact ⟨current, rest, hhandle⟩
    | ok more =>
      obtain ⟨last, left, hlast⟩ := ih after (shown + more)
      refine ⟨last, left, hlast.trans ?_⟩
      rw [hhandle]
      rfl

/-- How many requests a call makes that handles what has arrived is told from where the editor is
and what is in its inbox: one at most for every range selected and every language, and one more at
most if the caret was moved. What is not current after the updates was cancelled. If the inbox holds
what a single operation of another editor told, one request is made at most. -/
theorem catchUp_issues (e : Editor) :
    let e' := e.catchUp.2
    ∃ made : List Request,
      e'.requests.working = e.requests.working ++ made ∧
      e'.requests.lastNumber = e.requests.lastNumber + made.length ∧
      made.length = e.stance.countAsksAll e.length e.settings.caretSensitive e.inbox ∧
      made.length ≤ e.inbox.countP Update.mayAsk + (lastCaret? e.inbox).isSome.toNat ∧
      (∀ r, e.requests.current = some r ∨ r ∈ made →
        e.followInbox.requests.current = some r ∨ r.number ∈ e'.requests.cancelled) ∧
      ∀ (leader : Editor) (o : Operation),
        (leader.operate o).outbox = leader.outbox ++ e.inbox → made.length ≤ 1 := by
  intro e'
  obtain ⟨made, hmade, hcount⟩ := e.exists_issues_followInbox
  obtain ⟨current, rest, hreceive⟩ :=
    e.followInbox.requests_receiveFrom 0 e.followInbox.requests.queue
  have hrequests : e'.requests =
      { e.followInbox.requests with current := current, queue := rest } := hreceive
  refine ⟨made, ?_, ?_, hcount, ?_, fun r hr => ?_, fun leader o hoperate => ?_⟩
  · rw [hrequests]
    exact hmade.working_eq
  · rw [hrequests]
    exact hmade.lastNumber_eq
  · rw [hcount]
    exact Stance.countAsksAll_le _ _
  · rw [hrequests]
    exact hmade.superseded r hr
  · obtain ⟨updates, hupdates, htold⟩ := leader.tellsOnce_operate o
    have hinbox : e.inbox = updates := List.append_cancel_left (hoperate.symm.trans hupdates)
    rw [hcount, hinbox]
    exact htold.countAsksAll_le _ _ _

/-- Two ranges that were selected one after the other are read in one call, and each of them asks
for styles. -/
theorem catchUp_asks_twice :
    let language := Language.ofPattern "x" (some ⟨"x", .text ['x'], []⟩) []
    let leader := (new "ab" .plainText .standard).run
      [.operation (.select 0 1), .operation (.select 0 2)]
    let follower := (new "ab" language .standard).run [.mail leader.outbox []]
    follower.requests.last? = none ∧ follower.catchUp.2.requests.last? = some 2 ∧
      follower.catchUp.2.requests.cancelled = [1] := by
  decide +kernel

end Editor

end Highlight
