import Mathlib.Data.List.Induction
import Highlight.Proofs.Editor.Agreement
import Highlight.Proofs.Editor.Edits
import Highlight.Proofs.Workspace.Mirrors

/-!
# Selections end at the caret

To select a range puts the caret at its end, and a caret that is moved elsewhere leaves nothing
selected, nor does a change of the text. There is one exception: an edit that puts the same text in
the place of a range counts as no change, and moves the caret alone (`Editor.Strays`). So what each
action of an editor that follows nobody does is one of three things (`Editor.act_cases`), and after
any actions the caret is at the end of what is selected, or the last action that did anything to the
two is such an edit (`Unled.anchored_or_strayed`).

* `Unled.perform`, `Unled.run`: the editor is not told anything by others;
* `selection_ends_at_caret`: what holds at any time;
* `caret_leaves_selection`: the exception happens.
-/

namespace Highlight

namespace Editor

/-- What is selected ends at the caret. -/
def Anchored (e : Editor) : Prop := ∀ r, e.selection = some r → r.stop = e.caret

/-- Caret and selection are where they were. -/
structure Rests (e e' : Editor) : Prop where
  caret_eq : e'.caret = e.caret
  selection_eq : e'.selection = e.selection

/-- The operation puts the same text in the place of a range, which moves the caret behind the range
and leaves selected what is. -/
structure Strays (e : Editor) (o : Operation) (e' : Editor) : Prop where
  same_text : ∃ start stop inserted, e.Admits o start stop inserted ∧
    e.replaced start stop inserted = e.text ∧ e'.caret = start + inserted.length
  caret_ne : e'.caret ≠ e.caret
  selection_eq : e'.selection = e.selection

variable {e m e' : Editor} {o : Operation} {start stop : Nat} {inserted : String}

theorem Rests.refl (e : Editor) : e.Rests e := ⟨rfl, rfl⟩

theorem Rests.trans (h : e.Rests m) (h' : m.Rests e') : e.Rests e' :=
  ⟨h'.caret_eq.trans h.caret_eq, h'.selection_eq.trans h.selection_eq⟩

theorem Rests.anchored (h : e.Rests e') (he : e.Anchored) : e'.Anchored := fun r hr => by
  rw [h.caret_eq]
  exact he r (h.selection_eq ▸ hr)

theorem Strays.rests (h : e.Strays o m) (hrests : m.Rests e') : e.Strays o e' where
  same_text := by
    rw [hrests.caret_eq]
    exact h.same_text
  caret_ne := by
    rw [hrests.caret_eq]
    exact h.caret_ne
  selection_eq := hrests.selection_eq.trans h.selection_eq

theorem rests_of_stance (h : e'.stance = e.stance) : e.Rests e' :=
  ⟨congrArg Stance.caret h, congrArg Stance.selection h⟩

theorem rests_requestStyles (e : Editor) : e.Rests e.requestStyles :=
  rests_of_stance e.moved_requestStyles.stance_eq

theorem anchored_selectRange (e : Editor) (start stop : Nat) : (e.selectRange start stop).Anchored := by
  have hstance := (e.moved_selectRange start stop).stance_eq
  intro r hr
  rw [show (e.selectRange start stop).caret = stop from congrArg Stance.caret hstance]
  rw [show (e.selectRange start stop).selection = _ from congrArg Stance.selection hstance] at hr
  split at hr <;> cases hr
  rfl

/-- An edit leaves nothing selected if the text changes, and at most moves the caret if not. -/
theorem Admits.operate_cases (h : e.Admits o start stop inserted) :
    e.Rests (e.operate o) ∨ (e.operate o).Anchored ∨ e.Strays o (e.operate o) := by
  let target := start + inserted.length
  by_cases hsame : e.replaced start stop inserted = e.text
  · have hplaced := (e.moved_placeCaret target).stance_eq
    have hrests : (e.placeCaret target).Rests (e.operate o) := by
      rw [operate_eq, h.attempt_eq, edit_of_same h.within hsame, unlessRefused]
      split
      · exact rests_requestStyles _
      · exact .refl _
    have hcaret : (e.operate o).caret = target :=
      hrests.caret_eq.trans (congrArg Stance.caret hplaced)
    have hselection : (e.operate o).selection = e.selection :=
      hrests.selection_eq.trans (congrArg Stance.selection hplaced)
    by_cases hstays : (e.operate o).caret = e.caret
    · exact .inl ⟨hstays, hselection⟩
    · exact .inr (.inr ⟨⟨start, stop, inserted, h, hsame, hcaret⟩, hstays, hselection⟩)
  · refine .inr (.inl fun r hr => ?_)
    have hplaced := ((e.changeText start stop inserted).moved_placeCaret target).stance_eq
    have hnone : (e.changeText start stop inserted).selection = none := by rw [changeText_eq]
    rw [operate_eq, h.attempt_eq, edit_of_changes h.within hsame, unlessRefused,
      (rests_requestStyles _).selection_eq] at hr
    cases hnone.symm.trans ((congrArg Stance.selection hplaced).symm.trans hr)

/-- An operation leaves caret and selection where they are, or the caret at the end of what is
selected, or it puts the same text in the place of a range and moves only the caret. -/
theorem operate_cases (e : Editor) (o : Operation) :
    e.Rests (e.operate o) ∨ (e.operate o).Anchored ∨ e.Strays o (e.operate o) := by
  cases h : e.attempt o with
  | error r =>
    rw [operate_eq, h]
    exact .inl (.refl e)
  | ok e' =>
    cases o with
    | setCaret offset =>
      rw [operate_eq, h, unlessRefused]
      obtain ⟨-, rfl⟩ := setCaret_eq_ok_iff.1 h
      exact .inr (.inl (e.anchored_selectRange offset offset))
    | select start stop =>
      rw [operate_eq, h, unlessRefused]
      obtain ⟨-, rfl⟩ := select_eq_ok_iff.1 h
      exact .inr (.inl (e.anchored_selectRange start stop))
    | setEditable value => exact .inl ⟨rfl, rfl⟩
    | setCaretSensitive value => exact .inl ⟨rfl, rfl⟩
    | setLanguage language =>
      have hstance := (e.moved_setLanguage language).stance_eq
      exact .inl ⟨congrArg Stance.caret hstance, congrArg Stance.selection hstance⟩
    | setExtensions extensions =>
      have hset : e.Rests { e with requests := e.requests.setExtensions extensions } := ⟨rfl, rfl⟩
      exact .inl (hset.trans (rests_requestStyles _))
    | addExtension c =>
      have hadded : e.Rests { e with requests := e.requests.addExtension c } := ⟨rfl, rfl⟩
      exact .inl (hadded.trans (rests_requestStyles _))
    | requestStyles => exact .inl e.rests_requestStyles
    | showStyles styles => exact .inl (rests_of_stance (e.moved_showStyles styles).stance_eq)
    | _ =>
      obtain ⟨start, stop, inserted, hadmits⟩ := exists_admits h rfl
      exact hadmits.operate_cases

/-- An editor that was told nothing does nothing else with caret and selection. -/
theorem act_cases (hinbox : e.inbox = []) (a : Action) :
    e.Rests (e.act a) ∨ (e.act a).Anchored ∨
      ∃ o, a = .operation o ∧ e.Strays o (e.act a) := by
  have hread : (∀ o, a ≠ .operation o) → e.Rests (e.act a) := fun ha => by
    rcases e.read_act ha with ⟨-, ⟨-, hstance⟩ | ⟨-, hstance⟩⟩
    · exact rests_of_stance hstance
    · rw [hinbox] at hstance
      exact rests_of_stance hstance
  cases a with
  | operation o => exact (e.operate_cases o).imp_right (Or.imp_right fun h => ⟨o, rfl, h⟩)
  | _ => exact .inl (hread nofun)

theorem inbox_operate (e : Editor) (o : Operation) : (e.operate o).inbox = e.inbox := by
  rcases e.outcome_operate o with ⟨styles, rfl⟩ | hk | ⟨m, hm, he⟩
  · exact (e.moved_showStyles styles).inbox_eq
  · exact hk.inbox_eq
  · rw [he, inbox_requestStyles, hm.inbox_eq]

theorem inbox_act (hinbox : e.inbox = []) (a : Action) : (e.act a).inbox = [] := by
  have hread : (∀ o, a ≠ .operation o) → (e.act a).inbox = [] := fun ha => by
    rcases e.read_act ha with ⟨-, ⟨h, -⟩ | ⟨h, -⟩⟩
    · exact h.trans hinbox
    · exact h
  cases a with
  | operation o => exact (e.inbox_operate o).trans hinbox
  | _ => exact hread nofun

end Editor

namespace Workspace

variable {w : Workspace} {name : String} {e e' : Editor} {a : Action}

/-- The editor with a name follows nobody, and nobody has told it anything. -/
structure Unled (w : Workspace) (name : String) : Prop where
  only : ∀ k, name ∉ w.followersOf k
  inbox_eq : ∀ e, w.editor? name = some e → e.inbox = []

/-- An action does nothing to the editor, or it is one of its own. -/
theorem Unled.perform_cases (h : w.Unled name) (ha : ∀ leader, a ≠ .link leader name)
    (he' : (w.perform a).editor? name = some e') :
    ∃ e, w.editor? name = some e ∧
      (e' = e ∨ ∃ b, a = .act name b ∧ e' = { e.act b with outbox := [] }) := by
  cases a with
  | act k b =>
    cases hk : w.editor? k with
    | none =>
      rw [perform_act_of_none hk] at he'
      exact ⟨e', he', .inl rfl⟩
    | some acting =>
      rw [editor?_act hk, List.count_eq_zero_of_not_mem (h.only k)] at he'
      obtain ⟨e, he, rfl⟩ := Option.map_eq_some_iff.1 he'
      have hnothing : (acting.act b).outbox.flatMap (List.replicate 0) = [] :=
        List.flatMap_eq_nil_iff.2 fun _ _ => rfl
      rw [hnothing, Editor.posted_nil]
      refine ⟨e, he, ?_⟩
      split
      · next hname =>
        subst hname
        obtain rfl := Option.some.inj (he.symm.trans hk)
        exact .inr ⟨b, rfl, rfl⟩
      · exact .inl rfl
  | link leader follower =>
    rw [show w.perform (.link leader follower) = w.link leader follower from rfl, editor?_link] at he'
    obtain ⟨e, he, rfl⟩ := Option.map_eq_some_iff.1 he'
    refine ⟨e, he, .inl (if_neg fun heq => ?_)⟩
    exact ha leader (by rw [heq])
  | close k =>
    rw [show w.perform (.close k) = w.close k from rfl, editor?_close] at he'
    split at he'
    · cases he'
    · exact ⟨e', he', .inl rfl⟩

theorem Unled.perform (h : w.Unled name) (ha : ∀ leader, a ≠ .link leader name) :
    (w.perform a).Unled name where
  only k := by
    cases a with
    | act other b =>
      rw [followersOf_act]
      exact h.only k
    | link leader follower =>
      rw [show w.perform (.link leader follower) = w.link leader follower from rfl,
        followersOf_link]
      have hne : name ≠ follower := fun heq => ha leader (by rw [heq])
      split
      · simpa using ⟨h.only k, hne⟩
      · exact h.only k
    | close other =>
      rw [show w.perform (.close other) = w.close other from rfl, followersOf_close]
      split
      · exact List.not_mem_nil
      · exact h.only k
  inbox_eq e' he' := by
    obtain ⟨e, he, rfl | ⟨b, -, rfl⟩⟩ := h.perform_cases ha he'
    · exact h.inbox_eq e' he
    · exact Editor.inbox_act (h.inbox_eq e he) b

theorem unled_opened (openings : List Opening) (name : String) :
    (opened openings).Unled name where
  only k := by
    rw [followersOf_opened]
    exact List.not_mem_nil
  inbox_eq e he :=
    editor_of_editor? (everywhere_opened (P := (·.inbox = [])) (fun _ _ _ => rfl) openings) he

theorem Unled.run (h : w.Unled name) {actions : List Action}
    (ha : ∀ leader, .link leader name ∉ actions) : (w.run actions).Unled name := by
  induction actions generalizing w with
  | nil => exact h
  | cons a actions ih =>
    refine ih (h.perform fun leader heq => ha leader ?_) fun leader hmem =>
      ha leader (List.mem_cons_of_mem a hmem)
    rw [heq]
    exact List.mem_cons_self

theorem run_concat (w : Workspace) (actions : List Action) (a : Action) :
    w.run (actions ++ [a]) = (w.run actions).perform a := by
  rw [run, List.foldl_append]
  rfl

/-- Among some actions there is one by which the editor with a name strays, and `e` is where it was
left: caret and selection have been the same ever since. -/
def Strayed (w : Workspace) (name : String) (actions : List Action) (e : Editor) : Prop :=
  ∃ before o after left, actions = before ++ .act name (.operation o) :: after ∧
    (w.run before).editor? name = some left ∧ left.Strays o e ∧
    ∀ later, later <+: after →
      ∃ m, (w.run (before ++ .act name (.operation o) :: later)).editor? name = some m ∧ m.Rests e

theorem Strayed.rests {actions : List Action} (h : w.Strayed name actions e) (hrests : e.Rests e')
    (he' : (w.run (actions ++ [a])).editor? name = some e') :
    w.Strayed name (actions ++ [a]) e' := by
  obtain ⟨before, o, after, left, rfl, hleft, hstrays, hsince⟩ := h
  refine ⟨before, o, after ++ [a], left, by rw [List.append_assoc, List.cons_append], hleft,
    hstrays.rests hrests, fun later hlater => ?_⟩
  rcases List.prefix_concat_iff.1 hlater with rfl | hlater
  · rw [List.append_assoc, List.cons_append] at he'
    exact ⟨e', he', .refl e'⟩
  · obtain ⟨m, hm, hmrests⟩ := hsince later hlater
    exact ⟨m, hm, hmrests.trans hrests⟩

theorem strayed_concat {actions : List Action} {o : Editor.Operation}
    (he : (w.run actions).editor? name = some e) (hstrays : e.Strays o e')
    (he' : (w.run (actions ++ [.act name (.operation o)])).editor? name = some e') :
    w.Strayed name (actions ++ [.act name (.operation o)]) e' := by
  refine ⟨actions, o, [], e, rfl, he, hstrays, fun later hlater => ?_⟩
  obtain rfl := List.prefix_nil.1 hlater
  exact ⟨e', he', .refl e'⟩

/-- Where the caret is not at the end of what is selected, the editor strayed. The induction is on
the last action: it leaves caret and selection where they were, or it puts the caret at the end, or
it is the one by which the editor strays. -/
theorem Unled.anchored_or_strayed (h : w.Unled name)
    (hstart : ∀ e, w.editor? name = some e → e.Anchored) {actions : List Action}
    (ha : ∀ leader, .link leader name ∉ actions) (he : (w.run actions).editor? name = some e) :
    e.Anchored ∨ w.Strayed name actions e := by
  induction actions using List.reverseRecOn generalizing e with
  | nil => exact .inl (hstart e he)
  | append_singleton actions a ih =>
    have hbefore : ∀ leader, .link leader name ∉ actions := fun leader hmem =>
      ha leader (List.mem_append_left [a] hmem)
    have hlast : ∀ leader, a ≠ .link leader name := fun leader heq =>
      ha leader (List.mem_append_right actions (List.mem_singleton.2 heq.symm))
    have hunled := h.run hbefore
    have hperform := run_concat w actions a ▸ he
    obtain ⟨m, hm, rfl | ⟨b, rfl, rfl⟩⟩ := hunled.perform_cases hlast hperform
    · exact (ih hbefore hm).imp_right fun hstrayed => hstrayed.rests (.refl e) he
    · have hemptied : (m.act b).Rests { m.act b with outbox := [] } := ⟨rfl, rfl⟩
      rcases Editor.act_cases (hunled.inbox_eq m hm) b with hrests | hanchored | ⟨o, rfl, hstrays⟩
      · exact (ih hbefore hm).imp (hrests.trans hemptied).anchored
          fun hstrayed => hstrayed.rests (hrests.trans hemptied) he
      · exact .inl (hemptied.anchored hanchored)
      · exact .inr (strayed_concat hm (hstrays.rests hemptied) he)

/-- Of an editor that follows nobody, the caret is at the end of what is selected, unless it strayed:
the last of its actions that changed caret or selection put the same text in the place of a range,
which changes nothing but the caret. -/
theorem selection_ends_at_caret (openings : List Opening) (actions : List Action) {name : String}
    (hunled : ∀ leader, .link leader name ∉ actions) {e : Editor}
    (he : ((opened openings).run actions).editor? name = some e) {r : TextRange}
    (hr : e.selection = some r) :
    r.stop = e.caret ∨ (opened openings).Strayed name actions e := by
  have hstart : ∀ e, (opened openings).editor? name = some e → e.Anchored := fun e he r hr => by
    have hnone : e.selection = none :=
      editor_of_editor? (everywhere_opened (P := (·.selection = none)) (fun _ _ _ => rfl) openings) he
    cases hnone.symm.trans hr
  exact ((unled_opened openings name).anchored_or_strayed hstart hunled he).imp_left (· r hr)

/-- The first letter of what is selected is replaced by itself, and other things are done after
that. -/
theorem selection_ends_at_caret_same_text :
    let openings : List Opening := [⟨"notes", "ab", .plainText, .standard⟩]
    let actions : List Action := [.act "notes" (.operation (.select 0 2)),
      .act "notes" (.operation (.replace 0 1 "a")), .act "notes" (.operation .requestStyles),
      .act "notes" .catchUp]
    ∃ e, ((opened openings).run actions).editor? "notes" = some e ∧
      e.selection = some ⟨0, 2⟩ ∧ e.caret = 1 ∧ (opened openings).Strayed "notes" actions e := by
  intro openings actions
  have hstate : (((opened openings).run actions).editor? "notes").map
      (fun e => (e.selection, e.caret)) = some (some ⟨0, 2⟩, 1) := by decide +kernel
  obtain ⟨e, he, hplace⟩ := Option.map_eq_some_iff.1 hstate
  obtain ⟨hselection, hcaret⟩ := Prod.mk.inj hplace
  refine ⟨e, he, hselection, hcaret, ?_⟩
  have hunled : ∀ leader, .link leader "notes" ∉ actions := fun leader => by simp [actions]
  refine (selection_ends_at_caret openings actions hunled he hselection).resolve_left ?_
  rw [hcaret]
  decide

/-- There the caret is not at the end of what is selected. -/
theorem caret_leaves_selection :
    let openings : List Opening := [⟨"notes", "ab", .plainText, .standard⟩]
    let actions : List Action := [.act "notes" (.operation (.select 0 2)),
      .act "notes" (.operation (.replace 0 1 "a"))]
    (∀ leader, .link leader "notes" ∉ actions) ∧
      ∃ e r, ((opened openings).run actions).editor? "notes" = some e ∧ e.selection = some r ∧
        r.start < r.stop ∧ e.caret ≠ r.stop := by
  intro openings actions
  have hstate : (((opened openings).run actions).editor? "notes").map
      (fun e => (e.selection, e.caret)) = some (some ⟨0, 2⟩, 1) := by decide +kernel
  obtain ⟨e, he, hplace⟩ := Option.map_eq_some_iff.1 hstate
  obtain ⟨hselection, hcaret⟩ := Prod.mk.inj hplace
  refine ⟨fun leader => by simp [actions], e, ⟨0, 2⟩, he, hselection, by decide, ?_⟩
  rw [hcaret]
  decide

end Workspace

end Highlight
