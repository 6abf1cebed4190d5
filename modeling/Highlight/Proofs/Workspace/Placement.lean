import Highlight.Workspace
import Highlight.Proofs.Editor.Placement

/-!
# Linked editors stay well placed

An editor is reached by others only through its inbox and through the order not to let the user
edit, so whatever every step of a single editor keeps, holds of all editors of a workspace at any
time (`everywhere_run`). In particular, offsets that were checked against the text of another editor
never put caret, selection or styles past the end (`everywhere_wellPlaced`).
-/

namespace Highlight.Workspace

/-- What can happen to linked editors. -/
inductive Action where
  | act (name : String) (a : Editor.Action)
  | link (leader follower : String)
  | close (name : String)

/-- The workspace after an action; nothing happens to an editor that is not open. -/
def perform (w : Workspace) : Action → Workspace
  | .act name a =>
    match w.act name fun e => ((), e.act a) with
    | some (_, acted) => acted
    | none => w
  | .link leader follower => w.link leader follower
  | .close name => w.close name

/-- The workspace after some actions. -/
def run (w : Workspace) (actions : List Action) : Workspace := actions.foldl perform w

/-- What an editor is opened with. -/
structure Opening where
  name : String
  text : String
  language : Language
  settings : Settings

/-- New editors, none of them linked. -/
def opened (openings : List Opening) : Workspace :=
  ofEditors (openings.map fun o => (o.name, .new o.text o.language o.settings))

/-- A property that all open editors have. -/
def Everywhere (w : Workspace) (P : Editor → Prop) : Prop := ∀ m ∈ w.members, P m.editor

variable {w : Workspace} {P : Editor → Prop}

theorem everywhere_opened (h : ∀ text language settings, P (.new text language settings))
    (openings : List Opening) : (opened openings).Everywhere P := by
  intro m hm
  simp only [opened, ofEditors, List.map_map, List.mem_map] at hm
  obtain ⟨o, -, rfl⟩ := hm
  exact h o.text o.language o.settings

theorem everywhere_modify (h : w.Everywhere P) (name : String) {f : Member → Member}
    (hf : ∀ m, P m.editor → P (f m).editor) : (w.modify name f).Everywhere P := by
  intro m hm
  obtain ⟨n, hn, rfl⟩ := List.mem_map.1 hm
  split
  · exact hf n (h n hn)
  · exact h n hn

theorem everywhere_modifyEditor (h : w.Everywhere P) (name : String) {f : Editor → Editor}
    (hf : ∀ e, P e → P (f e)) : (w.modifyEditor name f).Everywhere P :=
  everywhere_modify h name fun m => hf m.editor

theorem everywhere_foldl {α : Type} {f : Workspace → α → Workspace}
    (hf : ∀ w a, w.Everywhere P → (f w a).Everywhere P) (h : w.Everywhere P) (l : List α) :
    (l.foldl f w).Everywhere P := by
  induction l generalizing w with
  | nil => exact h
  | cons a l ih => exact ih (hf w a h)

theorem editor_of_editor? {name : String} {e : Editor} (h : w.Everywhere P)
    (he : w.editor? name = some e) : P e := by
  rw [editor?, Option.map_eq_some_iff] at he
  obtain ⟨m, hm, rfl⟩ := he
  exact h m (List.mem_of_find?_eq_some hm)

section

variable (hstep : ∀ e s, P e → P (e.step s))
include hstep

/-! ## Deliveries -/

/-- An update put into an inbox is mail. -/
theorem everywhere_deliverTo (h : w.Everywhere P) (update : Update) (follower : String) :
    (w.deliverTo update follower).Everywhere P :=
  everywhere_modifyEditor h follower fun e =>
    hstep e (.mail (e.inbox ++ [update]) e.outbox)

theorem everywhere_deliverFrom (h : w.Everywhere P) (name : String) :
    (w.deliverFrom name).Everywhere P := by
  unfold deliverFrom
  split
  · exact h
  · rename_i m _
    have hemptied : (w.modifyEditor name fun e => { e with outbox := [] }).Everywhere P :=
      everywhere_modifyEditor h name fun e => hstep e (.mail e.inbox [])
    refine everywhere_foldl (fun w update hw => ?_) hemptied m.editor.outbox
    exact everywhere_foldl (fun w follower hw => everywhere_deliverTo hstep hw update follower) hw
      m.followers

/-! ## Actions -/

theorem everywhere_perform (h : w.Everywhere P) (a : Action) : (w.perform a).Everywhere P := by
  cases a with
  | act name a =>
    simp only [perform, act]
    cases he : w.editor? name with
    | none => exact h
    | some e =>
      obtain ⟨steps, hs⟩ := e.exists_run_act a
      have hacted : P (e.act a) := by
        rw [hs]
        exact Editor.run_induction (editor_of_editor? h he) hstep steps
      refine everywhere_deliverFrom hstep ?_ name
      exact everywhere_modifyEditor h name fun _ _ => hacted
  | link leader follower =>
    refine everywhere_modify ?_ leader fun _ hm => hm
    exact everywhere_modifyEditor h follower fun e => hstep e (.operation (.setEditable false))
  | close name => exact fun m hm => h m (List.mem_filter.1 hm).1

/-- What every step keeps, all editors have at any time. -/
theorem everywhere_run (h : w.Everywhere P) (actions : List Action) :
    (w.run actions).Everywhere P :=
  everywhere_foldl (fun _ a hw => everywhere_perform hstep hw a) h actions

end

/-- At any time, and in the midst of what any editor does next: caret and selection are within the
text, nothing empty is selected, the styles are normal and cover the text, they follow every edit
that is let through, and a snapshot has the caret where the editor has it. -/
theorem everywhere_wellPlaced (openings : List Opening) (actions : List Action) :
    ((opened openings).run actions).Everywhere fun e => ∀ steps,
      (e.run steps).WellPlaced ∧ Normal (e.run steps).styles.runs ∧
        (∀ start stop inserted, start ≤ stop → stop ≤ (e.run steps).length →
          (e.run steps).length - (stop - start) + inserted ≤ maxLength →
            ∃ styles, (e.run steps).styles.splice start stop inserted = .ok (.ok styles)) ∧
        (e.run steps).snapshot.caret = (e.run steps).caret := by
  have hplaced : ((opened openings).run actions).Everywhere Editor.WellPlaced :=
    everywhere_run (fun e s he => he.step s) (everywhere_opened Editor.wellPlaced_new openings)
      actions
  intro m hm steps
  have hw : (m.editor.run steps).WellPlaced := (hplaced m hm).run steps
  refine ⟨hw, (m.editor.run steps).styles.normal, ?_, hw.caret_snapshot⟩
  intro start stop inserted hle hstop hmax
  exact hw.toFitting.exists_splice hle hstop hmax

end Highlight.Workspace
