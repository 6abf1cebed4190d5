import Highlight.Proofs.Editor.Stance
import Highlight.Proofs.Workspace.Lookup

/-!
# Mirrors

An editor that follows one other editor, from a moment on at which both are at the same place, and
that only reads what it is told, is where the other one is whenever it has read everything, as far as
its own text reaches. The invariant (`Mirroring`) says that what is in its inbox leads from a place
where it is already to where the other one is. It does not matter what else is going on: other
editors may follow either of the two, the other one may follow somebody itself, and the follower may
read what it was told at any time.

* `Mirroring.perform`, `Mirroring.run`: every action that leaves the follower to itself keeps it;
* `mirror_follows`: what holds after any actions, and after the follower has read its inbox.
-/

namespace Highlight

/-- What the leader told goes behind what was told before. -/
theorem Editor.Trails.told {m s s' : Editor} (h : m.Trails s.stance) (hsent : s.outbox = [])
    (htells : s.Tells s') : (m.posted s'.outbox).Trails s'.stance := by
  obtain ⟨base, hmoves, hmirrors⟩ := h
  obtain ⟨us, hout, htold⟩ := htells
  rw [hsent, List.nil_append] at hout
  rw [hout]
  exact ⟨base, hmoves.trans htold, hmirrors⟩

namespace Workspace

/-- All that editors told was delivered. -/
def Delivered (w : Workspace) : Prop := ∀ k e, w.editor? k = some e → e.outbox = []

/-- `follower` follows `leader` and nobody else, and has been told whatever leads to where the leader
is; its text is still the same. -/
structure Mirroring (leader follower text : String) (w : Workspace) : Prop where
  delivered : w.Delivered
  once : (w.followersOf leader).count follower = 1
  only : ∀ k, k ≠ leader → follower ∉ w.followersOf k
  trails : ∃ s m, w.editor? leader = some s ∧ w.editor? follower = some m ∧ m.text = text ∧
    m.Trails s.stance

/-- The action leaves it to `follower` to follow `leader`: it makes it follow nobody else, closes
neither of them, and has `follower` do nothing but handle what arrives. -/
def Action.Spares (leader follower : String) : Action → Prop
  | .act name a => name = follower → ∀ o, a ≠ .operation o
  | .link _ other => other ≠ follower
  | .close name => name ≠ leader ∧ name ≠ follower

variable {w : Workspace} {leader follower text : String}

/-! ## Deliveries -/

theorem delivered_opened (openings : List Opening) : (opened openings).Delivered := by
  intro k e he
  obtain ⟨m, hm, rfl⟩ := Option.map_eq_some_iff.1 he
  have hnew : (opened openings).Everywhere (·.outbox = []) :=
    everywhere_opened (fun _ _ _ => rfl) openings
  exact hnew m (List.mem_of_find?_eq_some hm)

theorem Delivered.perform (h : w.Delivered) (a : Action) : (w.perform a).Delivered := by
  intro k e he
  cases a with
  | act name a =>
    cases hname : w.editor? name with
    | none =>
      rw [perform_act_of_none hname] at he
      exact h k e he
    | some acting =>
      rw [editor?_act hname] at he
      obtain ⟨before, hbefore, rfl⟩ := Option.map_eq_some_iff.1 he
      show (if k = name then _ else before).outbox = []
      split
      · rfl
      · exact h k before hbefore
  | link leader follower =>
    rw [show w.perform (.link leader follower) = w.link leader follower from rfl,
      editor?_link] at he
    obtain ⟨before, hbefore, rfl⟩ := Option.map_eq_some_iff.1 he
    split
    · exact h k before hbefore
    · exact h k before hbefore
  | close name =>
    rw [show w.perform (.close name) = w.close name from rfl, editor?_close] at he
    split at he
    · cases he
    · exact h k e he

theorem Delivered.run (h : w.Delivered) (actions : List Action) : (w.run actions).Delivered := by
  induction actions generalizing w with
  | nil => exact h
  | cons a actions ih => exact ih (h.perform a)

/-! ## Actions -/

/-- An editor that was just opened is not followed. -/
theorem followersOf_opened (openings : List Opening) (k : String) :
    (opened openings).followersOf k = [] := by
  rw [followersOf]
  cases hm : (opened openings).member? k with
  | none => rfl
  | some m =>
    obtain ⟨_, -, rfl⟩ := List.mem_map.1 (List.mem_of_find?_eq_some hm)
    rfl

/-- From the moment on at which both are at the same place. -/
theorem mirroring_link {s m : Editor} (hw : w.Delivered) (hne : leader ≠ follower)
    (hs : w.editor? leader = some s) (hm : w.editor? follower = some m)
    (hfree : ∀ k, follower ∉ w.followersOf k) (hinbox : m.inbox = [])
    (hstance : m.stance = s.stance) :
    Mirroring leader follower m.text (w.link leader follower) where
  delivered := hw.perform (.link leader follower)
  once := by
    rw [followersOf_link, if_pos ⟨rfl, by rw [hs]; rfl⟩, List.count_append,
      List.count_eq_zero_of_not_mem (hfree leader), List.count_singleton_self]
  only k hk := by
    rw [followersOf_link, if_neg fun h => hk h.1]
    exact hfree k
  trails := by
    refine ⟨s, m.setEditable false, ?_, ?_, rfl, s.stance, ?_, ?_⟩
    · rw [editor?_link, hs, Option.map_some, if_neg hne]
    · rw [editor?_link, hm, Option.map_some, if_pos rfl]
    · rw [show (m.setEditable false).inbox = [] from hinbox]
      exact .nil
    · rw [show (m.setEditable false).stance = s.stance from hstance]
      exact .refl _ _

/-- The follower finds in its inbox what the leader told, once, and nothing of what others did. -/
theorem Mirroring.posted (h : Mirroring leader follower text w) (name : String)
    (updates : List Update) :
    updates.flatMap (List.replicate ((w.followersOf name).count follower)) =
      if name = leader then updates else [] := by
  split
  · rename_i heq
    rw [heq, h.once]
    exact List.flatMap_singleton' updates
  · rename_i hne
    rw [List.count_eq_zero_of_not_mem (h.only name hne)]
    exact List.flatMap_eq_nil_iff.2 fun _ _ => rfl

theorem Mirroring.act (h : Mirroring leader follower text w) (hne : leader ≠ follower)
    {name : String} {a : Editor.Action} (ha : name = follower → ∀ o, a ≠ .operation o) :
    Mirroring leader follower text (w.perform (.act name a)) := by
  cases he : w.editor? name with
  | none =>
    rw [perform_act_of_none he]
    exact h
  | some e =>
    refine ⟨h.delivered.perform _, ?_, ?_, ?_⟩
    · rw [followersOf_act]
      exact h.once
    · intro k hk
      rw [followersOf_act]
      exact h.only k hk
    · obtain ⟨s, m, hs, hm, htext, htrails⟩ := h.trails
      rw [editor?_act he, editor?_act he, hs, hm, Option.map_some, Option.map_some, h.posted]
      by_cases hleader : name = leader
      · subst hleader
        obtain rfl : e = s := Option.some.inj (he.symm.trans hs)
        rw [if_pos rfl, if_neg (Ne.symm hne), if_pos rfl]
        exact ⟨_, _, rfl, rfl, htext, htrails.told (h.delivered name e he) (e.tells_act a)⟩
      · rw [if_neg (Ne.symm hleader), if_neg hleader, Editor.posted_nil]
        by_cases hfollower : name = follower
        · subst hfollower
          obtain rfl : e = m := Option.some.inj (he.symm.trans hm)
          rw [if_pos rfl]
          exact ⟨_, _, rfl, rfl, (e.read_act (ha rfl)).1.trans htext, htrails.read (ha rfl)⟩
        · rw [if_neg (Ne.symm hfollower)]
          exact ⟨_, _, rfl, rfl, htext, htrails⟩

theorem Mirroring.link (h : Mirroring leader follower text w) (other : String) {another : String}
    (hother : another ≠ follower) : Mirroring leader follower text (w.link other another) where
  delivered := h.delivered.perform (.link other another)
  once := by
    rw [followersOf_link]
    split
    · rw [List.count_append, h.once, List.count_singleton, if_neg (by simpa using hother)]
    · exact h.once
  only k hk := by
    rw [followersOf_link]
    split
    · simpa using ⟨h.only k hk, Ne.symm hother⟩
    · exact h.only k hk
  trails := by
    obtain ⟨s, m, hs, hm, htext, htrails⟩ := h.trails
    rw [editor?_link, editor?_link, hs, hm, Option.map_some, Option.map_some,
      if_neg (Ne.symm hother)]
    refine ⟨_, _, rfl, rfl, htext, ?_⟩
    split
    · exact htrails
    · exact htrails

theorem Mirroring.close (h : Mirroring leader follower text w) {name : String}
    (hleader : name ≠ leader) (hfollower : name ≠ follower) :
    Mirroring leader follower text (w.close name) where
  delivered := h.delivered.perform (.close name)
  once := by
    rw [followersOf_close, if_neg (Ne.symm hleader)]
    exact h.once
  only k hk := by
    rw [followersOf_close]
    split
    · exact List.not_mem_nil
    · exact h.only k hk
  trails := by
    rw [editor?_close, editor?_close, if_neg (Ne.symm hleader), if_neg (Ne.symm hfollower)]
    exact h.trails

theorem Mirroring.perform (h : Mirroring leader follower text w) (hne : leader ≠ follower)
    {a : Action} (ha : a.Spares leader follower) :
    Mirroring leader follower text (w.perform a) := by
  cases a with
  | act name a => exact h.act hne ha
  | link other another => exact h.link other ha
  | close name => exact h.close ha.1 ha.2

theorem Mirroring.run (h : Mirroring leader follower text w) (hne : leader ≠ follower)
    {actions : List Action} (ha : ∀ a ∈ actions, a.Spares leader follower) :
    Mirroring leader follower text (w.run actions) := by
  induction actions generalizing w with
  | nil => exact h
  | cons a actions ih =>
    obtain ⟨hfirst, hrest⟩ := List.forall_mem_cons.1 ha
    exact ih (h.perform hne hfirst) hrest

/-- After the follower has handled what arrived, there is nothing in its inbox. -/
theorem Mirroring.inbox_eq (h : Mirroring leader follower text w) (hne : leader ≠ follower)
    {a : Editor.Action} (ha : a = .catchUp ∨ a = .awaitStyles) {m : Editor}
    (hm : (w.perform (.act follower a)).editor? follower = some m) : m.inbox = [] := by
  obtain ⟨-, before, -, hbefore, -⟩ := h.trails
  rw [editor?_act hbefore, hbefore, Option.map_some, if_pos rfl, h.posted, if_neg (Ne.symm hne),
    Editor.posted_nil] at hm
  obtain rfl := Option.some.inj hm
  show (before.act a).inbox = []
  rcases ha with rfl | rfl
  · exact before.moved_catchUp.inbox_eq
  · exact before.moved_awaitStyles.inbox_eq

/-- An editor is made to follow another one, while both are at the same place, nothing is in its
inbox, and it follows nobody else; after that it does nothing but handle what arrives. Whatever the
others do, its text stays as it is, and whenever its inbox is empty, in particular after it has
handled what arrived, it has the language of the editor that it follows, its caret if that is within
the follower's text, and its selection if that is. -/
theorem mirror_follows (openings : List Opening) (before after : List Action)
    {leader follower : String} {s m : Editor} (hne : leader ≠ follower)
    (hs : ((opened openings).run before).editor? leader = some s)
    (hm : ((opened openings).run before).editor? follower = some m)
    (hfree : ∀ k, follower ∉ ((opened openings).run before).followersOf k)
    (hinbox : m.inbox = []) (hcaret : m.caret = s.caret) (hselection : m.selection = s.selection)
    (hlanguage : m.language = s.language) (hafter : ∀ a ∈ after, a.Spares leader follower) :
    let w := (((opened openings).run before).link leader follower).run after
    (∃ s' m', w.editor? leader = some s' ∧ w.editor? follower = some m' ∧ m'.text = m.text ∧
      (m'.inbox = [] → m'.stance.Mirrors m'.length s'.stance)) ∧
    ∀ a, a = .catchUp ∨ a = .awaitStyles →
      ∃ s' m', (w.perform (.act follower a)).editor? leader = some s' ∧
        (w.perform (.act follower a)).editor? follower = some m' ∧ m'.text = m.text ∧
        m'.inbox = [] ∧ m'.stance.Mirrors m'.length s'.stance := by
  intro w
  have hstance : m.stance = s.stance := by
    rw [Editor.stance, Editor.stance, hcaret, hselection, hlanguage]
  have hmirroring : Mirroring leader follower m.text w :=
    (mirroring_link ((delivered_opened openings).run before) hne hs hm hfree hinbox hstance).run hne
      hafter
  refine ⟨?_, fun a ha => ?_⟩
  · obtain ⟨s', m', hs', hm', htext, htrails⟩ := hmirroring.trails
    exact ⟨s', m', hs', hm', htext, htrails.mirrors⟩
  · have hread : ∀ o, a ≠ .operation o := by
      rcases ha with rfl | rfl <;> exact nofun
    obtain ⟨s', m', hs', hm', htext, htrails⟩ := (hmirroring.act hne fun _ => hread).trails
    have hempty := hmirroring.inbox_eq hne ha hm'
    exact ⟨s', m', hs', hm', htext, hempty, htrails.mirrors hempty⟩

/-- While somebody else follows as well, a range is selected whose end the follower's text just
reaches, and the follower reads all at once. -/
theorem mirror_follows_selected :
    let openings : List Opening := [⟨"notes", "let x", .plainText, .standard⟩,
      ⟨"mirror", "let", .plainText, .standard⟩, ⟨"other", "", .plainText, .standard⟩]
    let actions : List Action := [.act "notes" (.operation (.setCaret 5)), .link "notes" "other",
      .act "notes" (.operation (.select 1 3)), .close "other"]
    let w := ((opened openings).link "notes" "mirror").run actions
    (w.editor? "mirror").map (fun m => (m.inbox.length, m.caret)) = some (3, 0) ∧
      ∃ m, (w.perform (.act "mirror" .catchUp)).editor? "mirror" = some m ∧ m.inbox = [] ∧
        m.text = "let" ∧ m.caret = 3 ∧ m.selection = some ⟨1, 3⟩ := by
  intro openings actions w
  have hspares : ∀ a ∈ actions, a.Spares "notes" "mirror" := by
    simp [actions, Action.Spares]
  have hfree : ∀ k, "mirror" ∉ (opened openings).followersOf k := fun k => by
    rw [followersOf_opened]
    exact List.not_mem_nil
  have hne : "notes" ≠ "mirror" := by decide
  obtain ⟨-, hread⟩ := mirror_follows (s := .new "let x" .plainText .standard)
    (m := .new "let" .plainText .standard) openings [] actions hne rfl rfl hfree rfl rfl rfl rfl
    hspares
  obtain ⟨s, m, hs, hm, htext, hinbox, hmirrors⟩ := hread .catchUp (.inl rfl)
  have hleader : ((w.perform (.act "mirror" .catchUp)).editor? "notes").map
      (fun s => (s.caret, s.selection)) = some (3, some ⟨1, 3⟩) := by decide +kernel
  rw [show (w.perform (.act "mirror" .catchUp)).editor? "notes" = some s from hs] at hleader
  obtain ⟨hcaret, hselection⟩ := Prod.mk.inj (Option.some.inj hleader)
  have hlength : m.length = 3 := by
    rw [Editor.length, htext]
    rfl
  refine ⟨by decide +kernel, m, hm, hinbox, htext, ?_, ?_⟩
  · exact (hmirrors.caret_eq (by rw [hlength]; exact Nat.le_of_eq hcaret)).trans hcaret
  · refine (hmirrors.selection_eq fun r hr => ?_).trans hselection
    obtain rfl := Option.some.inj (hselection.symm.trans hr)
    exact Nat.le_of_eq hlength.symm
end Workspace

end Highlight
