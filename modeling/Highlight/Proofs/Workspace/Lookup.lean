import Highlight.Proofs.Workspace.Placement

/-!
# Editors of a workspace, by name

What an action leaves of the editor with some name, and of the names of its followers. An editor is
touched by what another one does only through its inbox, where it finds everything that the other one
told, as often as it follows it (`editor?_act`).
-/

namespace Highlight

/-- The editor with further updates in its inbox. -/
def Editor.posted (e : Editor) (updates : List Update) : Editor :=
  { e with inbox := e.inbox ++ updates }

theorem Editor.posted_nil (e : Editor) : e.posted [] = e := by
  rw [posted, List.append_nil]

theorem Editor.posted_posted (e : Editor) (first second : List Update) :
    (e.posted first).posted second = e.posted (first ++ second) := by
  simp only [posted, List.append_assoc]

namespace Workspace

/-- The followers of the editor with a name. -/
def followersOf (w : Workspace) (name : String) : List String :=
  ((w.member? name).map (·.followers)).getD []

variable (w : Workspace)

/-! ## Changing members -/

theorem member?_modify (name : String) (f : Member → Member) (hf : ∀ m, (f m).name = m.name)
    (k : String) :
    (w.modify name f).member? k = (w.member? k).map fun m => if k = name then f m else m := by
  have hnames : ((fun m : Member => m.name == k) ∘ fun m => if m.name = name then f m else m) =
      fun m => m.name == k := by
    funext m
    simp only [Function.comp]
    split
    · rw [hf]
    · rfl
  simp only [member?, modify, List.find?_map, hnames]
  refine Option.map_congr fun m hm => ?_
  have hk : m.name = k := by simpa using List.find?_some hm
  rw [hk]

theorem editor?_modify (name : String) (f : Member → Member) (hf : ∀ m, (f m).name = m.name)
    {g : Editor → Editor} (hg : ∀ m, (f m).editor = g m.editor) (k : String) :
    (w.modify name f).editor? k = (w.editor? k).map fun e => if k = name then g e else e := by
  rw [editor?, member?_modify w name f hf, editor?, Option.map_map, Option.map_map]
  congr 1
  funext m
  simp only [Function.comp]
  split
  · exact hg m
  · rfl

theorem followersOf_modify (name : String) (f : Member → Member) (hf : ∀ m, (f m).name = m.name)
    (hg : ∀ m, (f m).followers = m.followers) (k : String) :
    (w.modify name f).followersOf k = w.followersOf k := by
  rw [followersOf, member?_modify w name f hf, followersOf, Option.map_map]
  congr 2
  funext m
  simp only [Function.comp]
  split
  · exact hg m
  · rfl

theorem editor?_modifyEditor (name : String) (f : Editor → Editor) (k : String) :
    (w.modifyEditor name f).editor? k = (w.editor? k).map fun e => if k = name then f e else e :=
  w.editor?_modify name (fun m => { m with editor := f m.editor }) (fun _ => rfl) (fun _ => rfl) k

theorem followersOf_modifyEditor (name : String) (f : Editor → Editor) (k : String) :
    (w.modifyEditor name f).followersOf k = w.followersOf k :=
  w.followersOf_modify name (fun m => { m with editor := f m.editor }) (fun _ => rfl)
    (fun _ => rfl) k

/-! ## Deliveries -/

theorem editor?_deliverTo (update : Update) (follower k : String) :
    (w.deliverTo update follower).editor? k =
      (w.editor? k).map fun e => if k = follower then e.posted [update] else e :=
  w.editor?_modifyEditor follower _ k

/-- An update reaches an editor as often as it is among the followers. -/
theorem editor?_foldl_deliverTo (update : Update) (followers : List String) (k : String) :
    (followers.foldl (·.deliverTo update) w).editor? k =
      (w.editor? k).map (·.posted (List.replicate (followers.count k) update)) := by
  induction followers generalizing w with
  | nil => simp [Editor.posted_nil]
  | cons follower followers ih =>
    rw [List.foldl_cons, ih, editor?_deliverTo, Option.map_map]
    congr 1
    funext e
    simp only [Function.comp]
    split
    · rename_i h
      rw [h, Editor.posted_posted, List.count_cons_self, List.replicate_succ]
      rfl
    · rename_i h
      rw [List.count_cons_of_ne (Ne.symm h)]

theorem editor?_foldl_deliver (updates : List Update) (followers : List String) (k : String) :
    (updates.foldl (fun w update => followers.foldl (·.deliverTo update) w) w).editor? k =
      (w.editor? k).map (·.posted (updates.flatMap (List.replicate (followers.count k)))) := by
  induction updates generalizing w with
  | nil => simp [Editor.posted_nil]
  | cons update updates ih =>
    rw [List.foldl_cons, ih, editor?_foldl_deliverTo, Option.map_map]
    congr 1
    funext e
    exact e.posted_posted _ _

theorem followersOf_foldl_deliver (updates : List Update) (followers : List String) (k : String) :
    (updates.foldl (fun w update => followers.foldl (·.deliverTo update) w) w).followersOf k =
      w.followersOf k := by
  have hone : ∀ (update : Update) (followers : List String) (w : Workspace),
      (followers.foldl (·.deliverTo update) w).followersOf k = w.followersOf k := by
    intro update followers
    induction followers with
    | nil => exact fun _ => rfl
    | cons follower followers ih => exact fun w => (ih _).trans (w.followersOf_modifyEditor _ _ k)
  induction updates generalizing w with
  | nil => rfl
  | cons update updates ih => exact (ih _).trans (hone update followers w)

variable {w} {name : String} {e : Editor}

theorem editor?_deliverFrom (he : w.editor? name = some e) (k : String) :
    (w.deliverFrom name).editor? k = (w.editor? k).map fun e' =>
      (if k = name then { e' with outbox := [] } else e').posted
        (e.outbox.flatMap (List.replicate ((w.followersOf name).count k))) := by
  obtain ⟨m, hm, rfl⟩ := Option.map_eq_some_iff.1 he
  have hfollowers : w.followersOf name = m.followers := by rw [followersOf, hm]; rfl
  rw [deliverFrom, hm]
  simp only [editor?_foldl_deliver, editor?_modifyEditor, Option.map_map, hfollowers]
  rfl

theorem followersOf_deliverFrom (name k : String) :
    (w.deliverFrom name).followersOf k = w.followersOf k := by
  unfold deliverFrom
  split
  · rfl
  · rw [followersOf_foldl_deliver, followersOf_modifyEditor]

/-! ## Actions -/

/-- What the editor with a name does, and what others find of it in their inboxes. -/
theorem editor?_act (he : w.editor? name = some e) (a : Editor.Action) (k : String) :
    (w.perform (.act name a)).editor? k = (w.editor? k).map fun e' =>
      (if k = name then { e.act a with outbox := [] } else e').posted
        ((e.act a).outbox.flatMap (List.replicate ((w.followersOf name).count k))) := by
  have hacted : (w.modifyEditor name fun _ => e.act a).editor? name = some (e.act a) := by
    rw [editor?_modifyEditor, he, Option.map_some, if_pos rfl]
  simp only [perform, act, he, Option.map_some]
  rw [editor?_deliverFrom hacted, editor?_modifyEditor, followersOf_modifyEditor, Option.map_map]
  congr 1
  funext e'
  simp only [Function.comp]
  split <;> rfl

theorem perform_act_of_none (he : w.editor? name = none) (a : Editor.Action) :
    w.perform (.act name a) = w := by
  simp only [perform, act, he, Option.map_none]

theorem followersOf_act (name : String) (a : Editor.Action) (k : String) :
    (w.perform (.act name a)).followersOf k = w.followersOf k := by
  cases he : w.editor? name with
  | none => rw [perform_act_of_none he]
  | some e =>
    simp only [perform, act, he, Option.map_some]
    rw [followersOf_deliverFrom, followersOf_modifyEditor]

theorem editor?_link (leader follower k : String) :
    (w.link leader follower).editor? k =
      (w.editor? k).map fun e => if k = follower then e.setEditable false else e := by
  have hleader := editor?_modify (w.modifyEditor follower (·.setEditable false)) leader
    (fun m => { m with followers := m.followers ++ [follower] }) (fun _ => rfl)
    (g := id) (fun _ => rfl) k
  simp only [id, ite_self, Option.map_id'] at hleader
  rw [link, hleader, editor?_modifyEditor]

theorem followersOf_link (leader follower k : String) :
    (w.link leader follower).followersOf k =
      if k = leader ∧ (w.editor? k).isSome then w.followersOf k ++ [follower]
      else w.followersOf k := by
  let locked := w.modifyEditor follower (·.setEditable false)
  have hfollowers : locked.followersOf k = w.followersOf k :=
    w.followersOf_modifyEditor follower _ k
  have hopen : (w.editor? k).isSome = (locked.member? k).isSome := by
    have h := congrArg Option.isSome (w.editor?_modifyEditor follower (·.setEditable false) k)
    rw [Option.isSome_map] at h
    rw [← h, editor?, Option.isSome_map]
  rw [link, followersOf, member?_modify locked leader
    (fun m => { m with followers := m.followers ++ [follower] }) (fun _ => rfl), ← hfollowers,
    hopen, followersOf]
  cases locked.member? k with
  | none => simp
  | some m =>
    by_cases h : k = leader
    · simp [h]
    · simp [h]

theorem member?_close (name k : String) :
    (w.close name).member? k = if k = name then none else w.member? k := by
  simp only [member?, close, List.find?_filter]
  by_cases h : k = name
  · rw [if_pos h, List.find?_eq_none]
    intro m _
    simp [h]
  · rw [if_neg h]
    congr 1
    funext m
    by_cases hm : m.name = k
    · simp [hm, h]
    · simp [hm]

theorem editor?_close (name k : String) :
    (w.close name).editor? k = if k = name then none else w.editor? k := by
  rw [editor?, member?_close]
  split <;> rfl

theorem followersOf_close (name k : String) :
    (w.close name).followersOf k = if k = name then [] else w.followersOf k := by
  rw [followersOf, member?_close]
  split <;> rfl

end Workspace

end Highlight
