import Highlight.Proofs.Pattern.Explore
import Mathlib.Data.List.Forall2
import Mathlib.Data.Option.Defs

/-!
# Exploring side by side

What a thread does depends on its address, not on what it has read (`addresses_of_follow`). So threads
of two programs may stand for one another (`Simulation`): if each step of the one has its counterpart
in the other, so has the whole exploration (`Simulation.explores`).

Threads may also be explored one group after the other. Where the first group does not accept, all it
has visited leads nowhere else (`Explores.closed`), and for the second group that makes no difference
but that its threads there are dropped (`Explores.avoid`).
-/

namespace Highlight.Pattern.Program

variable {code code' : Program} {p : Cursor}

/-! ## Following -/

theorem follow_eq_accept_iff {t : Thread} :
    code.follow p t = .accept ↔ code[t.address]? = some .accept := by
  unfold follow
  split <;> simp_all

theorem follow_eq_wait_iff {t : Thread} :
    code.follow p t = .wait ↔ ∃ set, code[t.address]? = some (.read set) := by
  unfold follow
  split <;> simp_all

theorem address_closeGroup (t : Thread) (index : Nat) (p : Cursor) :
    (t.closeGroup index p).address = t.address := by
  unfold Thread.closeGroup
  split <;> rfl

/-- Threads at one address go on to the same addresses. -/
theorem addresses_of_follow {t t' : Thread} {threads : List Thread} (hsame : t'.address = t.address)
    (h : code.follow p t = .goOn threads) :
    ∃ threads', code.follow p t' = .goOn threads' ∧
      threads.map (·.address) = threads'.map (·.address) := by
  unfold follow at h ⊢
  rw [hsame]
  split at h <;> cases h <;> refine ⟨_, rfl, ?_⟩
  · rfl
  · split
    · simp only [List.map_cons, List.map_nil, Thread.move, hsame]
    · rfl
  · simp only [List.map_cons, List.map_nil, Thread.move, Thread.openGroup, hsame]
  · simp only [List.map_cons, List.map_nil, Thread.move, address_closeGroup, hsame]
  · simp only [List.map_cons, List.map_nil, Thread.move, hsame]
  · simp only [List.map_cons, List.map_nil, Thread.move, hsame]

/-! ## Threads that stand for others -/

/-- Threads of one program stand for threads of another: where one waits or goes on, so does the other,
and where the first accepts, the second is sure to, over addresses that are reserved for this. Matches
that come of it correspond. -/
structure Simulation (code code' : Program) (Stands : Thread → Thread → Prop)
    (Corresponds : Match → Match → Prop) (reserved : Nat → Prop) : Prop where
  address_eq_iff {t t' s s' : Thread} (ht : Stands t t') (hs : Stands s s') :
    t'.address = s'.address ↔ t.address = s.address
  wait {p : Cursor} {t t' : Thread} (ht : Stands t t') (h : code.follow p t = .wait) :
    code'.follow p t' = .wait
  goOn {p : Cursor} {t t' : Thread} {threads : List Thread} (ht : Stands t t')
    (h : code.follow p t = .goOn threads) :
    ∃ threads', code'.follow p t' = .goOn threads' ∧ List.Forall₂ Stands threads threads'
  accept {p : Cursor} {t t' : Thread} (ht : Stands t t') (h : code.follow p t = .accept)
    {visited : List Nat} (hfree : ∀ a ∈ visited, ¬ reserved a) (hnew : t'.address ∉ visited)
    (pending : List Thread) :
    ∃ done visited', Explores code' p visited (t' :: pending) [] (some done) visited' ∧
      Corresponds (t.result p) (done.result p)
  free {p : Cursor} {t t' : Thread} (ht : Stands t t') (h : code.follow p t ≠ .accept) :
    ¬ reserved t'.address
  advance {t t' : Thread} (ht : Stands t t') (c : Char) :
    Option.Rel Stands (code.advance c t) (code'.advance c t')

section Simulation

variable {Stands : Thread → Thread → Prop} {Corresponds : Match → Match → Prop} {reserved : Nat → Prop}

/-- What is visited corresponds as well after one more step. -/
theorem Simulation.visited_cons (sim : Simulation code code' Stands Corresponds reserved)
    {visited visited' : List Nat} {t t' : Thread} (ht : Stands t t')
    (h : ∀ s s', Stands s s' → (s'.address ∈ visited' ↔ s.address ∈ visited)) (s s' : Thread)
    (hs : Stands s s') : s'.address ∈ t'.address :: visited' ↔ s.address ∈ t.address :: visited := by
  rw [List.mem_cons, List.mem_cons, sim.address_eq_iff hs ht, h s s' hs]

/-- Threads that stand for others are explored like these. -/
theorem Simulation.explores (sim : Simulation code code' Stands Corresponds reserved)
    {visited visited₁ : List Nat} {pending waiting : List Thread} {accepted : Option Thread}
    (h : Explores code p visited pending waiting accepted visited₁) {pending' : List Thread}
    {visited' : List Nat} (hpending : List.Forall₂ Stands pending pending')
    (hvisited : ∀ s s', Stands s s' → (s'.address ∈ visited' ↔ s.address ∈ visited))
    (hfree : ∀ a ∈ visited', ¬ reserved a) :
    ∃ waiting' accepted' visited₁', Explores code' p visited' pending' waiting' accepted' visited₁' ∧
      List.Forall₂ Stands waiting waiting' ∧
      Option.Rel Corresponds (accepted.map (·.result p)) (accepted'.map (·.result p)) := by
  induction h generalizing pending' visited' with
  | nil =>
    cases hpending
    exact ⟨[], none, visited', .nil, .nil, .none⟩
  | skip hmem _ ih =>
    cases hpending with
    | cons ht hpending =>
      obtain ⟨waiting', accepted', visited₁', hexplores, hrest⟩ := ih hpending hvisited hfree
      exact ⟨waiting', accepted', visited₁', .skip ((hvisited _ _ ht).2 hmem) hexplores, hrest⟩
  | accept hnew hf =>
    cases hpending with
    | cons ht hpending =>
      obtain ⟨done, visited₁', hexplores, hdone⟩ :=
        sim.accept ht hf hfree (mt (hvisited _ _ ht).1 hnew) _
      exact ⟨[], some done, visited₁', hexplores, .nil, .some hdone⟩
  | wait hnew hf _ ih =>
    cases hpending with
    | cons ht hpending =>
      have hfree' : ∀ a ∈ _ :: visited', ¬ reserved a :=
        List.forall_mem_cons.2 ⟨sim.free ht (by rw [hf]; exact Step.noConfusion), hfree⟩
      obtain ⟨waiting', accepted', visited₁', hexplores, hwaiting, haccepted⟩ :=
        ih hpending (sim.visited_cons ht hvisited) hfree'
      exact ⟨_, accepted', visited₁', .wait (mt (hvisited _ _ ht).1 hnew) (sim.wait ht hf) hexplores,
        .cons ht hwaiting, haccepted⟩
  | goOn hnew hf _ ih =>
    cases hpending with
    | cons ht hpending =>
      obtain ⟨threads', hf', hthreads⟩ := sim.goOn ht hf
      have hfree' : ∀ a ∈ _ :: visited', ¬ reserved a :=
        List.forall_mem_cons.2 ⟨sim.free ht (by rw [hf]; exact Step.noConfusion), hfree⟩
      obtain ⟨waiting', accepted', visited₁', hexplores, hrest⟩ :=
        ih (List.rel_append hthreads hpending) (sim.visited_cons ht hvisited) hfree'
      exact ⟨waiting', accepted', visited₁', .goOn (mt (hvisited _ _ ht).1 hnew) hf' hexplores, hrest⟩

end Simulation

/-- Threads at the same address stand for one another, up to what they have read: they come to the same end. -/
theorem simulation_address (code : Program) :
    Simulation code code (fun t t' => t'.address = t.address) (fun m m' => m'.stop = m.stop)
      (fun _ => False) where
  address_eq_iff ht hs := by rw [ht, hs]
  wait ht h := follow_eq_wait_iff.2 (ht ▸ follow_eq_wait_iff.1 h)
  goOn ht h := by
    obtain ⟨threads', hf, hsame⟩ := addresses_of_follow ht h
    refine ⟨threads', hf, ?_⟩
    rw [← List.forall₂_eq_eq_eq, List.forall₂_map_left_iff, List.forall₂_map_right_iff] at hsame
    exact hsame.imp fun _ _ => Eq.symm
  accept ht h _ _ hnew pending :=
    ⟨_, _, .accept hnew (follow_eq_accept_iff.2 (ht ▸ follow_eq_accept_iff.1 h)), rfl⟩
  free _ _ := not_false
  advance {t t'} ht c := by
    unfold advance
    rw [ht]
    split
    · split
      · exact .some (by simp only [Thread.move, ht])
      · exact .none
    · exact .none

/-! ## One group of threads after the other -/

theorem Explores.append_of_accepted {visited visited' : List Nat} {pending waiting : List Thread}
    {t : Thread} (h : Explores code p visited pending waiting (some t) visited')
    (more : List Thread) : Explores code p visited (pending ++ more) waiting (some t) visited' := by
  generalize haccepted : some t = accepted at h
  induction h with
  | nil => cases haccepted
  | skip hmem _ ih => exact .skip hmem (ih haccepted)
  | accept hnew hf => exact .accept hnew hf
  | wait hnew hf _ ih => exact .wait hnew hf (ih haccepted)
  | goOn hnew hf _ ih => exact .goOn hnew hf (List.append_assoc .. ▸ ih haccepted)

theorem Explores.append {visited visited' visited'' : List Nat}
    {pending waiting more behind : List Thread} {accepted : Option Thread}
    (h : Explores code p visited pending waiting none visited')
    (hmore : Explores code p visited' more behind accepted visited'') :
    Explores code p visited (pending ++ more) (waiting ++ behind) accepted visited'' := by
  generalize hnone : (none : Option Thread) = first at h
  induction h with
  | nil => exact hmore
  | skip hmem _ ih => exact .skip hmem (ih hmore hnone)
  | accept => cases hnone
  | wait hnew hf _ ih => exact .wait hnew hf (ih hmore hnone)
  | goOn hnew hf _ ih => exact .goOn hnew hf (List.append_assoc .. ▸ ih hmore hnone)

theorem Explores.follow_of_mem {visited visited' : List Nat} {pending waiting : List Thread}
    {accepted : Option Thread} (h : Explores code p visited pending waiting accepted visited')
    {t : Thread} (ht : t ∈ waiting) : code.follow p t = .wait := by
  induction h with
  | nil | accept => cases ht
  | skip _ _ ih | goOn _ _ _ ih => exact ih ht
  | wait _ hf _ ih =>
    rcases List.mem_cons.1 ht with rfl | ht
    · exact hf
    · exact ih ht

/-- Threads at these addresses do not accept, and if they go on, then to these addresses. -/
def Closed (code : Program) (p : Cursor) (addresses : List Nat) : Prop :=
  ∀ t : Thread, t.address ∈ addresses → code.follow p t = .wait ∨
    ∃ threads, code.follow p t = .goOn threads ∧ ∀ s ∈ threads, s.address ∈ addresses

/-- What was visited without accepting: all the pending threads, and where each of these led to. -/
theorem Explores.reached {visited visited' : List Nat} {pending waiting : List Thread}
    (h : Explores code p visited pending waiting none visited') :
    visited ⊆ visited' ∧ (∀ t ∈ pending, t.address ∈ visited') ∧
      ∀ a ∈ visited', a ∈ visited ∨ (∃ t ∈ waiting, t.address = a) ∨
        ∃ t threads, t.address = a ∧ code.follow p t = .goOn threads ∧
          ∀ s ∈ threads, s.address ∈ visited' := by
  generalize hnone : (none : Option Thread) = accepted at h
  induction h with
  | nil => exact ⟨List.Subset.refl _, List.forall_mem_nil _, fun a ha => .inl ha⟩
  | skip hmem _ ih =>
    obtain ⟨hsub, hpending, hall⟩ := ih hnone
    exact ⟨hsub, List.forall_mem_cons.2 ⟨hsub hmem, hpending⟩, hall⟩
  | accept => cases hnone
  | wait hnew hf _ ih =>
    obtain ⟨hsub, hpending, hall⟩ := ih hnone
    obtain ⟨ht, hsub⟩ := List.cons_subset.1 hsub
    refine ⟨hsub, List.forall_mem_cons.2 ⟨ht, hpending⟩, fun a ha => ?_⟩
    rcases hall a ha with hmem | ⟨s, hs, hsa⟩ | hgo
    · rcases List.mem_cons.1 hmem with rfl | hmem
      · exact .inr (.inl ⟨_, List.mem_cons_self, rfl⟩)
      · exact .inl hmem
    · exact .inr (.inl ⟨s, List.mem_cons_of_mem _ hs, hsa⟩)
    · exact .inr (.inr hgo)
  | goOn hnew hf _ ih =>
    obtain ⟨hsub, hpending, hall⟩ := ih hnone
    obtain ⟨ht, hsub⟩ := List.cons_subset.1 hsub
    obtain ⟨hthreads, hpending⟩ := List.forall_mem_append.1 hpending
    refine ⟨hsub, List.forall_mem_cons.2 ⟨ht, hpending⟩, fun a ha => ?_⟩
    rcases hall a ha with hmem | hrest
    · rcases List.mem_cons.1 hmem with rfl | hmem
      · exact .inr (.inr ⟨_, _, rfl, hf, hthreads⟩)
      · exact .inl hmem
    · exact .inr hrest

/-- What was visited without accepting leads nowhere else. -/
theorem Explores.closed {visited : List Nat} {pending waiting : List Thread}
    (h : Explores code p [] pending waiting none visited) : code.Closed p visited := by
  intro t ht
  obtain ⟨-, -, hall⟩ := h.reached
  rcases hall t.address ht with hmem | ⟨s, hs, hsame⟩ | ⟨s, threads, hsame, hf, hthreads⟩
  · cases hmem
  · exact .inl (follow_eq_wait_iff.2 (hsame ▸ follow_eq_wait_iff.1 (h.follow_of_mem hs)))
  · obtain ⟨threads', hf', hsame'⟩ := addresses_of_follow hsame.symm hf
    refine .inr ⟨threads', hf', fun s' hs' => ?_⟩
    obtain ⟨s, hs, hss⟩ := List.mem_map.1 (hsame' ▸ List.mem_map_of_mem hs')
    exact hss ▸ hthreads s hs

/-- Threads at visited addresses are passed over. -/
theorem Explores.of_append {visited visited' : List Nat} {pending more waiting : List Thread}
    {accepted : Option Thread} (h : Explores code p visited (pending ++ more) waiting accepted visited')
    (hvisited : ∀ t ∈ pending, t.address ∈ visited) :
    Explores code p visited more waiting accepted visited' := by
  induction pending with
  | nil => exact h
  | cons t pending ih =>
    obtain ⟨ht, hpending⟩ := List.forall_mem_cons.1 hvisited
    cases h with
    | skip _ hrest => exact ih hrest hpending
    | accept hnew | wait hnew | goOn hnew => exact absurd ht hnew

/-- Visiting an address that counts as visited changes nothing. -/
theorem visited_cons_closed {closed visited more : List Nat} {a : Nat} (ha : a ∈ closed)
    (h : ∀ b, b ∈ more ↔ b ∈ visited ∨ b ∈ closed) (b : Nat) :
    b ∈ more ↔ b ∈ a :: visited ∨ b ∈ closed := by
  rw [h, List.mem_cons, or_assoc]
  exact ⟨.inr, fun hb => hb.elim (fun hba => .inr (hba ▸ ha)) id⟩

theorem visited_cons_both {closed visited more : List Nat} (a : Nat)
    (h : ∀ b, b ∈ more ↔ b ∈ visited ∨ b ∈ closed) (b : Nat) :
    b ∈ a :: more ↔ b ∈ a :: visited ∨ b ∈ closed := by
  rw [List.mem_cons, List.mem_cons, h, or_assoc]

/-- If also `closed` addresses are visited already, threads there are dropped, and no other. -/
theorem Explores.avoid {closed visited visited' : List Nat} {pending waiting : List Thread}
    {accepted : Option Thread} (hclosed : code.Closed p closed)
    (h : Explores code p visited pending waiting accepted visited') {more : List Nat}
    (hmore : ∀ a, a ∈ more ↔ a ∈ visited ∨ a ∈ closed) :
    ∃ more', Explores code p more pending (waiting.filter (·.address ∉ closed)) accepted more' := by
  induction h generalizing more with
  | nil => exact ⟨more, .nil⟩
  | skip hmem _ ih =>
    obtain ⟨more', hexplores⟩ := ih hmore
    exact ⟨more', .skip ((hmore _).2 (.inl hmem)) hexplores⟩
  | @accept visited t pending hnew hf =>
    refine ⟨_, .accept (fun hmem => ?_) hf⟩
    rcases (hmore _).1 hmem with hmem | hmem
    · exact hnew hmem
    · rcases hclosed t hmem with hwait | ⟨threads, hgo, -⟩
      · cases hf.symm.trans hwait
      · cases hf.symm.trans hgo
  | @wait visited _ t pending waiting _ hnew hf _ ih =>
    by_cases hmem : t.address ∈ closed
    · obtain ⟨more', hexplores⟩ := ih (visited_cons_closed hmem hmore)
      rw [List.filter_cons_of_neg (by simpa using hmem)]
      exact ⟨more', .skip ((hmore _).2 (.inr hmem)) hexplores⟩
    · obtain ⟨more', hexplores⟩ := ih (visited_cons_both t.address hmore)
      rw [List.filter_cons_of_pos (by simpa using hmem)]
      exact ⟨more', .wait (fun ha => ((hmore _).1 ha).elim hnew hmem) hf hexplores⟩
  | @goOn visited _ t threads pending _ _ hnew hf _ ih =>
    by_cases hmem : t.address ∈ closed
    · obtain ⟨more', hexplores⟩ := ih (visited_cons_closed hmem hmore)
      refine ⟨more', .skip ((hmore _).2 (.inr hmem)) (hexplores.of_append fun s hs => ?_)⟩
      rcases hclosed t hmem with hwait | ⟨threads', hgo, hall⟩
      · cases hf.symm.trans hwait
      · cases hf.symm.trans hgo
        exact (hmore _).2 (.inr (hall s hs))
    · obtain ⟨more', hexplores⟩ := ih (visited_cons_both t.address hmore)
      exact ⟨more', .goOn (fun ha => ((hmore _).1 ha).elim hnew hmem) hf hexplores⟩

end Highlight.Pattern.Program
