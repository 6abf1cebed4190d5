import Highlight.Pattern.Search
import Mathlib.Data.Finset.Card
import Mathlib.Data.Finset.Range

/-!
# Exploring at one position

What a search does at one position, as a relation (`Explores`): the pending threads are taken up one
after the other, one that comes to a visited address is dropped, one that waits is kept, and one that
accepts ends the exploration. There is one rule for each case, and the visited addresses are a list, so
the relation can be argued about by induction. Exploring has exactly one result (`Explores.unique`), and
`Program.settle` computes it, since it gets as far as its limit allows and the limit that it is called
with suffices (`exists_explores_settled`). Hence what is kept of threads does not depend on the
bookkeeping.
-/

namespace Highlight.Pattern.Program

/-- From some visited addresses, the pending threads lead to some that wait, perhaps to one that
accepts, and to more visited addresses. -/
inductive Explores (code : Program) (p : Cursor) :
    List Nat → List Thread → List Thread → Option Thread → List Nat → Prop where
  | nil {visited : List Nat} : Explores code p visited [] [] none visited
  | skip {visited visited' : List Nat} {t : Thread} {pending waiting : List Thread}
      {accepted : Option Thread} (h : t.address ∈ visited)
      (hrest : Explores code p visited pending waiting accepted visited') :
      Explores code p visited (t :: pending) waiting accepted visited'
  | accept {visited : List Nat} {t : Thread} {pending : List Thread} (h : t.address ∉ visited)
      (hf : code.follow p t = .accept) :
      Explores code p visited (t :: pending) [] (some t) (t.address :: visited)
  | wait {visited visited' : List Nat} {t : Thread} {pending waiting : List Thread}
      {accepted : Option Thread} (h : t.address ∉ visited) (hf : code.follow p t = .wait)
      (hrest : Explores code p (t.address :: visited) pending waiting accepted visited') :
      Explores code p visited (t :: pending) (t :: waiting) accepted visited'
  | goOn {visited visited' : List Nat} {t : Thread} {threads pending waiting : List Thread}
      {accepted : Option Thread} (h : t.address ∉ visited)
      (hf : code.follow p t = .goOn threads)
      (hrest : Explores code p (t.address :: visited) (threads ++ pending) waiting accepted visited') :
      Explores code p visited (t :: pending) waiting accepted visited'

variable {code : Program} {p : Cursor}

/-! ## The result is unique -/

theorem Explores.unique {visited visited₁ visited₂ : List Nat} {pending waiting₁ waiting₂ : List Thread}
    {accepted₁ accepted₂ : Option Thread}
    (h₁ : Explores code p visited pending waiting₁ accepted₁ visited₁)
    (h₂ : Explores code p visited pending waiting₂ accepted₂ visited₂) :
    waiting₁ = waiting₂ ∧ accepted₁ = accepted₂ ∧ visited₁ = visited₂ := by
  induction h₁ generalizing waiting₂ with
  | nil =>
    cases h₂
    exact ⟨rfl, rfl, rfl⟩
  | skip h _ ih =>
    cases h₂ with
    | skip _ hrest => exact ih hrest
    | accept hn | wait hn | goOn hn => exact absurd h hn
  | accept hn hf =>
    cases h₂ with
    | skip h => exact absurd h hn
    | accept => exact ⟨rfl, rfl, rfl⟩
    | wait _ hf' | goOn _ hf' => cases hf.symm.trans hf'
  | wait hn hf _ ih =>
    cases h₂ with
    | skip h => exact absurd h hn
    | wait _ _ hrest =>
      obtain ⟨rfl, hsame⟩ := ih hrest
      exact ⟨rfl, hsame⟩
    | accept _ hf' | goOn _ hf' => cases hf.symm.trans hf'
  | goOn hn hf _ ih =>
    cases h₂ with
    | skip h => exact absurd h hn
    | goOn _ hf' hrest =>
      cases hf.symm.trans hf'
      exact ih hrest
    | accept _ hf' | wait _ hf' => cases hf.symm.trans hf'

/-! ## Following -/

/-- An address outside of the program leads nowhere. -/
theorem follow_of_size_le {t : Thread} (h : code.size ≤ t.address) : code.follow p t = .goOn [] := by
  rw [follow, Array.getElem?_eq_none h]

theorem lt_size_of_follow {t : Thread} (h : code.follow p t ≠ .goOn []) :
    t.address < code.size :=
  Nat.lt_of_not_le fun hle => h (follow_of_size_le hle)

/-- No instruction makes more than two threads. -/
theorem length_of_follow {t : Thread} {threads : List Thread}
    (h : code.follow p t = .goOn threads) : threads.length ≤ 2 := by
  unfold follow at h
  split at h <;> cases h
  · exact Nat.zero_le _
  · split
    · exact Nat.le_succ 1
    · exact Nat.zero_le _
  · exact Nat.le_succ 1
  · exact Nat.le_succ 1
  · exact Nat.le_succ 1
  · exact Nat.le_refl 2

/-! ## What is computed -/

/-- The bookkeeping of addresses says of every address of the program whether it is in the list. -/
structure Keeps (code : Program) (v : Visited) (visited : List Nat) : Prop where
  size_eq : v.size = code.size
  contains_iff : ∀ a < code.size, v.contains a = true ↔ a ∈ visited

/-- The number of addresses of a program that have not been visited. -/
def unvisited (code : Program) (visited : List Nat) : Nat :=
  ((Finset.range code.size).filter (· ∉ visited)).card

theorem unvisited_nil_le (code : Program) : code.unvisited [] ≤ code.size :=
  (Finset.card_filter_le _ _).trans_eq (Finset.card_range _)

theorem unvisited_cons_le (code : Program) (visited : List Nat) (a : Nat) :
    code.unvisited (a :: visited) ≤ code.unvisited visited :=
  Finset.card_le_card fun _ hb =>
    have ⟨hb, hnot⟩ := Finset.mem_filter.1 hb
    Finset.mem_filter.2 ⟨hb, fun hmem => hnot (List.mem_cons_of_mem a hmem)⟩

theorem unvisited_cons_lt {visited : List Nat} {a : Nat} (ha : a < code.size) (h : a ∉ visited) :
    code.unvisited (a :: visited) < code.unvisited visited := by
  refine Finset.card_lt_card ⟨fun b hb => ?_, fun hsub => ?_⟩
  · obtain ⟨hb, hnot⟩ := Finset.mem_filter.1 hb
    exact Finset.mem_filter.2 ⟨hb, fun hmem => hnot (List.mem_cons_of_mem a hmem)⟩
  · have ha' := hsub (Finset.mem_filter.2 ⟨Finset.mem_range.2 ha, h⟩)
    exact (Finset.mem_filter.1 ha').2 List.mem_cons_self

theorem Keeps.insert {v : Visited} {visited : List Nat} (h : code.Keeps v visited) (a : Nat) :
    code.Keeps (v.insert a) (a :: visited) where
  size_eq := (Visited.size_insert v a).trans h.size_eq
  contains_iff b hb := by
    rw [Visited.contains_insert, h.size_eq, Bool.or_eq_true, h.contains_iff b hb, List.mem_cons,
      decide_eq_true_iff]
    exact or_congr_left ⟨fun hab => hab.1.symm, fun hba => ⟨hba.symm, hb⟩⟩

theorem Keeps.lt_size {v : Visited} {visited : List Nat} (h : code.Keeps v visited) {a : Nat}
    (ha : v.contains a = true) : a < code.size := by
  refine Nat.lt_of_not_le fun hle => ?_
  rw [← h.size_eq] at hle
  rw [Visited.contains, Array.getElem?_eq_none hle] at ha
  cases ha

theorem Keeps.not_mem {v : Visited} {visited : List Nat} (h : code.Keeps v visited) {a : Nat}
    (ha : ¬v.contains a = true) (hlt : a < code.size) : a ∉ visited :=
  fun hmem => ha ((h.contains_iff a hlt).2 hmem)

/-- An address that is in the list may be noted once more. -/
theorem Keeps.insert_of_mem {v : Visited} {visited : List Nat} (h : code.Keeps v visited) {a : Nat}
    (ha : a ∈ visited) : code.Keeps (v.insert a) visited where
  size_eq := (h.insert a).size_eq
  contains_iff b hb := ((h.insert a).contains_iff b hb).trans
    ⟨fun hmem => (List.mem_cons.1 hmem).elim (fun heq => heq ▸ ha) id, List.mem_cons_of_mem a⟩

/-- A new round keeps no address. -/
theorem keeps_nextRound {v : Visited} (h : v.size = code.size) : code.Keeps v.nextRound [] where
  size_eq := h
  contains_iff a _ := by simp

/-- With a limit that leaves time for every pending thread and every address not visited, exploring is
what is computed. -/
theorem exists_explores_settle (limit : Nat) (v : Visited) (visited : List Nat)
    (pending waiting : List Thread) (hv : code.Keeps v visited)
    (hlimit : pending.length + 2 * code.unvisited visited ≤ limit) :
    ∃ kept visited',
      Explores code p visited pending kept (code.settle p limit v pending waiting).accepted
        visited' ∧
      (code.settle p limit v pending waiting).waiting = waiting.reverse ++ kept ∧
      (code.settle p limit v pending waiting).visited.size = code.size := by
  fun_induction settle code p limit v pending waiting generalizing visited with
  | case1 v pending waiting =>
    have hnil : pending = [] := List.length_eq_zero_iff.1 (by omega)
    subst hnil
    exact ⟨[], visited, .nil, (List.append_nil _).symm, hv.size_eq⟩
  | case2 limit v waiting => exact ⟨[], visited, .nil, (List.append_nil _).symm, hv.size_eq⟩
  | case3 limit v t pending waiting hvisited ih =>
    rw [List.length_cons] at hlimit
    obtain ⟨kept, visited', hexplores, hwaiting, hsize⟩ := ih visited hv (by omega)
    have hmem : t.address ∈ visited := (hv.contains_iff _ (hv.lt_size hvisited)).1 hvisited
    exact ⟨kept, visited', .skip hmem hexplores, hwaiting, hsize⟩
  | case4 limit v t pending waiting hvisited v' haccept =>
    have hlt : t.address < code.size := lt_size_of_follow (by rw [haccept]; nofun)
    have hmem := hv.not_mem hvisited hlt
    exact ⟨[], _, .accept hmem haccept, (List.append_nil _).symm, (hv.insert _).size_eq⟩
  | case5 limit v t pending waiting hvisited v' hwait ih =>
    have hlt : t.address < code.size := lt_size_of_follow (by rw [hwait]; nofun)
    have hmem := hv.not_mem hvisited hlt
    have hless := unvisited_cons_lt hlt hmem
    rw [List.length_cons] at hlimit
    obtain ⟨kept, visited', hexplores, hwaiting, hsize⟩ :=
      ih (t.address :: visited) (hv.insert _) (by omega)
    refine ⟨t :: kept, visited', .wait hmem hwait hexplores, ?_, hsize⟩
    rw [hwaiting, List.reverse_cons, List.append_assoc]
    rfl
  | case6 limit v t pending waiting hvisited v' threads hgo ih =>
    rw [List.length_cons] at hlimit
    by_cases hlt : t.address < code.size
    · have hmem := hv.not_mem hvisited hlt
      have hless := unvisited_cons_lt hlt hmem
      have htwo := length_of_follow hgo
      obtain ⟨kept, visited', hexplores, hwaiting, hsize⟩ :=
        ih (t.address :: visited) (hv.insert _) (by rw [List.length_append]; omega)
      exact ⟨kept, visited', .goOn hmem hgo hexplores, hwaiting, hsize⟩
    · -- An address outside of the program is not kept, but it leads nowhere either.
      cases hgo.symm.trans (follow_of_size_le (Nat.le_of_not_lt hlt))
      by_cases hmem : t.address ∈ visited
      · obtain ⟨kept, visited', hexplores, hwaiting, hsize⟩ :=
          ih visited (hv.insert_of_mem hmem) (by rw [List.nil_append]; omega)
        exact ⟨kept, visited', .skip hmem hexplores, hwaiting, hsize⟩
      · have hless := unvisited_cons_le code visited t.address
        obtain ⟨kept, visited', hexplores, hwaiting, hsize⟩ :=
          ih (t.address :: visited) (hv.insert t.address) (by rw [List.nil_append]; omega)
        exact ⟨kept, visited', .goOn hmem hgo hexplores, hwaiting, hsize⟩

/-- What is computed at a new position is the result of exploring it. -/
theorem exists_explores_settled {v : Visited} (hv : v.size = code.size) (threads : List Thread) :
    ∃ visited', Explores code p [] threads (code.settled p v threads).waiting
        (code.settled p v threads).accepted visited' ∧
      (code.settled p v threads).visited.size = code.size := by
  obtain ⟨kept, visited', hexplores, hwaiting, hsize⟩ :=
    exists_explores_settle (p := p) (2 * code.size + threads.length + 1) v.nextRound [] threads []
      (keeps_nextRound hv) (by have := unvisited_nil_le code; omega)
  refine ⟨visited', ?_, hsize⟩
  rw [settled, hwaiting]
  exact hexplores

/-- Exploring always comes to an end. -/
theorem exists_explores (code : Program) (p : Cursor) (threads : List Thread) :
    ∃ waiting accepted visited, Explores code p [] threads waiting accepted visited :=
  have ⟨visited', h, _⟩ :=
    exists_explores_settled (p := p) (v := .new code.size) (Visited.size_new _) threads
  ⟨_, _, visited', h⟩

/-- What is computed at a new position, from what exploring it comes to. -/
theorem settled_eq {v : Visited} (hv : v.size = code.size) {threads waiting : List Thread}
    {accepted : Option Thread} {visited : List Nat}
    (h : Explores code p [] threads waiting accepted visited) :
    (code.settled p v threads).waiting = waiting ∧ (code.settled p v threads).accepted = accepted ∧
      (code.settled p v threads).visited.size = code.size := by
  obtain ⟨visited', hexplores, hsize⟩ := exists_explores_settled hv threads
  obtain ⟨hwaiting, haccepted, -⟩ := hexplores.unique h
  exact ⟨hwaiting, haccepted, hsize⟩

end Highlight.Pattern.Program
