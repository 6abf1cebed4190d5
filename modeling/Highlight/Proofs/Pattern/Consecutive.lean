import Highlight.Pattern.Search

/-!
# Matches follow one another

Whatever the program is, the first match from a position on starts there or later and ends within
the text (`Program.within_search`): reading goes forwards only, and every thread knows where it
started. So the matches of a text are pieces of it that follow one another without overlap
(`consecutive_findAll`), and every character is in one of them at most.
-/

namespace Highlight.Pattern

/-- The match starts at `low` or later, in a text that ends at `high`. -/
structure Match.Within (m : Match) (low high : Nat) : Prop where
  low_le : low ≤ m.start.offset
  start_le : m.start.offset ≤ m.stop.offset
  ends : m.stop.offset + m.stop.rest.length = high

/-- Matches of some text each, from `low` on, one behind the other up to `high`. -/
structure Consecutive (low high : Nat) (ms : List Match) : Prop where
  bounds : ∀ m ∈ ms, low ≤ m.start.offset ∧ m.start.offset < m.stop.offset ∧ m.stop.offset ≤ high
  disjoint : ms.Pairwise fun m n => m.stop.offset ≤ n.start.offset

theorem Match.Within.stop_le {m : Match} {low high : Nat} (h : m.Within low high) :
    m.stop.offset ≤ high := by
  rw [← h.ends]
  exact Nat.le_add_right _ _

theorem Consecutive.mono {low low' high : Nat} {ms : List Match} (h : Consecutive low high ms)
    (hle : low' ≤ low) : Consecutive low' high ms where
  bounds m hm := ⟨Nat.le_trans hle (h.bounds m hm).1, (h.bounds m hm).2⟩
  disjoint := h.disjoint

theorem Consecutive.cons {low high : Nat} {m : Match} {ms : List Match} (hm : m.Within low high)
    (hne : m.isEmpty = false) (h : Consecutive m.stop.offset high ms) :
    Consecutive low high (m :: ms) where
  bounds := by
    have hlt : m.start.offset < m.stop.offset := by
      refine Nat.lt_of_le_of_ne hm.start_le fun he => ?_
      rw [Match.isEmpty, he, beq_self_eq_true] at hne
      cases hne
    refine List.forall_mem_cons.2 ⟨⟨hm.low_le, hlt, hm.stop_le⟩, fun n hn => ?_⟩
    obtain ⟨hstart, hrest⟩ := h.bounds n hn
    exact ⟨Nat.le_trans (Nat.le_of_lt (Nat.lt_of_le_of_lt hm.low_le hlt)) hstart, hrest⟩
  disjoint := List.pairwise_cons.2 ⟨fun n hn => (h.bounds n hn).1, h.disjoint⟩

namespace Program

variable {code : Program}

/-! ## Threads keep their start -/

theorem start_closeGroup (t : Thread) (index : Nat) (p : Cursor) :
    (t.closeGroup index p).start = t.start := by
  unfold Thread.closeGroup
  split <;> rfl

theorem start_of_follow {p : Cursor} {t t' : Thread} {threads : List Thread}
    (h : code.follow p t = .goOn threads) (ht : t' ∈ threads) : t'.start = t.start := by
  unfold follow at h
  split at h <;> cases h
  · cases ht
  · split at ht
    · rw [List.mem_singleton.1 ht]
      rfl
    · cases ht
  · rw [List.mem_singleton.1 ht]
    rfl
  · rw [List.mem_singleton.1 ht]
    exact start_closeGroup t _ p
  · rw [List.mem_singleton.1 ht]
    rfl
  · rcases List.mem_cons.1 ht with rfl | ht
    · rfl
    · rw [List.mem_singleton.1 ht]
      rfl

theorem start_of_advance {c : Char} {t t' : Thread} (h : code.advance c t = some t') :
    t'.start = t.start := by
  unfold advance at h
  split at h
  · split at h <;> cases h
    rfl
  · cases h

variable (code) in
/-- The ways to go on started where some thread did. -/
theorem start_of_settle {p : Cursor} {P : Cursor → Prop} (limit : Nat) (visited : Visited)
    {pending waiting : List Thread} (hp : ∀ t ∈ pending, P t.start)
    (hw : ∀ t ∈ waiting, P t.start) :
    (∀ t ∈ (code.settle p limit visited pending waiting).waiting, P t.start) ∧
      ∀ t ∈ (code.settle p limit visited pending waiting).accepted, P t.start := by
  have hreverse : ∀ t ∈ waiting.reverse, P t.start := fun t ht => hw t (List.mem_reverse.1 ht)
  fun_induction settle code p limit visited pending waiting with
  | case1 | case2 => exact ⟨hreverse, nofun⟩
  | case3 limit visited t pending waiting hvisited ih =>
    exact ih (List.forall_mem_cons.1 hp).2 hw hreverse
  | case4 limit visited t pending waiting hvisited visited' haccept =>
    refine ⟨hreverse, fun t' ht' => ?_⟩
    cases ht'
    exact (List.forall_mem_cons.1 hp).1
  | case5 limit visited t pending waiting hvisited visited' hwait ih =>
    obtain ⟨ht, hp⟩ := List.forall_mem_cons.1 hp
    have hw' : ∀ t' ∈ t :: waiting, P t'.start := List.forall_mem_cons.2 ⟨ht, hw⟩
    exact ih hp hw' fun t' ht' => hw' t' (List.mem_reverse.1 ht')
  | case6 limit visited t pending waiting hvisited visited' threads hgo ih =>
    obtain ⟨ht, hp⟩ := List.forall_mem_cons.1 hp
    refine ih (fun t' ht' => ?_) hw hreverse
    rcases List.mem_append.1 ht' with ht' | ht'
    · rw [start_of_follow hgo ht']
      exact ht
    · exact hp t' ht'

/-! ## Searching -/

variable (code) in
/-- At a position, the ways to go on and the best match so far started at `low` or later, if the
threads that came there and the best match before did. -/
theorem within_settled {low high : Nat} {p : Cursor} (visited : Visited) {threads : List Thread}
    {best : Option Match} (hlow : low ≤ p.offset) (hend : p.offset + p.rest.length = high)
    (hthreads : ∀ t ∈ threads, low ≤ t.start.offset ∧ t.start.offset ≤ p.offset)
    (hbest : ∀ b ∈ best, b.Within low high) :
    let next := code.settled p visited (if best.isNone then threads ++ [.new p] else threads)
    (∀ t ∈ next.waiting, low ≤ t.start.offset ∧ t.start.offset ≤ p.offset) ∧
      ∀ b ∈ (next.accepted.map (·.result p)).or best, b.Within low high := by
  intro next
  have hpending : ∀ t ∈ (if best.isNone then threads ++ [.new p] else threads),
      low ≤ t.start.offset ∧ t.start.offset ≤ p.offset := by
    intro t ht
    split at ht
    · rcases List.mem_append.1 ht with ht | ht
      · exact hthreads t ht
      · rw [List.mem_singleton.1 ht]
        exact ⟨hlow, Nat.le_refl _⟩
    · exact hthreads t ht
  obtain ⟨hwaiting, haccepted⟩ := start_of_settle code (p := p)
    (P := fun c => low ≤ c.offset ∧ c.offset ≤ p.offset) _ visited.nextRound hpending
    (List.forall_mem_nil _)
  refine ⟨hwaiting, fun b hb => ?_⟩
  cases ha : next.accepted with
  | none =>
    rw [ha] at hb
    exact hbest b hb
  | some t =>
    rw [ha] at hb
    cases hb
    obtain ⟨hstart, hstop⟩ := haccepted t ha
    exact ⟨hstart, hstop, hend⟩

theorem within_searchFrom {low high offset : Nat} {visited : Visited} {threads : List Thread}
    {best : Option Match} {before : Option Char} {rest : List Char} {m : Match}
    (hlow : low ≤ offset) (hend : offset + rest.length = high)
    (hthreads : ∀ t ∈ threads, low ≤ t.start.offset ∧ t.start.offset ≤ offset)
    (hbest : ∀ b ∈ best, b.Within low high)
    (h : code.searchFrom visited threads best offset before rest = some m) : m.Within low high := by
  -- Induction on the text that is left; what one position keeps is `within_settled`.
  induction rest generalizing visited threads best offset before with
  | nil =>
    obtain ⟨-, hnext⟩ :=
      within_settled code (p := ⟨offset, before, []⟩) visited hlow hend hthreads hbest
    rw [searchFrom] at h
    exact hnext m h
  | cons c rest ih =>
    obtain ⟨hwaiting, hnext⟩ :=
      within_settled code (p := ⟨offset, before, c :: rest⟩) visited hlow hend hthreads hbest
    rw [searchFrom] at h
    generalize code.settled _ _ _ = next at h hwaiting hnext
    simp only at h
    split at h
    · exact hnext m h
    · refine ih (Nat.le_succ_of_le hlow) ?_ (fun t ht => ?_) hnext h
      · rw [List.length_cons] at hend
        omega
      · obtain ⟨t', ht', hadvance⟩ := List.mem_filterMap.1 ht
        rw [start_of_advance hadvance]
        exact ⟨(hwaiting t' ht').1, Nat.le_succ_of_le (hwaiting t' ht').2⟩

/-- The first match from a position on. -/
theorem within_search {p : Cursor} {m : Match} (h : code.search p = some m) :
    m.Within p.offset (p.offset + p.rest.length) :=
  within_searchFrom (Nat.le_refl _) rfl (List.forall_mem_nil _)
    (fun b hb => (Option.not_mem_none b hb).elim) h

theorem offset_next (p : Cursor) :
    p.offset ≤ p.next.offset ∧ p.next.offset + p.next.rest.length = p.offset + p.rest.length := by
  obtain ⟨offset, before, rest⟩ := p
  cases rest with
  | nil => exact ⟨Nat.le_refl _, rfl⟩
  | cons c rest =>
    refine ⟨Nat.le_succ _, ?_⟩
    simp only [Cursor.next, List.length_cons]
    omega

/-- Each search begins where the match before ended, or one character further. -/
theorem consecutive_searchAll (limit : Nat) (p : Cursor) :
    Consecutive p.offset (p.offset + p.rest.length) (code.searchAll limit p) := by
  have hnil : Consecutive p.offset (p.offset + p.rest.length) [] := ⟨nofun, .nil⟩
  induction limit generalizing p with
  | zero => exact hnil
  | succ limit ih =>
    rw [searchAll]
    cases hm : code.search p with
    | none => exact hnil
    | some m =>
      have hwithin := within_search hm
      have hle : p.offset ≤ m.stop.offset := Nat.le_trans hwithin.low_le hwithin.start_le
      have hbehind := ih m.stop ⟨nofun, .nil⟩
      rw [hwithin.ends] at hbehind
      simp only
      split
      · split
        · exact hnil
        · obtain ⟨hnext, hend⟩ := offset_next m.stop
          have hfurther := ih m.stop.next ⟨nofun, .nil⟩
          rw [hend, hwithin.ends] at hfurther
          exact hfurther.mono (Nat.le_trans hle hnext)
      · rename_i hne
        exact hbehind.cons hwithin (Bool.not_eq_true _ ▸ hne)

end Program

/-- The matches of a text are pieces of it that follow one another without overlap. -/
theorem consecutive_findAll (p : Pattern) (text : String) :
    Consecutive 0 text.length (p.findAll text) := by
  have h := p.expr.program.consecutive_searchAll text.length (.start text.toList)
  rwa [Cursor.start, Nat.zero_add, String.length_toList] at h

end Highlight.Pattern
