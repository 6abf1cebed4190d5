import Highlight.Proofs.Pattern.Consecutive
import Highlight.Proofs.Pattern.Simulation

/-!
# Matches that begin at a position

`Program.attempt` is the match that some threads at a position come to, where no new thread starts
further on. Of several threads the first one that comes to a match decides (`attempt_append`): what it
has visited before makes a difference only to threads that come to nothing. So a search takes the
first position at which a new thread comes to a match, and the match that this thread comes to
(`search_eq`); in particular the match that begins at a position, if there is one, is what an attempt
there comes to (`matchAt_eq`).
-/

namespace Highlight.Pattern

/-- What holds of the end of a text and, if it holds of the next position, of every position. -/
@[elab_as_elim]
theorem Cursor.induction {motive : Cursor → Prop}
    (last : ∀ p : Cursor, p.rest = [] → motive p)
    (step : ∀ (p : Cursor) (c : Char) (rest : List Char), p.rest = c :: rest → motive p.next → motive p)
    (p : Cursor) : motive p := by
  obtain ⟨offset, before, rest⟩ := p
  induction rest generalizing offset before with
  | nil => exact last _ rfl
  | cons c rest ih => exact step _ c rest rfl (ih (offset + 1) (some c))

namespace Program

variable {code code' : Program}

/-- The match that threads come to in the text `rest`, which begins at `offset` behind the character
`before`. -/
def attemptFrom (code : Program) (offset : Nat) (before : Option Char) (rest : List Char)
    (threads : List Thread) : Option Match :=
  let p : Cursor := ⟨offset, before, rest⟩
  let next := code.settled p (.new code.size) threads
  let accepted := next.accepted.map (·.result p)
  match rest with
  | [] => accepted
  | c :: rest =>
    (code.attemptFrom (offset + 1) (some c) rest (next.waiting.filterMap (code.advance c))).or accepted

/-- The match that threads at a position come to. -/
def attempt (code : Program) (p : Cursor) (threads : List Thread) : Option Match :=
  code.attemptFrom p.offset p.before p.rest threads

section Exploring

variable {p : Cursor} {threads waiting : List Thread} {accepted : Option Thread} {visited : List Nat}

theorem attempt_of_end (hp : p.rest = []) (h : Explores code p [] threads waiting accepted visited) :
    code.attempt p threads = accepted.map (·.result p) := by
  obtain ⟨offset, before, rest⟩ := p
  cases hp
  rw [attempt, attemptFrom, (settled_eq (Visited.size_new _) h).2.1]

theorem attempt_of_cons {c : Char} {rest : List Char} (hp : p.rest = c :: rest)
    (h : Explores code p [] threads waiting accepted visited) :
    code.attempt p threads =
      (code.attempt p.next (waiting.filterMap (code.advance c))).or (accepted.map (·.result p)) := by
  obtain ⟨offset, before, rest⟩ := p
  cases hp
  obtain ⟨hwaiting, haccepted, -⟩ := settled_eq (Visited.size_new _) h
  rw [attempt, attemptFrom, hwaiting, haccepted]
  rfl

theorem attempt_nil (code : Program) (p : Cursor) : code.attempt p [] = none := by
  induction p using Cursor.induction with
  | last p hp => exact attempt_of_end hp .nil
  | step p c rest hp ih =>
    rw [attempt_of_cons hp .nil]
    exact (Option.or_none).trans ih

end Exploring

/-! ## Threads that stand for others -/

theorem Simulation.attempt {Stands : Thread → Thread → Prop} {Corresponds : Match → Match → Prop}
    {reserved : Nat → Prop} (sim : Simulation code code' Stands Corresponds reserved) (p : Cursor)
    {threads threads' : List Thread} (h : List.Forall₂ Stands threads threads') :
    Option.Rel Corresponds (code.attempt p threads) (code'.attempt p threads') := by
  induction p using Cursor.induction generalizing threads threads' with
  | last p hp =>
    obtain ⟨waiting, accepted, visited, hexplores⟩ := exists_explores code p threads
    obtain ⟨waiting', accepted', visited', hexplores', -, haccepted⟩ :=
      sim.explores hexplores h (fun _ _ _ => iff_of_false List.not_mem_nil List.not_mem_nil)
        (List.forall_mem_nil _)
    rw [attempt_of_end hp hexplores, attempt_of_end hp hexplores']
    exact haccepted
  | step p c rest hp ih =>
    obtain ⟨waiting, accepted, visited, hexplores⟩ := exists_explores code p threads
    obtain ⟨waiting', accepted', visited', hexplores', hwaiting, haccepted⟩ :=
      sim.explores hexplores h (fun _ _ _ => iff_of_false List.not_mem_nil List.not_mem_nil)
        (List.forall_mem_nil _)
    rw [attempt_of_cons hp hexplores, attempt_of_cons hp hexplores']
    have hadvance := ih (List.rel_filterMap (R := Stands) (fun _ _ ht => sim.advance ht c) hwaiting)
    revert hadvance
    generalize code.attempt p.next _ = m, code'.attempt p.next _ = m'
    intro hadvance
    cases hadvance with
    | some hm => exact .some hm
    | none => exact haccepted

/-- Whether a thread comes to a match depends on its address only. -/
theorem isSome_attempt_congr (p : Cursor) {t t' : Thread} (h : t'.address = t.address) :
    (code.attempt p [t']).isSome = (code.attempt p [t]).isSome := by
  have hrel := (simulation_address code).attempt p (.cons h .nil)
  generalize code.attempt p [t] = m, code.attempt p [t'] = m' at hrel
  cases hrel <;> rfl

/-! ## The first thread decides -/

/-- The first thread that comes to a match decides. -/
theorem attempt_eq_findSome? {p : Cursor}
    (h : ∀ first more, code.attempt p (first ++ more) = (code.attempt p first).or (code.attempt p more))
    (threads : List Thread) :
    code.attempt p threads = threads.findSome? fun t => code.attempt p [t] := by
  induction threads with
  | nil => exact attempt_nil code p
  | cons t threads ih =>
    have ht := h [t] threads
    rw [List.singleton_append] at ht
    rw [ht, List.findSome?_cons, ih]
    cases code.attempt p [t] <;> rfl

/-- Threads at addresses that others visited come to nothing further on if these do. -/
theorem findSome?_filter_visited {p : Cursor} {first waiting behind : List Thread} {visited : List Nat}
    (hfirst : Explores code p [] first waiting none visited) {c : Char}
    (hnone : ∀ t ∈ waiting.filterMap (code.advance c), code.attempt p.next [t] = none)
    (hbehind : ∀ t ∈ behind, code.follow p t = .wait) :
    ((behind.filter (·.address ∉ visited)).filterMap (code.advance c)).findSome?
        (fun t => code.attempt p.next [t]) =
      (behind.filterMap (code.advance c)).findSome? fun t => code.attempt p.next [t] := by
  induction behind with
  | nil => rfl
  | cons t behind ih =>
    obtain ⟨ht, hbehind⟩ := List.forall_mem_cons.1 hbehind
    by_cases hmem : t.address ∈ visited
    · rw [List.filter_cons_of_neg (by simpa using hmem), ih hbehind]
      obtain ⟨-, -, hall⟩ := hfirst.reached
      rcases hall t.address hmem with hmem | ⟨s, hs, hsame⟩ | ⟨s, threads, hsame, hf, -⟩
      · cases hmem
      · cases hadvance : code.advance c t with
        | none => rw [List.filterMap_cons_none hadvance]
        | some t' =>
          have hrel := (simulation_address code).advance hsame c
          rw [hadvance] at hrel
          -- The thread that was there before has read the same character.
          obtain ⟨s', hs', hsame'⟩ : ∃ s', code.advance c s = some s' ∧ t'.address = s'.address := by
            generalize hr : code.advance c s = r at hrel
            cases hrel with
            | some h => exact ⟨_, rfl, h.symm⟩
          have hs'none := hnone s' (List.mem_filterMap.2 ⟨s, hs, hs'⟩)
          have ht'none : code.attempt p.next [t'] = none := by
            rw [← Option.not_isSome_iff_eq_none, isSome_attempt_congr p.next hsame', hs'none]
            exact Bool.noConfusion
          rw [List.filterMap_cons_some hadvance, List.findSome?_cons, ht'none]
      · obtain ⟨threads', hf', -⟩ := addresses_of_follow hsame.symm hf
        cases ht.symm.trans hf'
    · rw [List.filter_cons_of_pos (by simpa using hmem)]
      cases hadvance : code.advance c t with
      | none => rw [List.filterMap_cons_none hadvance, List.filterMap_cons_none hadvance, ih hbehind]
      | some t' =>
        rw [List.filterMap_cons_some hadvance, List.filterMap_cons_some hadvance,
          List.findSome?_cons, List.findSome?_cons, ih hbehind]

/-- Of two groups of threads the first one decides if it comes to a match. -/
theorem attempt_append (code : Program) (p : Cursor) (first more : List Thread) :
    code.attempt p (first ++ more) = (code.attempt p first).or (code.attempt p more) := by
  have hboth (visited : List Nat) (a : Nat) : a ∈ visited ↔ a ∈ [] ∨ a ∈ visited :=
    (or_iff_right List.not_mem_nil).symm
  -- Induction on the text; the threads that wait are the same but for those at visited addresses.
  induction p using Cursor.induction generalizing first more with
  | last p hp =>
    obtain ⟨waiting, accepted, visited, hfirst⟩ := exists_explores code p first
    obtain ⟨behind, accepted', visited', hmore⟩ := exists_explores code p more
    rw [attempt_of_end hp hfirst, attempt_of_end hp hmore]
    cases accepted with
    | some t => exact attempt_of_end hp (hfirst.append_of_accepted more)
    | none =>
      obtain ⟨visited'', hmore'⟩ := hmore.avoid hfirst.closed (hboth visited)
      exact attempt_of_end hp (hfirst.append hmore')
  | step p c rest hp ih =>
    obtain ⟨waiting, accepted, visited, hfirst⟩ := exists_explores code p first
    obtain ⟨behind, accepted', visited', hmore⟩ := exists_explores code p more
    rw [attempt_of_cons hp hfirst, attempt_of_cons hp hmore]
    cases accepted with
    | some t =>
      rw [attempt_of_cons hp (hfirst.append_of_accepted more), Option.map_some]
      cases code.attempt p.next (waiting.filterMap (code.advance c)) <;> rfl
    | none =>
      obtain ⟨visited'', hmore'⟩ := hmore.avoid hfirst.closed (hboth visited)
      rw [attempt_of_cons hp (hfirst.append hmore'), List.filterMap_append, ih, Option.map_none,
        Option.or_none, Option.or_assoc]
      cases hnone : code.attempt p.next (waiting.filterMap (code.advance c)) with
      | some m => rfl
      | none =>
        rw [attempt_eq_findSome? ih, List.findSome?_eq_none_iff] at hnone
        rw [Option.none_or, Option.none_or, attempt_eq_findSome? ih, attempt_eq_findSome? ih,
          findSome?_filter_visited hfirst hnone fun t ht => hmore.follow_of_mem ht]

/-! ## Searching -/

/-- Once there is a match, what the threads come to is preferred to it. -/
theorem searchFrom_some {v : Visited} (hv : v.size = code.size) (threads : List Thread) (best : Match)
    (p : Cursor) :
    code.searchFrom v threads (some best) p.offset p.before p.rest =
      (code.attempt p threads).or (some best) := by
  induction p using Cursor.induction generalizing v threads best with
  | last p hp =>
    obtain ⟨offset, before, rest⟩ := p
    cases hp
    obtain ⟨waiting, accepted, visited, h⟩ := exists_explores code ⟨offset, before, []⟩ threads
    obtain ⟨-, haccepted, -⟩ := settled_eq hv h
    rw [attempt_of_end rfl h, searchFrom]
    simp only [Option.isNone_some, Bool.false_eq_true, if_false, haccepted]
  | step p c rest hp ih =>
    obtain ⟨offset, before, rest⟩ := p
    cases hp
    obtain ⟨waiting, accepted, visited, h⟩ := exists_explores code ⟨offset, before, c :: rest⟩ threads
    obtain ⟨hwaiting, haccepted, hsize⟩ := settled_eq hv h
    rw [attempt_of_cons rfl h, searchFrom]
    simp only [Option.isNone_some, Bool.false_eq_true, if_false, haccepted, hwaiting]
    obtain ⟨best', hbest⟩ :
        ∃ best', (accepted.map (·.result ⟨offset, before, c :: rest⟩)).or (some best) = some best' := by
      cases accepted <;> exact ⟨_, rfl⟩
    rw [Option.or_assoc, hbest]
    split
    · rename_i hempty
      rw [Option.isSome_some, Bool.true_and, List.isEmpty_iff] at hempty
      rw [hempty, List.filterMap_nil, attempt_nil, Option.none_or]
    · exact ih hsize _ best'

/-- As long as there is no match, a new thread starts at every position. -/
theorem searchFrom_none {v : Visited} (hv : v.size = code.size) (threads : List Thread) (p : Cursor) :
    code.searchFrom v threads none p.offset p.before p.rest =
      (code.attempt p (threads ++ [.new p])).or
        (if p.rest = [] then none else code.search p.next) := by
  induction p using Cursor.induction generalizing v threads with
  | last p hp =>
    obtain ⟨offset, before, rest⟩ := p
    cases hp
    obtain ⟨waiting, accepted, visited, h⟩ :=
      exists_explores code ⟨offset, before, []⟩ (threads ++ [.new ⟨offset, before, []⟩])
    obtain ⟨-, haccepted, -⟩ := settled_eq hv h
    rw [attempt_of_end rfl h, searchFrom]
    simp only [Option.isNone_none, if_true, haccepted]
  | step p c rest hp ih =>
    obtain ⟨offset, before, rest⟩ := p
    cases hp
    obtain ⟨waiting, accepted, visited, h⟩ :=
      exists_explores code ⟨offset, before, c :: rest⟩ (threads ++ [.new ⟨offset, before, c :: rest⟩])
    obtain ⟨hwaiting, haccepted, hsize⟩ := settled_eq hv h
    rw [attempt_of_cons rfl h, searchFrom]
    simp only [Option.isNone_none, if_true, haccepted, hwaiting, reduceCtorEq, if_false, Option.or_none]
    cases accepted with
    | some t =>
      simp only [Option.map_some, Option.isSome_some, Bool.true_and]
      split
      · rename_i hempty
        rw [List.isEmpty_iff.1 hempty, List.filterMap_nil, attempt_nil]
        rfl
      · refine (searchFrom_some hsize _ _ (Cursor.next ⟨offset, before, c :: rest⟩)).trans ?_
        rw [Option.or_assoc]
        rfl
    | none =>
      -- The new threads of the next position come behind those that go on.
      have hnext := ih hsize (waiting.filterMap (code.advance c))
      have hsearch := ih (v := .new code.size) (Visited.size_new _) []
      rw [attempt_append, Option.or_assoc] at hnext
      simp only [Option.map_none, Option.isSome_none, Bool.false_and, Bool.false_eq_true, if_false,
        Option.or_none]
      refine hnext.trans (congrArg _ ?_)
      exact hsearch.symm

/-- The first match is what a new thread comes to at the first position at which it comes to one. -/
theorem search_eq (code : Program) (p : Cursor) :
    code.search p =
      (code.attempt p [.new p]).or (if p.rest = [] then none else code.search p.next) :=
  searchFrom_none (Visited.size_new _) [] p

/-- A match begins where its thread started. -/
theorem start_of_attempt {p : Cursor} {start : Cursor} {threads : List Thread} {m : Match}
    (hthreads : ∀ t ∈ threads, t.start = start) (h : code.attempt p threads = some m) :
    m.start = start := by
  have hsettled (p : Cursor) {threads : List Thread} (hthreads : ∀ t ∈ threads, t.start = start) :
      (∀ t ∈ (code.settled p (.new code.size) threads).waiting, t.start = start) ∧
        ∀ t ∈ (code.settled p (.new code.size) threads).accepted, t.start = start :=
    start_of_settle code (P := (· = start)) _ _ hthreads (List.forall_mem_nil _)
  induction p using Cursor.induction generalizing threads with
  | last p hp =>
    obtain ⟨waiting, accepted, visited, hexplores⟩ := exists_explores code p threads
    obtain ⟨hwaiting, haccepted, -⟩ := settled_eq (Visited.size_new _) hexplores
    rw [attempt_of_end hp hexplores, Option.map_eq_some_iff] at h
    obtain ⟨t, ht, rfl⟩ := h
    exact (hsettled p hthreads).2 t (haccepted.trans ht)
  | step p c rest hp ih =>
    obtain ⟨waiting, accepted, visited, hexplores⟩ := exists_explores code p threads
    obtain ⟨hwaiting, haccepted, -⟩ := settled_eq (Visited.size_new _) hexplores
    rw [attempt_of_cons hp hexplores, Option.or_eq_some_iff] at h
    rcases h with h | ⟨-, h⟩
    · refine ih (fun t ht => ?_) h
      obtain ⟨s, hs, hadvance⟩ := List.mem_filterMap.1 ht
      rw [start_of_advance hadvance]
      exact (hsettled p hthreads).1 s (hwaiting ▸ hs)
    · obtain ⟨t, ht, rfl⟩ := Option.map_eq_some_iff.1 h
      exact (hsettled p hthreads).2 t (haccepted.trans ht)

end Program

/-- The preferred match that begins at a position. -/
def matchAt (p : Pattern) (c : Cursor) : Option Match :=
  (p.expr.program.search c).filter fun m => m.start = c

/-- The match that begins at a position is what a new thread comes to. -/
theorem matchAt_eq (p : Pattern) (c : Cursor) :
    p.matchAt c = p.expr.program.attempt c [.new c] := by
  rw [matchAt, Program.search_eq]
  cases hm : p.expr.program.attempt c [.new c] with
  | some m =>
    have hstart : m.start = c := Program.start_of_attempt (List.forall_mem_singleton.2 rfl) hm
    rw [Option.some_or, Option.filter_some, if_pos (decide_eq_true hstart)]
  | none =>
    rw [Option.none_or, Option.filter_eq_none_iff]
    intro m hmem hstart
    split at hmem
    · cases hmem
    · rename_i hne
      -- A match found further on begins further on.
      have hle := (Program.within_search hmem).low_le
      rw [of_decide_eq_true hstart] at hle
      obtain ⟨offset, before, rest⟩ := c
      cases rest with
      | nil => exact hne rfl
      | cons c rest => exact Nat.not_succ_le_self offset hle

end Highlight.Pattern
