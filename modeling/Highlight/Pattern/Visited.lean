/-!
# Addresses visited

The set of the addresses that a search has come to at one position of a text. For every address the
round is kept in which it was visited last, so a new round, in which no address has been visited
yet, takes no more than counting it.

* `Visited.contains_insert`: what a visit changes;
* `Visited.contains_nextRound`: in a new round nothing has been visited.
-/

namespace Highlight.Pattern

/-- The addresses visited in the current round. -/
structure Visited where
  /-- The round of the last visit, address by address. -/
  rounds : Array Nat
  /-- The current round. -/
  round : Nat
  le_round : ∀ r ∈ rounds, r ≤ round

namespace Visited

/-- No visits yet, of addresses below `size`. -/
def new (size : Nat) : Visited where
  rounds := .replicate size 0
  round := 1
  le_round r hr := by simp [Array.eq_of_mem_replicate hr]

/-- Whether an address was visited in this round. -/
def contains (v : Visited) (address : Nat) : Bool := v.rounds[address]? == some v.round

/-- An address is visited; those that do not exist cannot be. -/
def insert (v : Visited) (address : Nat) : Visited where
  rounds := v.rounds.setIfInBounds address v.round
  round := v.round
  le_round r hr := by
    rcases Array.mem_or_eq_of_mem_setIfInBounds hr with h | rfl
    · exact v.le_round r h
    · exact Nat.le_refl _

/-- A new round. -/
def nextRound (v : Visited) : Visited where
  rounds := v.rounds
  round := v.round + 1
  le_round r hr := Nat.le_succ_of_le (v.le_round r hr)

/-- The number of addresses that can be visited. -/
def size (v : Visited) : Nat := v.rounds.size

@[simp]
theorem size_new (size : Nat) : (new size).size = size := Array.size_replicate ..

@[simp]
theorem size_insert (v : Visited) (address : Nat) : (v.insert address).size = v.size :=
  Array.size_setIfInBounds ..

theorem contains_insert (v : Visited) (a b : Nat) :
    (v.insert a).contains b = (decide (a = b ∧ b < v.size) || v.contains b) := by
  simp only [contains, insert, size, Array.getElem?_setIfInBounds]
  by_cases h : a = b
  · subst h
    by_cases h : a < v.rounds.size <;> simp [h]
  · simp [h]

@[simp]
theorem contains_nextRound (v : Visited) (address : Nat) : v.nextRound.contains address = false := by
  simp only [contains, nextRound]
  match h : v.rounds[address]? with
  | none => rfl
  | some r =>
    have := v.le_round r (Array.mem_of_getElem? h)
    simp only [Option.some_beq_some, beq_eq_false_iff_ne]
    omega

end Visited

end Highlight.Pattern
