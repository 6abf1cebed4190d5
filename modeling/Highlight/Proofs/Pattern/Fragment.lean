import Highlight.Pattern.Program
import Mathlib.Algebra.BigOperators.Group.List.Basic
import Mathlib.Algebra.Ring.Int.Defs

/-!
# Pieces of programs

The instructions of an expression can be entered at their beginning and left at their end only: jumps
stay within them, groups are closed that were opened there, and as many groups are open wherever a jump
leads to as where it comes from (`Fragment`). This is shown of every way of putting instructions together
and so of the instructions of every expression (`Expr.fragment_code`).
-/

namespace Highlight.Pattern

/-- By how many an instruction changes the number of open groups. -/
def Instr.weight : Instr → Int
  | openGroup _ => 1
  | closeGroup _ => -1
  | _ => 0

/-- Where an instruction may go on other than at the next one. -/
def Instr.offsets : Instr → List Int
  | jump offset => [offset]
  | fork preferred other => [preferred, other]
  | _ => []

/-- The number of groups that are open behind some instructions. -/
def balance (code : List Instr) : Int := (code.map Instr.weight).sum

@[simp]
theorem balance_nil : balance [] = 0 := rfl

@[simp]
theorem balance_cons (i : Instr) (code : List Instr) : balance (i :: code) = i.weight + balance code :=
  List.sum_cons

@[simp]
theorem balance_append (code code' : List Instr) :
    balance (code ++ code') = balance code + balance code' := by
  rw [balance, List.map_append, List.sum_append, balance, balance]

@[simp]
theorem weight_enter (greedy : Bool) (elsewhere : Int) : (Instr.enter greedy elsewhere).weight = 0 := by
  cases greedy <;> rfl

@[simp]
theorem weight_again (greedy : Bool) (elsewhere : Int) : (Instr.again greedy elsewhere).weight = 0 := by
  cases greedy <;> rfl

/-- What an instruction does makes sense between some others: it does not accept, it closes a group only
where one is open, and it jumps to a place among them at which as many groups are open. -/
structure Instr.Fits (before : List Instr) (i : Instr) (after : List Instr) : Prop where
  ne_accept : i ≠ accept
  opened (index : Nat) (h : i = closeGroup index) : 0 < balance before
  target (offset : Int) (h : offset ∈ i.offsets) :
    ∃ front back, before ++ i :: after = front ++ back ∧
      (front.length : Int) = before.length + offset ∧ balance front = balance before

/-- Instructions that are entered at their beginning and left at their end only. -/
structure Fragment (code : List Instr) : Prop where
  balanced : balance code = 0
  fits {before : List Instr} {i : Instr} {after : List Instr} (h : code = before ++ i :: after) :
    i.Fits before after

/-! ## Instructions among others -/

theorem Instr.Fits.within {before after : List Instr} {i : Instr} (h : i.Fits before after)
    {front : List Instr} (hfront : 0 ≤ balance front) (back : List Instr) :
    i.Fits (front ++ before) (after ++ back) where
  ne_accept := h.ne_accept
  opened index hi := by
    have := h.opened index hi
    rw [balance_append]
    omega
  target offset ho := by
    obtain ⟨x, y, hxy, hlen, hbal⟩ := h.target offset ho
    refine ⟨front ++ x, y ++ back, ?_, ?_, ?_⟩
    · rw [List.append_assoc, ← List.cons_append, ← List.append_assoc before, hxy, List.append_assoc,
        List.append_assoc]
    · rw [List.length_append, List.length_append]
      push_cast
      omega
    · rw [balance_append, balance_append, hbal]

/-- Some instructions fit between others. -/
def FitBetween (front code back : List Instr) : Prop :=
  ∀ before i after, code = before ++ i :: after → i.Fits (front ++ before) (after ++ back)

section FitBetween

variable {front code code' back : List Instr}

theorem fitBetween_nil : FitBetween front [] back := by
  intro before i after h
  cases List.append_ne_nil_of_right_ne_nil before (List.cons_ne_nil i after) h.symm

theorem Fragment.fitBetween (h : Fragment code) (hfront : 0 ≤ balance front) :
    FitBetween front code back :=
  fun _ _ _ heq => (h.fits heq).within hfront back

theorem fitBetween_append (h : FitBetween front code (code' ++ back))
    (h' : FitBetween (front ++ code) code' back) : FitBetween front (code ++ code') back := by
  intro before i after heq
  rcases List.append_eq_append_iff.1 heq with ⟨before', hbefore, hcode'⟩ | ⟨after', hcode, hafter⟩
  · have := h' before' i after hcode'
    rwa [hbefore, ← List.append_assoc]
  · cases after' with
    | nil =>
      rw [List.nil_append] at hafter
      have := h' [] i after hafter.symm
      rwa [List.append_nil, hcode, List.append_nil] at this
    | cons j after' =>
      obtain ⟨rfl, htail⟩ := List.cons.inj hafter
      have hafter : after = after' ++ code' := htail
      rw [hafter, List.append_assoc]
      exact h before i after' hcode

theorem fitBetween_singleton {i : Instr} (h : i.Fits front back) : FitBetween front [i] back := by
  intro before j after heq
  cases before with
  | nil =>
    obtain ⟨rfl, rfl⟩ := List.cons.inj heq
    rwa [List.append_nil]
  | cons _ before =>
    have hnil : before ++ j :: after = [] := (List.cons.inj heq).2.symm
    cases List.append_ne_nil_of_right_ne_nil before (List.cons_ne_nil j after) hnil

theorem fitBetween_cons {i : Instr} (hi : i.Fits front (code ++ back))
    (h : FitBetween (front ++ [i]) code back) : FitBetween front (i :: code) back :=
  fitBetween_append (fitBetween_singleton hi) h

theorem Fragment.of_fitBetween (hbalance : balance code = 0) (h : FitBetween [] code []) :
    Fragment code where
  balanced := hbalance
  fits heq := by
    have := h _ _ _ heq
    rwa [List.nil_append, List.append_nil] at this

end FitBetween

/-! ## Single instructions -/

section Fits

variable {before after : List Instr} {i : Instr}

/-- An instruction that goes on at the next one only, and opens or closes no group. -/
theorem Instr.fits_of_offsets_eq_nil (hoffsets : i.offsets = []) (hweight : i.weight = 0)
    (haccept : i ≠ accept) : i.Fits before after where
  ne_accept := haccept
  opened index h := by
    subst h
    cases hweight
  target offset h := by
    rw [hoffsets] at h
    cases h

theorem Instr.fits_openGroup {index : Nat} : (openGroup index).Fits before after where
  ne_accept := Instr.noConfusion
  opened _ h := by cases h
  target offset h := by cases h

theorem Instr.fits_closeGroup {index : Nat} (h : 0 < balance before) :
    (closeGroup index).Fits before after where
  ne_accept := Instr.noConfusion
  opened _ _ := h
  target offset h := by cases h

/-- There is a place at some distance at which as many groups are open. -/
def Reachable (before : List Instr) (i : Instr) (after : List Instr) (offset : Int) : Prop :=
  ∃ front back, before ++ i :: after = front ++ back ∧
    (front.length : Int) = before.length + offset ∧ balance front = balance before

theorem reachable_next (h : i.weight = 0) : Reachable before i after 1 :=
  ⟨before ++ [i], after, (List.append_cons ..), by rw [List.length_append]; rfl, by simp [h]⟩

theorem Instr.fits_jump {offset : Int} (h : Reachable before (jump offset) after offset) :
    (jump offset).Fits before after where
  ne_accept := Instr.noConfusion
  opened _ h := by cases h
  target o ho := by
    rw [List.mem_singleton.1 ho]
    exact h

theorem Instr.fits_fork {preferred other : Int}
    (hp : Reachable before (fork preferred other) after preferred)
    (ho : Reachable before (fork preferred other) after other) :
    (fork preferred other).Fits before after where
  ne_accept := Instr.noConfusion
  opened _ h := by cases h
  target o h := by
    rcases List.mem_cons.1 h with rfl | h
    · exact hp
    · rw [List.mem_singleton.1 h]
      exact ho

theorem Instr.fits_enter {greedy : Bool} {elsewhere : Int}
    (h : Reachable before (enter greedy elsewhere) after elsewhere) :
    (enter greedy elsewhere).Fits before after := by
  have hnext : Reachable before (enter greedy elsewhere) after 1 := reachable_next (weight_enter ..)
  cases greedy with
  | true => exact fits_fork hnext h
  | false => exact fits_fork h hnext

theorem Instr.fits_again {greedy : Bool} {elsewhere : Int}
    (h : Reachable before (again greedy elsewhere) after elsewhere) :
    (again greedy elsewhere).Fits before after := by
  have hnext : Reachable before (again greedy elsewhere) after 1 := reachable_next (weight_again ..)
  cases greedy with
  | true => exact fits_fork h hnext
  | false => exact fits_fork hnext h

end Fits

/-! ## Ways of putting together -/

theorem fragment_nil : Fragment [] := .of_fitBetween rfl fitBetween_nil

theorem fragment_singleton {i : Instr} (hoffsets : i.offsets = []) (hweight : i.weight = 0)
    (haccept : i ≠ .accept) : Fragment [i] :=
  .of_fitBetween (by simp [hweight])
    (fitBetween_singleton (Instr.fits_of_offsets_eq_nil hoffsets hweight haccept))

variable {code code' body : List Instr} {greedy : Bool}

theorem Fragment.append (h : Fragment code) (h' : Fragment code') : Fragment (code ++ code') :=
  .of_fitBetween (by rw [balance_append, h.balanced, h'.balanced]; rfl)
    (fitBetween_append (h.fitBetween (Int.le_refl 0))
      (h'.fitBetween (h.balanced ▸ Int.le_refl 0)))

theorem Fragment.group (h : Fragment body) (index : Nat) :
    Fragment (.openGroup index :: body ++ [.closeGroup index]) := by
  have hopen : balance [Instr.openGroup index] = 1 := rfl
  refine .of_fitBetween ?_ (fitBetween_append (fitBetween_cons Instr.fits_openGroup
    (h.fitBetween ?_)) (fitBetween_singleton (Instr.fits_closeGroup ?_)))
  · simp [h.balanced, Instr.weight]
  · rw [List.nil_append, hopen]
    decide
  · simp [h.balanced, Instr.weight]

/-- A choice between two pieces. -/
theorem Fragment.alt (h : Fragment code) (h' : Fragment code') :
    Fragment (.fork 1 (code.length + 2 : Nat) :: code ++ .jump (code'.length + 1 : Nat) :: code') := by
  have hfork (other : Int) : (Instr.fork 1 other).weight = 0 := rfl
  have hjump (offset : Int) : (Instr.jump offset).weight = 0 := rfl
  refine .of_fitBetween (by simp [hfork, hjump, h.balanced, h'.balanced]) ?_
  refine fitBetween_append (fitBetween_cons (Instr.fits_fork (reachable_next rfl) ?_)
    (h.fitBetween ?_)) (fitBetween_cons (Instr.fits_jump ?_) (h'.fitBetween ?_))
  · -- The other piece begins behind the jump.
    refine ⟨.fork 1 (code.length + 2 : Nat) :: code ++ [.jump (code'.length + 1 : Nat)], code', ?_, ?_, ?_⟩
    · simp
    · simp
      omega
    · simp [hfork, hjump, h.balanced]
  · exact Int.le_refl 0
  · refine ⟨.fork 1 (code.length + 2 : Nat) :: code ++ .jump (code'.length + 1 : Nat) :: code', [], ?_,
      ?_, ?_⟩
    · simp
    · simp
      omega
    · simp [hfork, hjump, h.balanced, h'.balanced]
  · simp [hfork, hjump, h.balanced]

theorem Fragment.exactly (h : Fragment body) (n : Nat) : Fragment (exactly body n) := by
  induction n with
  | zero => exact fragment_nil
  | succ n ih => exact h.append ih

theorem atMost_succ (greedy : Bool) (body : List Instr) (n : Nat) :
    atMost greedy body (n + 1) =
      .enter greedy ((n + 1) * (body.length + 1) : Nat) :: body ++ atMost greedy body n := by
  simp only [atMost, List.range_succ_eq_map, List.flatMap_cons, List.flatMap_map, Nat.sub_zero,
    Nat.succ_sub_succ]

theorem length_atMost (greedy : Bool) (body : List Instr) (n : Nat) :
    (atMost greedy body n).length = n * (body.length + 1) := by
  induction n with
  | zero => rw [Nat.zero_mul]; rfl
  | succ n ih =>
    rw [atMost_succ, List.length_append, List.length_cons, ih, Nat.succ_mul]
    omega

theorem Fragment.atMost (h : Fragment body) (greedy : Bool) (n : Nat) :
    Fragment (atMost greedy body n) := by
  induction n with
  | zero => exact fragment_nil
  | succ n ih =>
    rw [atMost_succ]
    refine .of_fitBetween (by simp [h.balanced, ih.balanced]) ?_
    refine fitBetween_append (fitBetween_cons (Instr.fits_enter ?_) (h.fitBetween ?_))
      (ih.fitBetween ?_)
    · -- Without this round, reading goes on at the end.
      refine ⟨Pattern.atMost greedy body (n + 1), [], ?_, ?_, ?_⟩
      · simp [atMost_succ]
      · simp [length_atMost]
      · simp [atMost_succ, h.balanced, ih.balanced]
    · simp
    · simp [h.balanced]

theorem Fragment.anyNumber (h : Fragment body) (greedy : Bool) : Fragment (anyNumber greedy body) := by
  have hjump (offset : Int) : (Instr.jump offset).weight = 0 := rfl
  refine .of_fitBetween (by simp [Pattern.anyNumber, hjump, h.balanced]) ?_
  refine fitBetween_append (fitBetween_cons (Instr.fits_enter ?_) (h.fitBetween ?_))
    (fitBetween_singleton (Instr.fits_jump ?_))
  · refine ⟨Pattern.anyNumber greedy body, [], ?_, ?_, ?_⟩
    · simp [Pattern.anyNumber]
    · simp [Pattern.anyNumber]
      omega
    · simp [Pattern.anyNumber, hjump, h.balanced]
  · simp
  · -- After a round, reading goes on at the beginning.
    refine ⟨[], Pattern.anyNumber greedy body, ?_, ?_, ?_⟩
    · simp [Pattern.anyNumber]
    · simp
    · simp [h.balanced]

theorem Fragment.oneOrMore (h : Fragment body) (greedy : Bool) : Fragment (oneOrMore greedy body) := by
  refine .of_fitBetween (by simp [Pattern.oneOrMore, h.balanced]) ?_
  refine fitBetween_append (h.fitBetween (Int.le_refl 0)) (fitBetween_singleton (Instr.fits_again ?_))
  refine ⟨[], Pattern.oneOrMore greedy body, ?_, ?_, ?_⟩
  · simp [Pattern.oneOrMore]
  · simp
  · simp [h.balanced]

theorem Fragment.repeated (h : Fragment body) (greedy reads : Bool) (least : Nat) (most : Option Nat) :
    Fragment (repeated greedy body reads least most) := by
  unfold Pattern.repeated
  split
  · exact (h.exactly _).append (h.atMost greedy _)
  · split
    · exact h.anyNumber greedy
    · exact (h.oneOrMore greedy).atMost greedy 1
  · exact (h.exactly _).append (h.oneOrMore greedy)

/-- The instructions of an expression are entered at their beginning and left at their end only. -/
theorem Expr.fragment_code (e : Expr) : Fragment e.code := by
  induction e with
  | empty => exact fragment_nil
  | text cs =>
    induction cs with
    | nil => exact fragment_nil
    | cons c cs ih => exact (fragment_singleton rfl rfl Instr.noConfusion).append ih
  | one | check => exact fragment_singleton rfl rfl Instr.noConfusion
  | group index body ih => exact ih.group index
  | seq first rest ihfirst ihrest => exact ihfirst.append ihrest
  | alt first rest ihfirst ihrest => exact ihfirst.alt ihrest
  | loop least most greedy body ih => exact ih.repeated greedy _ least most

/-! ## Addresses -/

/-- The number of groups that are open at an address. -/
def openAt (code : List Instr) (a : Nat) : Int := balance (code.take a)

theorem openAt_succ {a : Nat} {i : Instr} (h : code[a]? = some i) :
    openAt code (a + 1) = openAt code a + i.weight := by
  rw [openAt, List.take_add_one, h, openAt]
  simp

theorem Fragment.openAt_length (h : Fragment code) : openAt code code.length = 0 := by
  rw [openAt, List.take_length, h.balanced]

theorem Fragment.fits_at (h : Fragment code) {a : Nat} {i : Instr} (hi : code[a]? = some i) :
    i.Fits (code.take a) (code.drop (a + 1)) := by
  obtain ⟨ha, rfl⟩ := List.getElem?_eq_some_iff.1 hi
  exact h.fits (by rw [← List.drop_eq_getElem_cons, List.take_append_drop])

theorem Fragment.openAt_pos (h : Fragment code) {a index : Nat}
    (hi : code[a]? = some (.closeGroup index)) : 0 < openAt code a :=
  (h.fits_at hi).opened index rfl

theorem Fragment.target_at (h : Fragment code) {a : Nat} {i : Instr} (hi : code[a]? = some i)
    {offset : Int} (ho : offset ∈ i.offsets) :
    ∃ b : Nat, (b : Int) = a + offset ∧ b ≤ code.length ∧ openAt code b = openAt code a := by
  obtain ⟨ha, rfl⟩ := List.getElem?_eq_some_iff.1 hi
  obtain ⟨front, back, heq, hlen, hbalance⟩ := (h.fits_at hi).target offset ho
  rw [← List.drop_eq_getElem_cons, List.take_append_drop] at heq
  rw [List.length_take, Nat.min_eq_left (Nat.le_of_lt ha)] at hlen
  refine ⟨front.length, hlen, ?_, ?_⟩
  · rw [heq, List.length_append]
    exact Nat.le_add_right _ _
  · rw [openAt, openAt, ← hbalance]
    exact congrArg balance (heq ▸ List.take_left)

/-- Instructions that do not lead back before the first of them. -/
def NoneBack (code : List Instr) : Prop :=
  ∀ (a : Nat) (i : Instr), code[a]? = some i → ∀ offset ∈ i.offsets, 0 ≤ (a : Int) + offset

theorem noneBack_nil : NoneBack [] := by
  intro a i hi
  cases hi

theorem NoneBack.cons {i : Instr} (hi : ∀ offset ∈ i.offsets, 0 ≤ offset) (h : NoneBack code) :
    NoneBack (i :: code) := by
  intro a j hj offset ho
  cases a with
  | zero =>
    cases hj
    have := hi offset ho
    omega
  | succ a =>
    have := h a j hj offset ho
    omega

theorem Fragment.noneBack_append (h : Fragment code) (h' : NoneBack code') :
    NoneBack (code ++ code') := by
  intro a i hi offset ho
  by_cases ha : a < code.length
  · rw [List.getElem?_append_left ha] at hi
    obtain ⟨b, hb, -⟩ := h.target_at hi ho
    omega
  · rw [List.getElem?_append_right (Nat.le_of_not_lt ha)] at hi
    have := h' _ i hi offset ho
    omega

end Highlight.Pattern
