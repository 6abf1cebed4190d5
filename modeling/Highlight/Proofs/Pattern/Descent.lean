import Highlight.Proofs.Pattern.Attempt
import Highlight.Proofs.Pattern.Fragment

/-!
# Ways that read nothing lead downwards

A thread may be followed over an instruction that reads nothing, as if the threads behind it had been
there from the beginning, unless these come back to the instruction without reading anything
(`Program.attempt_of_goOn`). No thread comes back where the places of a program have heights such that
every way that reads nothing leads downwards (`Slopes`). The instructions of an expression have such
heights if no loop without a bound may go round without reading (`Expr.Productive`,
`Expr.exists_slopes_program`): the jump back from the end of its body leads downwards, for what always
reads may end as high above its beginning as one likes (`Rises`).
-/

namespace Highlight.Pattern

/-- How far on an instruction that reads nothing may lead. -/
def Instr.steps : Instr → List Int
  | check _ | openGroup _ | closeGroup _ => [1]
  | jump offset => [offset]
  | fork preferred other => [preferred, other]
  | accept | read _ => []

namespace Program

variable {code : Program} {p : Cursor}

theorem exists_step_of_follow {t s : Thread} {threads : List Thread}
    (h : code.follow p t = .goOn threads) (hs : s ∈ threads) :
    ∃ i, code[t.address]? = some i ∧ ∃ step ∈ i.steps, s.address = ((t.address : Int) + step).toNat := by
  unfold follow at h
  split at h <;> cases h
  · cases hs
  · split at hs
    · rw [List.mem_singleton.1 hs]
      exact ⟨_, ‹_›, 1, List.mem_singleton_self _, rfl⟩
    · cases hs
  · rw [List.mem_singleton.1 hs]
    exact ⟨_, ‹_›, 1, List.mem_singleton_self _, rfl⟩
  · rw [List.mem_singleton.1 hs]
    refine ⟨_, ‹_›, 1, List.mem_singleton_self _, ?_⟩
    rw [Thread.move, address_closeGroup]
  · rw [List.mem_singleton.1 hs]
    exact ⟨_, ‹_›, _, List.mem_singleton_self _, rfl⟩
  · rcases List.mem_cons.1 hs with rfl | hs
    · exact ⟨_, ‹_›, _, List.mem_cons_self, rfl⟩
    · rw [List.mem_singleton.1 hs]
      exact ⟨_, ‹_›, _, List.mem_cons_of_mem _ (List.mem_singleton_self _), rfl⟩

/-! ## What is not come back to -/

/-- At one position, threads at these addresses go on to these addresses only. -/
def Confines (code : Program) (p : Cursor) (S : Nat → Prop) : Prop :=
  ∀ t threads, S t.address → code.follow p t = .goOn threads → ∀ s ∈ threads, S s.address

/-- Threads that stay at some addresses do not notice what was visited elsewhere. -/
theorem Confines.explores {S : Nat → Prop} (hS : code.Confines p S) {visited visited' : List Nat}
    {pending waiting : List Thread} {accepted : Option Thread}
    (h : Explores code p visited pending waiting accepted visited')
    (hpending : ∀ t ∈ pending, S t.address) {more : List Nat}
    (hmore : ∀ a, S a → (a ∈ more ↔ a ∈ visited)) :
    ∃ more', Explores code p more pending waiting accepted more' := by
  have hcons {visited more : List Nat} (hmore : ∀ a, S a → (a ∈ more ↔ a ∈ visited)) (b a : Nat) (ha : S a) :
      a ∈ b :: more ↔ a ∈ b :: visited := by
    simp only [List.mem_cons, hmore a ha]
  induction h generalizing more with
  | nil => exact ⟨more, .nil⟩
  | skip hmem _ ih =>
    obtain ⟨ht, hpending⟩ := List.forall_mem_cons.1 hpending
    obtain ⟨more', hexplores⟩ := ih hpending hmore
    exact ⟨more', .skip ((hmore _ ht).2 hmem) hexplores⟩
  | accept hnew hf =>
    exact ⟨_, .accept (mt (hmore _ (hpending _ List.mem_cons_self)).1 hnew) hf⟩
  | wait hnew hf _ ih =>
    obtain ⟨ht, hpending⟩ := List.forall_mem_cons.1 hpending
    obtain ⟨more', hexplores⟩ := ih hpending (hcons hmore _)
    exact ⟨more', .wait (mt (hmore _ ht).1 hnew) hf hexplores⟩
  | goOn hnew hf _ ih =>
    obtain ⟨ht, hpending⟩ := List.forall_mem_cons.1 hpending
    obtain ⟨more', hexplores⟩ :=
      ih (List.forall_mem_append.2 ⟨hS _ _ ht hf, hpending⟩) (hcons hmore _)
    exact ⟨more', .goOn (mt (hmore _ ht).1 hnew) hf hexplores⟩

/-- A thread comes to what the threads that take its place come to, if these do not come back. -/
theorem Confines.attempt_of_goOn {S : Nat → Prop} (hS : code.Confines p S) {t : Thread}
    {threads : List Thread} (h : code.follow p t = .goOn threads) (hthreads : ∀ s ∈ threads, S s.address)
    (ht : ¬ S t.address) : code.attempt p [t] = code.attempt p threads := by
  obtain ⟨waiting, accepted, visited, hexplores⟩ := exists_explores code p threads
  have hmore (a : Nat) (ha : S a) : a ∈ [t.address] ↔ a ∈ [] := by
    rw [List.mem_singleton]
    exact iff_of_false (fun he => ht (he ▸ ha)) List.not_mem_nil
  obtain ⟨visited', hexplores'⟩ := hS.explores hexplores hthreads hmore
  have hone : Explores code p [] [t] waiting accepted visited' :=
    .goOn List.not_mem_nil h ((List.append_nil threads).symm ▸ hexplores')
  cases hp : p.rest with
  | nil => rw [attempt_of_end hp hone, attempt_of_end hp hexplores]
  | cons c rest => rw [attempt_of_cons hp hone, attempt_of_cons hp hexplores]

end Program

/-! ## Heights -/

/-- Steps between the places of some instructions, the end among them, lead downwards. -/
def Slopes (code : List Instr) (height : Nat → Int) : Prop :=
  ∀ (a : Nat) (i : Instr), code[a]? = some i → ∀ step ∈ i.steps,
    ∃ b : Nat, (b : Int) = a + step ∧ b ≤ code.length ∧ height b < height a

/-- A height for one more place in front. -/
def below (x : Int) (height : Nat → Int) : Nat → Int
  | 0 => x
  | a + 1 => height a

/-- The heights of `n` places, and of others behind them. -/
def joined (n : Nat) (height height' : Nat → Int) (a : Nat) : Int :=
  if a < n then height a else height' (a - n)

section Slopes

variable {code code' body : List Instr} {height height' : Nat → Int} {i : Instr} {rise rise' : Int}
  {greedy : Bool}

theorem joined_of_lt {n a : Nat} (h : a < n) : joined n height height' a = height a := if_pos h

@[simp]
theorem joined_add (height height' : Nat → Int) (n a : Nat) : joined n height height' (n + a) = height' a := by
  simp [joined]

theorem joined_of_le {n a : Nat} (hjoin : height n = height' 0) (h : a ≤ n) :
    joined n height height' a = height a := by
  rcases Nat.lt_or_eq_of_le h with h | rfl
  · exact joined_of_lt h
  · rw [hjoin]
    exact joined_add height height' a 0

theorem slopes_nil (height : Nat → Int) : Slopes [] height := nofun

theorem Slopes.shift (h : Slopes code height) (x : Int) : Slopes code fun a => height a + x := by
  intro a i hi step hstep
  obtain ⟨b, hb, hle, hlt⟩ := h a i hi step hstep
  exact ⟨b, hb, hle, Int.add_lt_add_right hlt x⟩

/-- One more instruction in front, which leads forwards only. -/
theorem Slopes.cons (h : Slopes code height) {x : Int}
    (hi : ∀ step ∈ i.steps, ∃ b : Nat, step = (b + 1 : Nat) ∧ b ≤ code.length ∧ height b < x) :
    Slopes (i :: code) (below x height) := by
  intro a j hj step hstep
  cases a with
  | zero =>
    obtain rfl : i = j := by simpa using hj
    obtain ⟨b, rfl, hle, hlt⟩ := hi step hstep
    exact ⟨b + 1, by simp, Nat.succ_le_succ hle, hlt⟩
  | succ a =>
    obtain ⟨b, hb, hle, hlt⟩ := h a j (by simpa using hj) step hstep
    exact ⟨b + 1, by omega, Nat.succ_le_succ hle, hlt⟩

theorem Slopes.append (h : Slopes code height) (h' : Slopes code' height')
    (hjoin : height code.length = height' 0) :
    Slopes (code ++ code') (joined code.length height height') := by
  intro a i hi step hstep
  rw [List.length_append]
  by_cases ha : a < code.length
  · rw [List.getElem?_append_left ha] at hi
    obtain ⟨b, hb, hle, hlt⟩ := h a i hi step hstep
    exact ⟨b, hb, by omega, by rwa [joined_of_le hjoin hle, joined_of_lt ha]⟩
  · obtain ⟨d, rfl⟩ := Nat.exists_eq_add_of_le (Nat.le_of_not_lt ha)
    rw [List.getElem?_append_right (Nat.le_add_right _ _), Nat.add_sub_cancel_left] at hi
    obtain ⟨b, hb, hle, hlt⟩ := h' d i hi step hstep
    exact ⟨code.length + b, by omega, by omega, by rwa [joined_add, joined_add]⟩

/-- One more instruction at the end, which may lead back. -/
theorem Slopes.concat (h : Slopes code height) {x : Int}
    (hi : ∀ step ∈ i.steps, step = 1 ∧ x < height code.length ∨
      ∃ b : Nat, (b : Int) = code.length + step ∧ b ≤ code.length ∧ height b < height code.length) :
    Slopes (code ++ [i]) (joined (code.length + 1) height fun _ => x) := by
  intro a j hj step hstep
  rw [List.length_append, List.length_singleton]
  rcases Nat.lt_trichotomy a code.length with ha | rfl | ha
  · rw [List.getElem?_append_left ha] at hj
    obtain ⟨b, hb, hle, hlt⟩ := h a j hj step hstep
    exact ⟨b, hb, by omega, by rwa [joined_of_lt (by omega), joined_of_lt (by omega)]⟩
  · obtain rfl : i = j := by simpa using hj
    rw [joined_of_lt (Nat.lt_succ_self _)]
    rcases hi step hstep with ⟨rfl, hlt⟩ | ⟨b, hb, hle, hlt⟩
    · exact ⟨code.length + 1, by omega, Nat.le_refl _, by rwa [← Nat.add_zero (_ + 1), joined_add]⟩
    · exact ⟨b, hb, by omega, by rwa [joined_of_lt (by omega)]⟩
  · rw [List.getElem?_eq_none (by rw [List.length_append]; exact ha)] at hj
    cases hj

/-- There are such heights, with the end higher than the beginning by `rise` at least. -/
def Rises (code : List Instr) (rise : Int) : Prop :=
  ∃ height, Slopes code height ∧ height 0 + rise ≤ height code.length

/-- The same with the end at a height of one's choice. -/
theorem Rises.exists_ending (h : Rises code rise) (x : Int) :
    ∃ height, Slopes code height ∧ height 0 + rise ≤ x ∧ height code.length = x := by
  obtain ⟨height, hslopes, hrise⟩ := h
  refine ⟨_, hslopes.shift (x - height code.length), ?_, ?_⟩
  · show height 0 + _ + rise ≤ x
    omega
  · show height code.length + _ = x
    omega

theorem Rises.mono (h : Rises code rise) (hle : rise' ≤ rise) : Rises code rise' := by
  obtain ⟨height, hslopes, hrise⟩ := h
  exact ⟨height, hslopes, by omega⟩

theorem rises_nil : Rises [] 0 := ⟨fun _ => 0, slopes_nil _, Int.le_refl 0⟩

/-- Reading a character does not count, so it may lead up as high as one likes. -/
theorem rises_read (set : CharSet) (rise : Int) : Rises [.read set] rise :=
  ⟨_, (slopes_nil fun _ => rise).cons (x := 0) nofun, by simp [below]⟩

theorem rises_of_steps (h : i.steps = [1]) : Rises [i] (-1) := by
  refine ⟨_, (slopes_nil fun _ => 0).cons (x := 1) ?_, by simp [below]⟩
  rw [h]
  exact List.forall_mem_singleton.2 ⟨0, rfl, Nat.le_refl 0, by decide⟩

theorem Rises.append (h : Rises code rise) (h' : Rises code' rise') :
    Rises (code ++ code') (rise + rise') := by
  obtain ⟨height', hslopes', hrise'⟩ := h'
  obtain ⟨height, hslopes, hrise, hend⟩ := h.exists_ending (height' 0)
  refine ⟨_, hslopes.append hslopes' hend, ?_⟩
  rw [List.length_append, joined_add, joined_of_le hend (Nat.zero_le _)]
  omega

/-- A choice between two pieces. -/
theorem Rises.alt (h : Rises code rise) (h' : Rises code' rise) :
    Rises (.fork 1 (code.length + 2 : Nat) :: code ++ .jump (code'.length + 1 : Nat) :: code')
      (rise - 2) := by
  -- The end is at height 0, and the jump to it at height 1.
  obtain ⟨height', hslopes', hrise', hend'⟩ := h'.exists_ending 0
  obtain ⟨height, hslopes, hrise, hend⟩ := h.exists_ending 1
  have hjump := hslopes'.cons (i := .jump (code'.length + 1 : Nat)) (x := 1)
    (List.forall_mem_singleton.2 ⟨code'.length, rfl, Nat.le_refl _, by rw [hend']; decide⟩)
  have hboth := hslopes.append hjump hend
  have hfirst : joined code.length height (below 1 height') 0 = height 0 := joined_of_le hend (Nat.zero_le _)
  have hother := joined_add height (below 1 height') code.length 1
  have hlast := joined_add height (below 1 height') code.length (code'.length + 1)
  simp only [below] at hother hlast
  refine ⟨_, hboth.cons (x := 2 - rise) (List.forall_mem_cons.2 ⟨⟨0, rfl, Nat.zero_le _, ?_⟩,
    List.forall_mem_singleton.2 ⟨code.length + 1, rfl, ?_, ?_⟩⟩), ?_⟩
  · rw [hfirst]
    omega
  · simp
  · rw [hother]
    omega
  · simp only [List.cons_append, List.length_cons, List.length_append, below]
    rw [← Nat.add_assoc] at hlast ⊢
    rw [hlast, hend']
    omega

theorem rises_append_of_exists (h : ∃ rise, Rises code rise) (h' : ∀ rise, Rises code' rise) (rise : Int) :
    Rises (code ++ code') rise := by
  obtain ⟨first, h⟩ := h
  have := h.append (h' (rise - first))
  rwa [show first + (rise - first) = rise by omega] at this

theorem steps_enter (greedy : Bool) (elsewhere : Int) {step : Int} :
    step ∈ (Instr.enter greedy elsewhere).steps ↔ step = 1 ∨ step = elsewhere := by
  cases greedy <;> simp [Instr.enter, Instr.steps, or_comm]

theorem steps_again (greedy : Bool) (elsewhere : Int) {step : Int} :
    step ∈ (Instr.again greedy elsewhere).steps ↔ step = 1 ∨ step = elsewhere := by
  cases greedy <;> simp [Instr.again, Instr.steps, or_comm]

theorem Rises.exists_exactly (h : Rises body rise) (n : Nat) : ∃ rise, Rises (exactly body n) rise := by
  induction n with
  | zero => exact ⟨0, rises_nil⟩
  | succ n ih =>
    obtain ⟨rise', hn⟩ := ih
    exact ⟨rise + rise', h.append hn⟩

theorem Rises.exists_atMost (h : Rises body rise) (greedy : Bool) (n : Nat) :
    ∃ rise, Rises (atMost greedy body n) rise := by
  induction n with
  | zero => exact ⟨0, rises_nil⟩
  | succ n ih =>
    obtain ⟨rise', hn⟩ := ih
    obtain ⟨height, hslopes, hrise, hend⟩ := (h.append hn).exists_ending 0
    have hlength := length_atMost greedy body n
    rw [atMost_succ]
    refine ⟨min (rise + rise') 0 - 1, _, hslopes.cons (x := 1 - min (rise + rise') 0) fun step hstep => ?_, ?_⟩
    · rcases (steps_enter ..).1 hstep with rfl | rfl
      · exact ⟨0, rfl, Nat.zero_le _, by omega⟩
      · -- Without this round, reading goes on at the end.
        refine ⟨(body ++ atMost greedy body n).length, ?_, Nat.le_refl _, by omega⟩
        rw [List.length_append, hlength, Nat.succ_mul]
        omega
    · show 1 - _ + _ ≤ height (body ++ atMost greedy body n).length
      omega

/-- One or more rounds that read something. -/
theorem rises_oneOrMore (h : ∀ rise, Rises body rise) (greedy : Bool) (rise : Int) :
    Rises (oneOrMore greedy body) rise := by
  obtain ⟨height, hslopes, hrise⟩ := h (max rise 0 + 1)
  refine ⟨_, hslopes.concat (x := height body.length - 1) fun step hstep => ?_, ?_⟩
  · rcases (steps_again ..).1 hstep with rfl | rfl
    · exact .inl ⟨rfl, by omega⟩
    · exact .inr ⟨0, by omega, Nat.zero_le _, by omega⟩
  · rw [oneOrMore, List.length_append, List.length_singleton, joined_of_lt (Nat.succ_pos _)]
    have hlast := joined_add height (fun _ => height body.length - 1) (body.length + 1) 0
    rw [Nat.add_zero] at hlast
    rw [hlast]
    omega

/-- Any number of rounds that read something. -/
theorem exists_rises_anyNumber (h : ∀ rise, Rises body rise) (greedy : Bool) :
    ∃ rise, Rises (anyNumber greedy body) rise := by
  obtain ⟨height, hslopes, hrise⟩ := h 2
  let exit : Nat → Int := fun _ => height 0
  have hinside {a : Nat} (ha : a ≤ body.length) : joined (body.length + 1) height exit a = height a :=
    joined_of_lt (Nat.lt_succ_of_le ha)
  have hexit : joined (body.length + 1) height exit (body.length + 1) = height 0 :=
    joined_add _ _ (body.length + 1) 0
  -- The jump at the end of the body is higher than the entry, and the entry higher than the body's beginning.
  refine ⟨-1, below (height 0 + 1) (joined (body.length + 1) height exit), fun a i hi step hstep => ?_, ?_⟩
  · simp only [anyNumber, List.cons_append, List.length_cons, List.length_append, List.length_nil] at hi ⊢
    cases a with
    | zero =>
      obtain rfl : Instr.enter greedy (body.length + 2 : Nat) = i := by simpa using hi
      rcases (steps_enter ..).1 hstep with rfl | rfl
      · exact ⟨1, rfl, by omega, by simp only [below, hinside (Nat.zero_le _)]; omega⟩
      · exact ⟨body.length + 2, by simp, by omega, by simp only [below, hexit]; omega⟩
    | succ a =>
      rw [List.getElem?_cons_succ] at hi
      rcases Nat.lt_trichotomy a body.length with ha | rfl | ha
      · rw [List.getElem?_append_left ha] at hi
        obtain ⟨b, hb, hle, hlt⟩ := hslopes a i hi step hstep
        exact ⟨b + 1, by omega, by omega, by simpa [below, hinside hle, hinside ha.le] using hlt⟩
      · obtain rfl : Instr.jump (-(body.length + 1 : Nat)) = i := by simpa using hi
        obtain rfl : step = -(body.length + 1 : Nat) := List.mem_singleton.1 hstep
        exact ⟨0, by omega, Nat.zero_le _, by simp only [below, hinside (Nat.le_refl _)]; omega⟩
      · rw [List.getElem?_eq_none (by rw [List.length_append]; exact ha)] at hi
        cases hi
  · have hlength : (anyNumber greedy body).length = body.length + 1 + 1 := by simp [anyNumber]
    rw [hlength]
    show height 0 + 1 + -1 ≤ joined (body.length + 1) height exit (body.length + 1)
    omega

end Slopes

/-! ## Expressions -/

namespace Expr

/-- Whether every loop without a bound has a body that is sure to read something. -/
def Productive : Expr → Bool
  | empty | text _ | one _ | check _ => true
  | group _ body => body.Productive
  | seq first rest => first.Productive && rest.Productive
  | alt first rest => first.Productive && rest.Productive
  | loop _ most _ body => body.Productive && (most.isSome || body.alwaysReads)

theorem alwaysReads_iff {e : Expr} : e.alwaysReads ↔ ∃ n, e.minLength? = some n ∧ 0 < n := by
  simp [alwaysReads, Option.any_eq_true]

theorem alwaysReads_seq {first rest : Expr} (h : (seq first rest).alwaysReads) :
    first.alwaysReads ∨ rest.alwaysReads := by
  obtain ⟨n, hn, hpos⟩ := alwaysReads_iff.1 h
  simp only [minLength?, Option.pure_def, Option.bind_eq_bind, Option.bind_eq_some_iff, Option.some.injEq] at hn
  obtain ⟨a, ha, b, hb, rfl⟩ := hn
  rcases Nat.eq_zero_or_pos a with rfl | ha'
  · exact .inr (alwaysReads_iff.2 ⟨b, hb, by omega⟩)
  · exact .inl (alwaysReads_iff.2 ⟨a, ha, ha'⟩)

theorem alwaysReads_alt {first rest : Expr} (h : (alt first rest).alwaysReads) :
    first.alwaysReads ∧ rest.alwaysReads := by
  obtain ⟨n, hn, hpos⟩ := alwaysReads_iff.1 h
  simp only [minLength?, Option.pure_def, Option.bind_eq_bind, Option.bind_eq_some_iff, Option.some.injEq] at hn
  obtain ⟨a, ha, b, hb, rfl⟩ := hn
  exact ⟨alwaysReads_iff.2 ⟨a, ha, by omega⟩, alwaysReads_iff.2 ⟨b, hb, by omega⟩⟩

theorem alwaysReads_loop {least : Nat} {most : Option Nat} {greedy : Bool} {body : Expr}
    (h : (loop least most greedy body).alwaysReads) : 0 < least ∧ body.alwaysReads := by
  obtain ⟨n, hn, hpos⟩ := alwaysReads_iff.1 h
  obtain ⟨a, ha, rfl⟩ := Option.map_eq_some_iff.1 hn
  exact ⟨Nat.pos_of_mul_pos_right hpos, alwaysReads_iff.2 ⟨a, ha, Nat.pos_of_mul_pos_left hpos⟩⟩

theorem rises_text (cs : List Char) (hne : cs ≠ []) (rise : Int) : Rises (text cs).code rise := by
  induction cs generalizing rise with
  | nil => exact absurd rfl hne
  | cons c cs ih =>
    have hc := rises_read (.single c)
    rcases eq_or_ne cs [] with rfl | hcs
    · exact hc rise
    · exact rises_append_of_exists ⟨0, hc 0⟩ (ih hcs) rise

theorem exists_rises_repeated {body : List Instr} {rise : Int} (h : Rises body rise) {reads : Bool}
    (hreads : reads → ∀ rise, Rises body rise) {most : Option Nat} (hmost : most.isSome || reads)
    (greedy : Bool) (least : Nat) : ∃ rise, Rises (repeated greedy body reads least most) rise := by
  cases most with
  | some most =>
    obtain ⟨first, hfirst⟩ := h.exists_exactly least
    obtain ⟨more, hmore⟩ := h.exists_atMost greedy (most - least)
    exact ⟨first + more, by cases least <;> exact hfirst.append hmore⟩
  | none =>
    have hfree := hreads hmost
    cases least with
    | zero =>
      rw [repeated, if_pos (by simpa using hmost)]
      exact exists_rises_anyNumber hfree greedy
    | succ least =>
      obtain ⟨first, hfirst⟩ := h.exists_exactly least
      exact ⟨0, rises_append_of_exists ⟨_, hfirst⟩ (rises_oneOrMore hfree greedy) 0⟩

theorem rises_repeated {body : List Instr} (h : ∀ rise, Rises body rise) {least : Nat} (hleast : 0 < least)
    (reads greedy : Bool) (most : Option Nat) (rise : Int) :
    Rises (repeated greedy body reads least most) rise := by
  obtain ⟨least, rfl⟩ := Nat.exists_eq_succ_of_ne_zero (Nat.ne_of_gt hleast)
  obtain ⟨first, hfirst⟩ := (h 0).exists_exactly least
  cases most with
  | some most =>
    obtain ⟨more, hmore⟩ := (h 0).exists_atMost greedy (most - (least + 1))
    have hbody := (h (rise - first - more)).append (hfirst.append hmore)
    rw [show rise - first - more + (first + more) = rise by omega, ← List.append_assoc] at hbody
    exact hbody
  | none => exact rises_append_of_exists ⟨_, hfirst⟩ (rises_oneOrMore h greedy) rise

/-- The instructions of a productive expression have heights, and where it always reads something the end
may be as high as one likes. -/
theorem rises_code (e : Expr) (h : e.Productive) :
    (∃ rise, Rises e.code rise) ∧ (e.alwaysReads → ∀ rise, Rises e.code rise) := by
  induction e with
  | empty => exact ⟨⟨0, rises_nil⟩, nofun⟩
  | text cs =>
    rcases eq_or_ne cs [] with rfl | hne
    · exact ⟨⟨0, rises_nil⟩, nofun⟩
    · exact ⟨⟨0, rises_text cs hne 0⟩, fun _ => rises_text cs hne⟩
  | one set => exact ⟨⟨0, rises_read set 0⟩, fun _ => rises_read set⟩
  | check condition => exact ⟨⟨-1, rises_of_steps rfl⟩, nofun⟩
  | group index body ih =>
    obtain ⟨⟨rise, hbody⟩, hfree⟩ := ih h
    have hopen : Rises [.openGroup index] (-1) := rises_of_steps rfl
    have hclose : Rises [.closeGroup index] (-1) := rises_of_steps rfl
    refine ⟨⟨_, (hopen.append hbody).append hclose⟩, fun hreads rise => ?_⟩
    have := (hopen.append (hfree hreads (rise + 2))).append hclose
    rwa [show -1 + (rise + 2) + -1 = rise by omega] at this
  | seq first rest ihfirst ihrest =>
    obtain ⟨hfirst, hrest⟩ := Bool.and_eq_true_iff.1 h
    obtain ⟨⟨rise, hfirst⟩, hfirstFree⟩ := ihfirst hfirst
    obtain ⟨⟨rise', hrest⟩, hrestFree⟩ := ihrest hrest
    refine ⟨⟨_, hfirst.append hrest⟩, fun hreads => ?_⟩
    rcases alwaysReads_seq hreads with hreads | hreads
    · intro rise
      have := (hfirstFree hreads (rise - rise')).append hrest
      rwa [Int.sub_add_cancel] at this
    · exact rises_append_of_exists ⟨_, hfirst⟩ (hrestFree hreads)
  | alt first rest ihfirst ihrest =>
    obtain ⟨hfirst, hrest⟩ := Bool.and_eq_true_iff.1 h
    obtain ⟨⟨rise, hfirst⟩, hfirstFree⟩ := ihfirst hfirst
    obtain ⟨⟨rise', hrest⟩, hrestFree⟩ := ihrest hrest
    refine ⟨⟨_, (hfirst.mono (Int.min_le_left rise rise')).alt (hrest.mono (Int.min_le_right rise rise'))⟩,
      fun hreads rise => ?_⟩
    obtain ⟨hreads, hreads'⟩ := alwaysReads_alt hreads
    have := (hfirstFree hreads (rise + 2)).alt (hrestFree hreads' (rise + 2))
    rwa [Int.add_sub_cancel] at this
  | loop least most greedy body ih =>
    obtain ⟨hbody, hmost⟩ := Bool.and_eq_true_iff.1 h
    obtain ⟨⟨rise, hrises⟩, hfree⟩ := ih hbody
    refine ⟨exists_rises_repeated hrises hfree hmost greedy least, fun hreads => ?_⟩
    obtain ⟨hleast, hreads⟩ := alwaysReads_loop hreads
    exact rises_repeated (hfree hreads) hleast _ greedy most

/-- The program of a productive expression has heights. -/
theorem exists_slopes_program {e : Expr} (h : e.Productive) :
    ∃ height, Slopes e.program.toList height := by
  obtain ⟨⟨rise, height, hslopes, -⟩, -⟩ := e.rises_code h
  exact ⟨_, hslopes.concat (x := 0) nofun⟩

end Expr

end Highlight.Pattern
