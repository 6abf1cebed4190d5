import Highlight.Proofs.Pattern.Descent

/-!
# What an expression reads

The positions at which an expression may stop reading, the preferred one first, told by its structure
alone: a sequence goes on from each of the positions that its first part comes to, a choice has those of
its first part before those of its second part, and a repetition tries more rounds or fewer first, as it
says (`Expr.readings`). No program, threads or visited addresses are part of this description. It agrees
with the search where no loop without a bound can go round without reading anything: the match that
begins at a position ends at the first of these positions (`stop_matchAt`).
-/

namespace List

theorem findSome?_flatMap {α β γ : Type} (l : List α) (f : α → List β) (g : β → Option γ) :
    (l.flatMap f).findSome? g = l.findSome? fun x => (f x).findSome? g := by
  simp only [← head?_filterMap, filterMap_flatMap, head?_flatMap]

theorem findSome?_congr {α β : Type} {l : List α} {f g : α → Option β} (h : ∀ x ∈ l, f x = g x) :
    l.findSome? f = l.findSome? g := by
  rw [← head?_filterMap, ← head?_filterMap, filterMap_congr h]

end List

namespace Highlight.Pattern

namespace Cursor

/-- The position some characters on. -/
def skip (p : Cursor) : Nat → Cursor
  | 0 => p
  | n + 1 => p.next.skip n

/-- The next position, if a character of the set comes before it. -/
def read? (p : Cursor) (set : CharSet) : Option Cursor :=
  if p.rest.head?.any set.contains then some p.next else none

end Cursor

section Rounds

variable (round : Cursor → List Cursor)

/-- Where `n` rounds may stop. -/
def times : Nat → Cursor → List Cursor
  | 0, p => [p]
  | n + 1, p => (round p).flatMap (times n)

/-- Where `n` rounds at most may stop, more rounds preferred if `greedy` and fewer otherwise. -/
def upTo (greedy : Bool) : Nat → Cursor → List Cursor
  | 0, p => [p]
  | n + 1, p =>
    let more := (round p).flatMap (upTo greedy n)
    if greedy then more ++ [p] else p :: more

end Rounds

/-- Where reading an expression may stop, the preferred position first. Rounds without a bound each read
something, so the text left bounds their number. -/
def Expr.readings : Expr → Cursor → List Cursor
  | empty, p => [p]
  | text cs, p => if cs.isPrefixOf p.rest then [p.skip cs.length] else []
  | one set, p => (p.read? set).toList
  | check condition, p => if condition.holds p then [p] else []
  | group _ body, p => body.readings p
  | seq first rest, p => (first.readings p).flatMap rest.readings
  | alt first rest, p => first.readings p ++ rest.readings p
  | loop least most greedy body, p =>
    (times body.readings least p).flatMap fun q =>
      upTo body.readings greedy ((most.map (· - least)).getD q.rest.length) q

/-! ## The text left -/

namespace Cursor

theorem length_rest_next (p : Cursor) : p.next.rest.length = p.rest.length - 1 := by
  obtain ⟨offset, before, rest⟩ := p
  cases rest <;> rfl

theorem read?_of_end {p : Cursor} (hp : p.rest = []) (set : CharSet) : p.read? set = none := by
  simp [read?, hp]

theorem read?_of_cons {p : Cursor} {c : Char} {rest : List Char} (hp : p.rest = c :: rest) (set : CharSet) :
    p.read? set = if set.contains c then some p.next else none := by
  simp [read?, hp]

theorem rest_skip (p : Cursor) (n : Nat) : (p.skip n).rest = p.rest.drop n := by
  induction n generalizing p with
  | zero => rfl
  | succ n ih =>
    rw [skip, ih]
    obtain ⟨offset, before, rest⟩ := p
    cases rest <;> simp [next]

end Cursor

theorem length_rest_of_times {round : Cursor → List Cursor} {k : Nat}
    (h : ∀ p, ∀ q ∈ round p, q.rest.length + k ≤ p.rest.length) {n : Nat} {p q : Cursor}
    (hq : q ∈ times round n p) : q.rest.length + n * k ≤ p.rest.length := by
  induction n generalizing p with
  | zero =>
    rw [List.mem_singleton.1 hq, Nat.zero_mul]
    rfl
  | succ n ih =>
    obtain ⟨r, hr, hq⟩ := List.mem_flatMap.1 hq
    have := h p r hr
    have := ih hq
    rw [Nat.succ_mul]
    omega

theorem length_rest_of_upTo {round : Cursor → List Cursor}
    (h : ∀ p, ∀ q ∈ round p, q.rest.length ≤ p.rest.length) {greedy : Bool} {n : Nat} {p q : Cursor}
    (hq : q ∈ upTo round greedy n p) : q.rest.length ≤ p.rest.length := by
  induction n generalizing p with
  | zero => rw [List.mem_singleton.1 hq]
  | succ n ih =>
    have hcases : (∃ r ∈ round p, q ∈ upTo round greedy n r) ∨ q = p := by
      rw [upTo] at hq
      cases greedy <;> simpa [or_comm] using hq
    rcases hcases with ⟨r, hr, hq⟩ | rfl
    · exact Nat.le_trans (ih hq) (h p r hr)
    · exact Nat.le_refl _

namespace Expr

theorem minLength_one_le (set : CharSet) : (minLength? (.one set)).getD 0 ≤ 1 := by
  rw [minLength?]
  split <;> simp

theorem minLength_seq_le (first rest : Expr) :
    (minLength? (.seq first rest)).getD 0 ≤ first.minLength?.getD 0 + rest.minLength?.getD 0 := by
  rw [minLength?]
  cases first.minLength? <;> cases rest.minLength? <;> simp

theorem minLength_alt_le (first rest : Expr) :
    (minLength? (.alt first rest)).getD 0 ≤ first.minLength?.getD 0 ∧
      (minLength? (.alt first rest)).getD 0 ≤ rest.minLength?.getD 0 := by
  rw [minLength?]
  cases first.minLength? <;> cases rest.minLength? <;> simp

theorem minLength_loop_le (least : Nat) (most : Option Nat) (greedy : Bool) (body : Expr) :
    (minLength? (.loop least most greedy body)).getD 0 ≤ least * body.minLength?.getD 0 := by
  rw [minLength?]
  cases body.minLength? <;> simp

/-- What is left shrinks by the least length of the expression at least. -/
theorem length_rest_of_readings {e : Expr} {p q : Cursor} (h : q ∈ e.readings p) :
    q.rest.length + e.minLength?.getD 0 ≤ p.rest.length := by
  induction e generalizing p q with
  | empty =>
    rw [List.mem_singleton.1 h]
    exact Nat.le_refl _
  | text cs =>
    simp only [readings] at h
    split at h
    · rename_i hprefix
      have := (List.isPrefixOf_iff_prefix.1 hprefix).length_le
      rw [List.mem_singleton.1 h, Cursor.rest_skip, List.length_drop, minLength?, Option.getD_some]
      omega
    · cases h
  | one set =>
    obtain ⟨-, rfl⟩ : p.rest.head?.any set.contains ∧ p.next = q := by
      simpa [readings, Cursor.read?] using h
    have hne : p.rest ≠ [] := fun hnil => by simp [readings, Cursor.read?, hnil] at h
    have := List.length_pos_iff.2 hne
    have hle := minLength_one_le set
    rw [Cursor.length_rest_next]
    omega
  | check condition =>
    simp only [readings] at h
    split at h
    · rw [List.mem_singleton.1 h]
      exact Nat.le_refl _
    · cases h
  | group index body ih => exact ih h
  | seq first rest ihfirst ihrest =>
    obtain ⟨r, hr, hq⟩ := List.mem_flatMap.1 h
    have := ihfirst hr
    have := ihrest hq
    have hle := minLength_seq_le first rest
    omega
  | alt first rest ihfirst ihrest =>
    have hle := minLength_alt_le first rest
    rcases List.mem_append.1 h with h | h
    · have := ihfirst h
      omega
    · have := ihrest h
      omega
  | loop least most greedy body ih =>
    obtain ⟨r, hr, hq⟩ := List.mem_flatMap.1 h
    have htimes := length_rest_of_times (fun p q hq => ih (p := p) hq) hr
    have hup := length_rest_of_upTo (fun p q hq => Nat.le_of_add_right_le (ih (p := p) hq)) hq
    have hle := minLength_loop_le least most greedy body
    omega

/-- What always reads something leaves less text. -/
theorem length_rest_lt_of_readings {e : Expr} (h : e.alwaysReads) {p q : Cursor} (hq : q ∈ e.readings p) :
    q.rest.length < p.rest.length := by
  obtain ⟨n, hn, hpos⟩ := alwaysReads_iff.1 h
  have := length_rest_of_readings hq
  rw [hn, Option.getD_some] at this
  omega

end Expr

/-! ## Where threads come to an end -/

namespace Program

variable {code : Program} {p : Cursor} {a : Nat}

/-- Where the match ends that a thread at an address comes to. -/
def ends (code : Program) (p : Cursor) (a : Nat) : Option Cursor :=
  (code.attempt p [⟨a, p, [], []⟩]).map (·.stop)

/-- It does not matter what the thread has read. -/
theorem map_stop_attempt (t : Thread) : (code.attempt p [t]).map (·.stop) = code.ends p t.address := by
  have hsame : List.Forall₂ (fun t t' : Thread => t'.address = t.address) [⟨t.address, p, [], []⟩] [t] := .cons rfl .nil
  have hrel := (simulation_address code).attempt p hsame
  rw [ends]
  generalize code.attempt p [_] = m, code.attempt p [t] = m' at hrel
  cases hrel with
  | some h => exact congrArg some h
  | none => rfl

section Slopes

variable {height : Nat → Int} (h : Slopes code.toList height)

include h

theorem attempt_of_goOn_of_slopes {t : Thread} {threads : List Thread} (hf : code.follow p t = .goOn threads) :
    code.attempt p [t] = code.attempt p threads := by
  have hdown {t s : Thread} {threads : List Thread} (hf : code.follow p t = .goOn threads) (hs : s ∈ threads) :
      height s.address < height t.address := by
    obtain ⟨i, hi, step, hstep, haddress⟩ := exists_step_of_follow hf hs
    obtain ⟨b, hb, -, hlt⟩ := h t.address i (by simpa using hi) step hstep
    rwa [haddress, ← hb, Int.toNat_natCast]
  have hconfines : code.Confines p (height · < height t.address) := fun t' threads ht' hf s hs =>
    Int.lt_trans (hdown hf hs) ht'
  exact hconfines.attempt_of_goOn hf (fun s hs => hdown hf hs) (Int.lt_irrefl _)

theorem ends_of_goOn {t : Thread} {threads : List Thread} (hf : code.follow p t = .goOn threads) :
    code.ends p t.address = threads.findSome? (code.ends p ·.address) := by
  rw [← map_stop_attempt, attempt_of_goOn_of_slopes h hf,
    attempt_eq_findSome? (attempt_append code p), List.map_findSome?]
  simp only [Function.comp_def, map_stop_attempt]

end Slopes

theorem ends_accept (hi : code[a]? = some .accept) : code.ends p a = some p := by
  have hexplores : Explores code p [] [⟨a, p, [], []⟩] [] (some ⟨a, p, [], []⟩) [a] :=
    .accept List.not_mem_nil (follow_eq_accept_iff.2 hi)
  rw [ends]
  cases hp : p.rest with
  | nil =>
    rw [attempt_of_end hp hexplores]
    rfl
  | cons c rest =>
    rw [attempt_of_cons hp hexplores, List.filterMap_nil, attempt_nil]
    rfl

theorem ends_read {set : CharSet} (hi : code[a]? = some (.read set)) :
    code.ends p a = (p.read? set).bind (code.ends · (a + 1)) := by
  have hexplores : Explores code p [] [⟨a, p, [], []⟩] [⟨a, p, [], []⟩] none [a] :=
    .wait List.not_mem_nil (follow_eq_wait_iff.2 ⟨set, hi⟩) .nil
  rw [ends]
  cases hp : p.rest with
  | nil =>
    rw [attempt_of_end hp hexplores, Cursor.read?_of_end hp]
    rfl
  | cons c rest =>
    have hadvance : code.advance c ⟨a, p, [], []⟩ =
        if set.contains c then some (Thread.move ⟨a, p, [], []⟩ 1) else none := by
      simp only [advance, hi]
    rw [attempt_of_cons hp hexplores, Cursor.read?_of_cons hp, Option.map_none, Option.or_none]
    by_cases hc : set.contains c
    · rw [if_pos hc] at hadvance ⊢
      rw [List.filterMap_cons_some hadvance, List.filterMap_nil, map_stop_attempt]
      rfl
    · rw [if_neg hc] at hadvance ⊢
      rw [List.filterMap_cons_none hadvance, List.filterMap_nil, attempt_nil]
      rfl

section Slopes

variable {height : Nat → Int} (h : Slopes code.toList height)

include h

theorem ends_check {condition : Condition} (hi : code[a]? = some (.check condition)) :
    code.ends p a = if condition.holds p then code.ends p (a + 1) else none := by
  have hends := ends_of_goOn h (p := p) (t := ⟨a, p, [], []⟩) (by simp only [follow, hi]; rfl)
  split at hends
  · rename_i hc
    simpa [hc, Thread.move] using hends
  · rename_i hc
    simpa [hc] using hends

theorem ends_openGroup {index : Nat} (hi : code[a]? = some (.openGroup index)) :
    code.ends p a = code.ends p (a + 1) := by
  have hends := ends_of_goOn h (p := p) (t := ⟨a, p, [], []⟩) (by simp only [follow, hi]; rfl)
  simpa [Thread.move, Thread.openGroup] using hends

theorem ends_closeGroup {index : Nat} (hi : code[a]? = some (.closeGroup index)) :
    code.ends p a = code.ends p (a + 1) := by
  have hends := ends_of_goOn h (p := p) (t := ⟨a, p, [], []⟩) (by simp only [follow, hi]; rfl)
  simpa [Thread.move, Thread.closeGroup] using hends

theorem ends_jump {offset : Int} (hi : code[a]? = some (.jump offset)) {b : Nat} (hb : (b : Int) = a + offset) :
    code.ends p a = code.ends p b := by
  have hends := ends_of_goOn h (p := p) (t := ⟨a, p, [], []⟩) (by simp only [follow, hi]; rfl)
  simpa [Thread.move, ← hb] using hends

theorem ends_fork {preferred other : Int} (hi : code[a]? = some (.fork preferred other)) {b c : Nat}
    (hb : (b : Int) = a + preferred) (hc : (c : Int) = a + other) :
    code.ends p a = (code.ends p b).or (code.ends p c) := by
  have hends := ends_of_goOn h (p := p) (t := ⟨a, p, [], []⟩) (by simp only [follow, hi]; rfl)
  simp only [Thread.move, ← hb, ← hc, Int.toNat_natCast, List.findSome?_cons, List.findSome?_nil] at hends
  rw [hends]
  cases code.ends p b <;> cases code.ends p c <;> rfl

/-- What follows or what is elsewhere, whichever is preferred. -/
theorem ends_enter {greedy : Bool} {elsewhere : Int} (hi : code[a]? = some (.enter greedy elsewhere)) {b : Nat}
    (hb : (b : Int) = a + elsewhere) :
    code.ends p a = if greedy then (code.ends p (a + 1)).or (code.ends p b)
      else (code.ends p b).or (code.ends p (a + 1)) := by
  cases greedy with
  | true => exact ends_fork h hi rfl hb
  | false => exact ends_fork h hi hb rfl

theorem ends_again {greedy : Bool} {elsewhere : Int} (hi : code[a]? = some (.again greedy elsewhere)) {b : Nat}
    (hb : (b : Int) = a + elsewhere) :
    code.ends p a = if greedy then (code.ends p b).or (code.ends p (a + 1))
      else (code.ends p (a + 1)).or (code.ends p b) := by
  cases greedy with
  | true => exact ends_fork h hi hb rfl
  | false => exact ends_fork h hi rfl hb

end Slopes

/-! ## Instructions in a program -/

/-- Some instructions stand in a program from an address on. -/
def Contains (code : Program) (base : Nat) (body : List Instr) : Prop :=
  ∀ a i, body[a]? = some i → code[base + a]? = some i

section Contains

variable {base : Nat} {i : Instr} {body body' : List Instr}

theorem Contains.cons (h : code.Contains base (i :: body)) :
    code[base]? = some i ∧ code.Contains (base + 1) body := by
  refine ⟨h 0 i rfl, fun a j hj => ?_⟩
  rw [Nat.add_assoc, Nat.add_comm 1]
  exact h (a + 1) j hj

theorem Contains.append (h : code.Contains base (body ++ body')) :
    code.Contains base body ∧ code.Contains (base + body.length) body' := by
  refine ⟨fun a j hj => h a j ?_, fun a j hj => ?_⟩
  · rwa [List.getElem?_append_left (List.getElem?_eq_some_iff.1 hj).1]
  · rw [Nat.add_assoc]
    refine h _ j ?_
    rwa [List.getElem?_append_right (Nat.le_add_right _ _), Nat.add_sub_cancel_left]

end Contains

theorem findSome?_upTo_succ {γ : Type} (round : Cursor → List Cursor) (greedy : Bool) (n : Nat) (p : Cursor)
    (f : Cursor → Option γ) :
    (upTo round greedy (n + 1) p).findSome? f =
      let more := (round p).findSome? fun q => (upTo round greedy n q).findSome? f
      if greedy then more.or (f p) else (f p).or more := by
  rw [← List.findSome?_flatMap, upTo]
  cases greedy with
  | true =>
    simp only [if_true, List.findSome?_append, List.findSome?_singleton]
  | false =>
    simp only [Bool.false_eq_true, if_false, List.findSome?_cons]
    cases f p <;> rfl

/-- An address from which threads go round, reading something each time, or leave. -/
theorem ends_rounds {round : Cursor → List Cursor} {greedy : Bool} {entry exit : Nat}
    (hshrinks : ∀ p, ∀ q ∈ round p, q.rest.length < p.rest.length)
    (hentry : ∀ p, code.ends p entry =
      let more := (round p).findSome? (code.ends · entry)
      if greedy then more.or (code.ends p exit) else (code.ends p exit).or more)
    {n : Nat} (hn : p.rest.length ≤ n) :
    code.ends p entry = (upTo round greedy n p).findSome? (code.ends · exit) := by
  -- Induction on the number of rounds that the text left leaves room for.
  induction n generalizing p with
  | zero =>
    have hnil : round p = [] := List.eq_nil_iff_forall_not_mem.2 fun q hq => by
      have := hshrinks p q hq
      omega
    rw [hentry, hnil, upTo]
    cases greedy <;> simp
  | succ n ih =>
    have hmore : (round p).findSome? (code.ends · entry) =
        (round p).findSome? fun q => (upTo round greedy n q).findSome? (code.ends · exit) :=
      List.findSome?_congr fun q hq => ih (by have := hshrinks p q hq; omega)
    rw [hentry, findSome?_upTo_succ, hmore]

/-- Threads at the beginning of some instructions come to what threads behind them come to, from the
positions at which reading them may stop. -/
def Stops (code : Program) (base : Nat) (body : List Instr) (stops : Cursor → List Cursor) : Prop :=
  ∀ p, code.ends p base = (stops p).findSome? (code.ends · (base + body.length))

theorem times_succ (round : Cursor → List Cursor) (n : Nat) (p : Cursor) :
    times round (n + 1) p = (times round n p).flatMap round := by
  induction n generalizing p with
  | zero => simp [times]
  | succ n ih =>
    show (round p).flatMap (times round (n + 1)) = ((round p).flatMap (times round n)).flatMap round
    rw [List.flatMap_assoc]
    exact List.flatMap_congr fun q _ => ih q

section Repetition

variable {height : Nat → Int} (h : Slopes code.toList height) {base : Nat} {body : List Instr}
  {round : Cursor → List Cursor} (hround : ∀ base, code.Contains base body → code.Stops base body round)
  {greedy : Bool}

theorem stops_append {body' : List Instr} {round' : Cursor → List Cursor} (hfirst : code.Stops base body round)
    (hrest : code.Stops (base + body.length) body' round') :
    code.Stops base (body ++ body') fun p => (round p).flatMap round' := by
  intro p
  rw [hfirst p, List.findSome?_flatMap]
  simp only [hrest _, List.length_append, Nat.add_assoc]

include hround

theorem stops_exactly {n : Nat} (hcode : code.Contains base (exactly body n)) :
    code.Stops base (exactly body n) (times round n) := by
  induction n generalizing base with
  | zero => exact fun p => by simp [times, exactly]
  | succ n ih =>
    have hcode : code.Contains base (body ++ exactly body n) := hcode
    obtain ⟨hfirst, hrest⟩ := hcode.append
    exact stops_append (hround base hfirst) (ih hrest)

include h

theorem stops_atMost {n : Nat} (hcode : code.Contains base (atMost greedy body n)) :
    code.Stops base (atMost greedy body n) (upTo round greedy n) := by
  induction n generalizing base with
  | zero => exact fun p => by simp [upTo, atMost]
  | succ n ih =>
    rw [atMost_succ] at hcode ⊢
    obtain ⟨henter, hmore⟩ := Contains.cons hcode
    obtain ⟨hbody, hrest⟩ := Contains.append hmore
    intro p
    have hlength : base + (.enter greedy ((n + 1) * (body.length + 1) : Nat) :: body ++ atMost greedy body n).length =
        base + 1 + (body ++ atMost greedy body n).length := by
      simp only [List.cons_append, List.length_cons]
      omega
    have hend : ((base + 1 + (body ++ atMost greedy body n).length : Nat) : Int) =
        base + ((n + 1) * (body.length + 1) : Nat) := by
      rw [List.length_append, length_atMost, Nat.succ_mul]
      omega
    rw [hlength, ends_enter h henter hend, stops_append (hround _ hbody) (ih hrest) p, findSome?_upTo_succ,
      List.findSome?_flatMap]

theorem stops_anyNumber (hshrinks : ∀ p, ∀ q ∈ round p, q.rest.length < p.rest.length)
    (hcode : code.Contains base (anyNumber greedy body)) :
    code.Stops base (anyNumber greedy body) fun p => upTo round greedy p.rest.length p := by
  obtain ⟨henter, hmore⟩ := Contains.cons hcode
  obtain ⟨hbody, hjump⟩ := Contains.append hmore
  obtain ⟨hjump, -⟩ := Contains.cons hjump
  have hback (q : Cursor) : code.ends q (base + 1 + body.length) = code.ends q base :=
    ends_jump h hjump (by push_cast; omega)
  have hlength : base + (anyNumber greedy body).length = base + (body.length + 2) := by simp [anyNumber]
  intro p
  rw [hlength]
  refine ends_rounds hshrinks (fun q => ?_) (Nat.le_refl _)
  rw [ends_enter h henter (b := base + (body.length + 2)) (by push_cast; omega), hround _ hbody q]
  simp only [hback]

theorem stops_oneOrMore (hshrinks : ∀ p, ∀ q ∈ round p, q.rest.length < p.rest.length)
    (hcode : code.Contains base (oneOrMore greedy body)) :
    code.Stops base (oneOrMore greedy body) fun p =>
      (round p).flatMap fun q => upTo round greedy q.rest.length q := by
  obtain ⟨hbody, hagain⟩ := Contains.append hcode
  obtain ⟨hagain, -⟩ := Contains.cons hagain
  have hlength : base + (oneOrMore greedy body).length = base + body.length + 1 := by
    simp [oneOrMore, Nat.add_assoc]
  intro p
  rw [hlength, List.findSome?_flatMap, hround _ hbody p]
  refine List.findSome?_congr fun q _ => ends_rounds hshrinks (fun r => ?_) (Nat.le_refl _)
  rw [ends_again h hagain (b := base) (by push_cast; omega), hround _ hbody r]

/-- A repetition: the rounds that it must have, then those that it may have, as many as the text left
has characters where there is no bound. -/
theorem stops_repeated {reads : Bool} {least : Nat} {most : Option Nat} (hmost : most.isSome || reads)
    (hshrinks : reads → ∀ p, ∀ q ∈ round p, q.rest.length < p.rest.length)
    (hcode : code.Contains base (repeated greedy body reads least most)) :
    code.Stops base (repeated greedy body reads least most) fun p =>
      (times round least p).flatMap fun q =>
        upTo round greedy ((most.map (· - least)).getD q.rest.length) q := by
  cases most with
  | some most =>
    have hrepeated : repeated greedy body reads least (some most) =
        exactly body least ++ atMost greedy body (most - least) := by cases least <;> rfl
    rw [hrepeated] at hcode ⊢
    obtain ⟨hfirst, hmore⟩ := hcode.append
    exact stops_append (stops_exactly hround hfirst) (stops_atMost h hround hmore)
  | none =>
    have hreads : reads := hmost
    cases least with
    | zero =>
      have hrepeated : repeated greedy body reads 0 none = anyNumber greedy body := if_pos hreads
      rw [hrepeated] at hcode ⊢
      have hstops := stops_anyNumber h hround (hshrinks hreads) hcode
      intro p
      simpa [times] using hstops p
    | succ least =>
      have hcode : code.Contains base (exactly body least ++ oneOrMore greedy body) := hcode
      obtain ⟨hfirst, hmore⟩ := hcode.append
      have hstops := stops_append (stops_exactly hround hfirst)
        (stops_oneOrMore h hround (hshrinks hreads) hmore)
      intro p
      simp only [times_succ, List.flatMap_assoc]
      exact hstops p

/-- A group is read as what it encloses. -/
theorem stops_group {index : Nat}
    (hcode : code.Contains base (.openGroup index :: body ++ [.closeGroup index])) :
    code.Stops base (.openGroup index :: body ++ [.closeGroup index]) round := by
  obtain ⟨hbody, hclose⟩ := Contains.append hcode
  obtain ⟨hopen, hbody⟩ := Contains.cons hbody
  obtain ⟨hclose, -⟩ := Contains.cons hclose
  have hlength : base + (Instr.openGroup index :: body ++ [Instr.closeGroup index]).length =
      base + 1 + body.length + 1 := by
    simp only [List.length_append, List.length_cons, List.length_nil]
    omega
  rw [List.length_cons, ← Nat.add_assoc, Nat.add_right_comm] at hclose
  intro p
  rw [hlength, ends_openGroup h hopen, hround _ hbody p]
  exact List.findSome?_congr fun q _ => ends_closeGroup h hclose

/-- A choice is read as its first part or, if that comes to no end, as its second. -/
theorem stops_alt {body' : List Instr} {round' : Cursor → List Cursor}
    (hround' : ∀ base, code.Contains base body' → code.Stops base body' round')
    (hcode : code.Contains base
      (.fork 1 (body.length + 2 : Nat) :: body ++ .jump (body'.length + 1 : Nat) :: body')) :
    code.Stops base (.fork 1 (body.length + 2 : Nat) :: body ++ .jump (body'.length + 1 : Nat) :: body')
      fun p => round p ++ round' p := by
  obtain ⟨hfirst, hrest⟩ := Contains.append hcode
  obtain ⟨hfork, hfirst⟩ := Contains.cons hfirst
  obtain ⟨hjump, hrest⟩ := Contains.cons hrest
  rw [List.length_cons, ← Nat.add_assoc, Nat.add_right_comm] at hjump
  rw [List.length_cons, Nat.add_assoc] at hrest
  have hlength : base + (Instr.fork 1 (body.length + 2 : Nat) :: body ++
      .jump (body'.length + 1 : Nat) :: body').length = base + (body.length + 2) + body'.length := by
    simp only [List.length_append, List.length_cons]
    omega
  intro p
  have hends : code.ends p (base + 1) =
      (round p).findSome? (code.ends · (base + (body.length + 2) + body'.length)) := by
    rw [hround _ hfirst p]
    exact List.findSome?_congr fun q _ => ends_jump h hjump (by push_cast; omega)
  rw [hlength, ends_fork h hfork (b := base + 1) (c := base + (body.length + 2)) rfl (by push_cast; omega),
    hends, hround' _ hrest p, List.findSome?_append]

end Repetition

/-- A text is read character by character. -/
theorem stops_text {base : Nat} {cs : List Char} (hcode : code.Contains base (Expr.text cs).code) :
    code.Stops base (Expr.text cs).code (Expr.text cs).readings := by
  intro p
  induction cs generalizing base p with
  | nil => simp [Expr.readings, Expr.code, Cursor.skip]
  | cons c cs ih =>
    obtain ⟨hc, hcs⟩ := Contains.cons hcode
    have hmore := ih hcs p.next
    rw [ends_read hc, Expr.readings]
    rw [Expr.readings] at hmore
    cases hp : p.rest with
    | nil => simp [Cursor.read?_of_end hp]
    | cons d rest =>
      have hnext : p.next.rest = rest := by simp [Cursor.next, hp]
      rw [Cursor.read?_of_cons hp, CharSet.contains_single, List.isPrefixOf_cons_cons]
      rw [hnext] at hmore
      by_cases hd : c = d
      · rw [if_pos (by simpa using hd), Option.bind_some, hmore]
        simp [hd, Expr.code, Cursor.skip, Nat.add_assoc, Nat.add_comm 1]
      · simp [hd]

variable {height : Nat → Int}

/-- Threads at the beginning of the instructions of an expression come to what threads behind them come
to, from the positions at which reading the expression may stop. -/
theorem stops_code (h : Slopes code.toList height) {e : Expr} (he : e.Productive) {base : Nat}
    (hcode : code.Contains base e.code) : code.Stops base e.code e.readings := by
  induction e generalizing base with
  | empty => exact fun p => by simp [Expr.readings, Expr.code]
  | text cs => exact stops_text hcode
  | one set =>
    intro p
    obtain ⟨hset, -⟩ := Contains.cons hcode
    rw [ends_read hset, Expr.readings]
    cases p.read? set <;> simp [Expr.code]
  | check condition =>
    intro p
    obtain ⟨hcheck, -⟩ := Contains.cons hcode
    rw [ends_check h hcheck, Expr.readings]
    split <;> simp [Expr.code]
  | group index body ih => exact stops_group h (fun _ => ih he) hcode
  | seq first rest ihfirst ihrest =>
    obtain ⟨hefirst, herest⟩ := Bool.and_eq_true_iff.1 he
    obtain ⟨hfirst, hrest⟩ := Contains.append hcode
    exact stops_append (ihfirst hefirst hfirst) (ihrest herest hrest)
  | alt first rest ihfirst ihrest =>
    obtain ⟨hefirst, herest⟩ := Bool.and_eq_true_iff.1 he
    exact stops_alt h (fun _ => ihfirst hefirst) (fun _ => ihrest herest) hcode
  | loop least most greedy body ih =>
    obtain ⟨hebody, hmost⟩ := Bool.and_eq_true_iff.1 he
    exact stops_repeated h (fun _ => ih hebody) hmost
      (fun hreads p q => Expr.length_rest_lt_of_readings hreads) hcode

end Program

/-- The match that begins at a position ends at the first position at which reading may stop. -/
theorem stop_matchAt {p : Pattern} (he : p.expr.Productive) (c : Cursor) :
    (p.matchAt c).map (·.stop) = (p.expr.readings c).head? := by
  obtain ⟨height, hslopes⟩ := Expr.exists_slopes_program he
  have hcode : p.expr.program.Contains 0 p.expr.code := fun a i hi => by
    rw [Nat.zero_add, Expr.program, List.getElem?_toArray]
    rwa [List.getElem?_append_left (List.getElem?_eq_some_iff.1 hi).1]
  have haccept : p.expr.program[0 + p.expr.code.length]? = some .accept := by
    simp [Expr.program]
  rw [matchAt_eq, Program.map_stop_attempt]
  show p.expr.program.ends c 0 = _
  rw [Program.stops_code hslopes he hcode c]
  simp only [Program.ends_accept haccept]
  cases p.expr.readings c <;> simp

end Highlight.Pattern
