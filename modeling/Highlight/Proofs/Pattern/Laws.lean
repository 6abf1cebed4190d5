import Mathlib.Computability.Language
import Highlight.Proofs.Pattern.Scans

/-!
# Laws of readings

What an expression reads is a text of its language, the language of its structure alone, with the tests on
positions left out (`Expr.exists_reads`); the language says which characters may be read (`Expr.Within`), and
which come last (`Expr.EndsIn`). The converse depends on what is around the text, and so does the preferred
reading (`Leads`). Repetitions of single characters stop behind the longest piece of such characters
(`Cursor.past`), unless what follows cannot go on there; other repetitions are taken apart round by round
(`Expr.readings_star`).
-/

-- Out here, as inside the namespace another kind of language goes by the name.
/-- A formal language of texts. -/
abbrev TextLanguage := Language Char

namespace Highlight.Pattern

open scoped Computability

/-! ## Pieces of a text -/

/-- From one position to another a text is read. -/
structure Cursor.Reads (p : Cursor) (cs : List Char) (q : Cursor) : Prop where
  rest : p.rest = cs ++ q.rest
  stop : q = p.skip cs.length

namespace Cursor

/-- The position behind the longest piece of characters for which a test holds. -/
def past (p : Cursor) (test : Char → Bool) : Cursor := p.skip (p.rest.takeWhile test).length

variable {p q r : Cursor} {cs ds back : List Char} {test : Char → Bool}

theorem reads_append (h : p.rest = cs ++ back) : p.Reads cs (p.skip cs.length) :=
  ⟨by rw [rest_skip_append h, h], rfl⟩

theorem reads_nil (p : Cursor) : p.Reads [] p := ⟨rfl, rfl⟩

theorem reads_next {c : Char} (h : p.rest = c :: back) : p.Reads [c] p.next := reads_append h

theorem reads_past (p : Cursor) (test : Char → Bool) : p.Reads (p.rest.takeWhile test) (p.past test) :=
  reads_append List.takeWhile_append_dropWhile.symm

theorem rest_past (p : Cursor) (test : Char → Bool) : (p.past test).rest = p.rest.dropWhile test :=
  rest_skip_append List.takeWhile_append_dropWhile.symm

namespace Reads

theorem trans (h : p.Reads cs q) (h' : q.Reads ds r) : p.Reads (cs ++ ds) r :=
  ⟨by rw [h.rest, h'.rest, List.append_assoc], by
    rw [h'.stop, h.stop, ← skip_add, List.length_append]⟩

theorem length_le (h : p.Reads cs q) : cs.length ≤ p.rest.length := by
  rw [h.rest, List.length_append]
  exact Nat.le_add_right ..

theorem offset (h : p.Reads cs q) : q.offset = p.offset + cs.length := by
  rw [h.stop, offset_skip h.length_le]

theorem before (h : p.Reads cs q) : q.before = cs.getLast?.or p.before := by
  rw [h.stop, before_skip h.rest]

theorem take (h : p.Reads cs q) : p.rest.take cs.length = cs := by
  rw [h.rest, List.take_left]

end Reads

theorem past_of_head {c : Char} (h : p.rest = c :: back) (hc : test c = false) : p.past test = p := by
  simp [past, skip, h, hc]

theorem past_of_end (h : p.rest = []) : p.past test = p := by
  simp [past, skip, h]

/-- Behind the piece no such character comes. -/
theorem eq_false_of_past {c : Char} (h : (p.past test).rest.head? = some c) : test c = false := by
  have hnot := List.head?_dropWhile_not test p.rest
  rw [← rest_past, h] at hnot
  exact hnot

theorem past_next {c : Char} (h : p.rest = c :: back) (hc : test c = true) : p.past test = p.next.past test := by
  have hnext : p.next.rest = back := by simp [next, h]
  simp [past, skip, h, hc, hnext]

/-- A piece of characters for which a test holds, and behind it none. -/
theorem past_eq (h : p.rest = cs ++ back) (hcs : ∀ c ∈ cs, test c) (hback : ∀ c ∈ back.head?, test c = false) :
    p.past test = p.skip cs.length := by
  have hnil : back.takeWhile test = [] := by
    cases back with
    | nil => rfl
    | cons c back => simp [hback c rfl]
  rw [past, h, List.takeWhile_append_of_pos hcs, hnil, List.append_nil]

/-- A piece of a text that ends before a character for which the test does not hold. -/
theorem past_append (h : p.rest = cs ++ back) (hback : ∀ c ∈ back.head?, test c = false) :
    p.past test = p.skip (cs.takeWhile test).length ∧ (p.past test).rest = cs.dropWhile test ++ back := by
  induction cs generalizing p with
  | nil =>
    cases back with
    | nil => exact ⟨past_of_end h, by rw [past_of_end h, h]; rfl⟩
    | cons c back =>
      have hpast := past_of_head h (hback c rfl)
      exact ⟨hpast, by rw [hpast, h]; rfl⟩
  | cons c cs ih =>
    by_cases hc : test c
    · have hnext : p.next.rest = cs ++ back := by simp [next, h]
      rw [past_next h hc, List.takeWhile_cons_of_pos hc, List.dropWhile_cons_of_pos hc]
      exact ih hnext
    · have hpast := past_of_head h (Bool.eq_false_iff.2 hc)
      rw [hpast, List.takeWhile_cons_of_neg hc, List.dropWhile_cons_of_neg hc]
      exact ⟨rfl, h⟩

end Cursor

/-! ## Sets of a few characters -/

namespace CharSet

/-- The characters listed. -/
def ofChars (cs : List Char) : CharSet := ofRanges (cs.map fun c => (c.toNat, c.toNat))

theorem contains_ofChars (cs : List Char) (c : Char) : (ofChars cs).contains c = cs.contains c := by
  rw [ofChars, contains_ofRanges, List.any_map, List.contains_eq_any_beq]
  refine congrArg (cs.any ·) (funext fun d => ?_)
  rw [Bool.eq_iff_iff, beq_iff_eq, ← Char.toNat_inj]
  simp only [Function.comp_apply, Bool.and_eq_true, decide_eq_true_eq]
  omega

theorem contains_space (c : Char) : space.contains c = Unicode.isSpace c := by
  have hranges : space.ranges = Unicode.spaces := by decide +kernel
  rw [contains, hranges, Unicode.isSpace]

theorem contains_notNewline (c : Char) : notNewline.contains c = (c != '\n') := by
  rw [notNewline, contains_compl, contains_single, bne, Bool.beq_comm]

end CharSet

/-! ## Languages -/

/-- The texts that an expression reads, wherever they stand. -/
def Expr.language : Expr → TextLanguage
  | empty => 1
  | text cs => {cs}
  | one set => {cs | ∃ c, set.contains c ∧ cs = [c]}
  | check _ => 1
  | group _ body => body.language
  | seq first rest => first.language * rest.language
  | alt first rest => first.language + rest.language
  | loop least none _ body => body.language ^ least * body.language∗
  | loop least (some most) _ body => body.language ^ least * (1 + body.language) ^ (most - least)

section Rounds

variable {round : Cursor → List Cursor} {L : TextLanguage} {p q : Cursor} {n : Nat}
  (hround : ∀ p, ∀ q ∈ round p, ∃ cs ∈ L, p.Reads cs q)

include hround

theorem exists_reads_of_times (h : q ∈ times round n p) : ∃ cs ∈ L ^ n, p.Reads cs q := by
  induction n generalizing p with
  | zero =>
    rw [List.mem_singleton.1 h]
    exact ⟨[], rfl, p.reads_nil⟩
  | succ n ih =>
    obtain ⟨r, hr, hq⟩ := List.mem_flatMap.1 h
    obtain ⟨cs, hcs, hreads⟩ := hround p r hr
    obtain ⟨ds, hds, hreads'⟩ := ih hq
    rw [pow_succ']
    exact ⟨cs ++ ds, Language.append_mem_mul hcs hds, hreads.trans hreads'⟩

theorem exists_reads_of_upTo {greedy : Bool} (h : q ∈ upTo round greedy n p) :
    ∃ cs ∈ (1 + L) ^ n, p.Reads cs q := by
  induction n generalizing p with
  | zero =>
    rw [List.mem_singleton.1 h]
    exact ⟨[], rfl, p.reads_nil⟩
  | succ n ih =>
    have hcases : (∃ r ∈ round p, q ∈ upTo round greedy n r) ∨ q = p := by
      rw [upTo] at h
      cases greedy <;> simpa [or_comm] using h
    rcases hcases with ⟨r, hr, hq⟩ | rfl
    · obtain ⟨cs, hcs, hreads⟩ := hround p r hr
      obtain ⟨ds, hds, hreads'⟩ := ih hq
      rw [pow_succ']
      exact ⟨cs ++ ds, Language.append_mem_mul (.inr hcs) hds, hreads.trans hreads'⟩
    · refine ⟨[], Language.mem_pow.2 ⟨List.replicate (n + 1) [], by simp, by simp, ?_⟩, q.reads_nil⟩
      exact fun y hy => .inl (List.eq_of_mem_replicate hy)

end Rounds

theorem mem_kstar_of_mem_pow {L : TextLanguage} {n : Nat} {cs : List Char} (h : cs ∈ (1 + L) ^ n) : cs ∈ L∗ := by
  have hle (n : Nat) : (1 + L) ^ n ≤ L∗ := by
    induction n with
    | zero => exact one_le_kstar
    | succ n ih =>
      rw [pow_succ', add_mul, one_mul]
      exact sup_le ih ((mul_le_mul_right ih L).trans mul_kstar_le_kstar)
  exact hle n h

namespace Expr

/-- A text is read where it stands. -/
theorem mem_readings_text {cs : List Char} {p q : Cursor} : q ∈ (text cs).readings p ↔ p.Reads cs q := by
  rw [readings]
  split
  · rename_i hprefix
    obtain ⟨back, hback⟩ := List.isPrefixOf_iff_prefix.1 hprefix
    rw [List.mem_singleton]
    exact ⟨fun h => h ▸ Cursor.reads_append hback.symm, fun h => h.stop⟩
  · rename_i hprefix
    exact iff_of_false List.not_mem_nil fun h =>
      hprefix (List.isPrefixOf_iff_prefix.2 ⟨q.rest, h.rest.symm⟩)

theorem mem_readings_check {condition : Condition} {p q : Cursor} :
    q ∈ (check condition).readings p ↔ q = p ∧ condition.holds q := by
  rw [readings]
  split
  · rename_i hholds
    rw [List.mem_singleton]
    exact ⟨fun h => ⟨h, h ▸ hholds⟩, And.left⟩
  · rename_i hholds
    exact iff_of_false List.not_mem_nil fun h => hholds (h.1 ▸ h.2)

/-- What is read is in the language. -/
theorem exists_reads {e : Expr} {p q : Cursor} (h : q ∈ e.readings p) : ∃ cs ∈ e.language, p.Reads cs q := by
  induction e generalizing p q with
  | empty =>
    rw [List.mem_singleton.1 h]
    exact ⟨[], rfl, p.reads_nil⟩
  | check condition =>
    rw [(mem_readings_check.1 h).1]
    exact ⟨[], rfl, p.reads_nil⟩
  | text cs => exact ⟨cs, rfl, mem_readings_text.1 h⟩
  | one set =>
    obtain ⟨hhead, rfl⟩ : p.rest.head?.any set.contains ∧ p.next = q := by
      simpa [readings, Cursor.read?] using h
    cases hp : p.rest with
    | nil => simp [hp] at hhead
    | cons c rest =>
      simp only [hp, List.head?_cons, Option.any_some] at hhead
      exact ⟨[c], ⟨c, hhead, rfl⟩, Cursor.reads_next hp⟩
  | group index body ih => exact ih h
  | seq first rest ihfirst ihrest =>
    obtain ⟨r, hr, hq⟩ := List.mem_flatMap.1 h
    obtain ⟨cs, hcs, hreads⟩ := ihfirst hr
    obtain ⟨ds, hds, hreads'⟩ := ihrest hq
    exact ⟨cs ++ ds, Language.append_mem_mul hcs hds, hreads.trans hreads'⟩
  | alt first rest ihfirst ihrest =>
    rcases List.mem_append.1 h with h | h
    · obtain ⟨cs, hcs, hreads⟩ := ihfirst h
      exact ⟨cs, .inl hcs, hreads⟩
    · obtain ⟨cs, hcs, hreads⟩ := ihrest h
      exact ⟨cs, .inr hcs, hreads⟩
  | loop least most greedy body ih =>
    obtain ⟨r, hr, hq⟩ := List.mem_flatMap.1 h
    have hround (p q : Cursor) (h : q ∈ body.readings p) := ih h
    obtain ⟨cs, hcs, hreads⟩ := exists_reads_of_times hround hr
    obtain ⟨ds, hds, hreads'⟩ := exists_reads_of_upTo hround hq
    refine ⟨cs ++ ds, ?_, hreads.trans hreads'⟩
    cases most with
    | none => exact Language.append_mem_mul hcs (mem_kstar_of_mem_pow hds)
    | some most => exact Language.append_mem_mul hcs hds

/-! ## Characters of what is read -/

/-- All characters that are read are of a kind. -/
def Within (e : Expr) (kind : Char → Prop) : Prop := ∀ cs ∈ e.language, ∀ c ∈ cs, kind c

section Within

variable {first rest body : Expr} {kind : Char → Prop}

theorem within_text {cs : List Char} (h : ∀ c ∈ cs, kind c) : (text cs).Within kind := by
  rintro _ rfl
  exact h

theorem within_one {set : CharSet} (h : ∀ c, set.contains c → kind c) : (one set).Within kind := by
  rintro _ ⟨c, hc, rfl⟩
  exact List.forall_mem_singleton.2 (h c hc)

theorem Within.seq (h : first.Within kind) (h' : rest.Within kind) : (seq first rest).Within kind := by
  rintro _ ⟨cs, hcs, ds, hds, rfl⟩
  exact List.forall_mem_append.2 ⟨h cs hcs, h' ds hds⟩

theorem Within.loop (h : body.Within kind) {least : Nat} {most : Option Nat} {greedy : Bool} :
    (loop least most greedy body).Within kind := by
  have hrounds {rounds : List (List Char)} (hr : ∀ cs ∈ rounds, cs ∈ 1 + body.language) :
      ∀ c ∈ rounds.flatten, kind c := by
    refine List.forall_mem_flatten.2 fun cs hcs => ?_
    rcases hr cs hcs with rfl | hcs
    · exact List.forall_mem_nil _
    · exact h cs hcs
  cases most with
  | none =>
    rintro _ ⟨cs, hcs, ds, hds, rfl⟩
    obtain ⟨first, rfl, -, hfirst⟩ := Language.mem_pow.1 hcs
    obtain ⟨more, rfl, hmore⟩ := Language.mem_kstar.1 hds
    exact List.forall_mem_append.2
      ⟨hrounds fun cs hcs => .inr (hfirst cs hcs), hrounds fun cs hcs => .inr (hmore cs hcs)⟩
  | some most =>
    rintro _ ⟨cs, hcs, ds, hds, rfl⟩
    obtain ⟨first, rfl, -, hfirst⟩ := Language.mem_pow.1 hcs
    obtain ⟨more, rfl, -, hmore⟩ := Language.mem_pow.1 hds
    exact List.forall_mem_append.2 ⟨hrounds fun cs hcs => .inr (hfirst cs hcs), hrounds hmore⟩

end Within

/-- What is read is some text, and its last character is of a kind. -/
def EndsIn (e : Expr) (kind : Char → Prop) : Prop := ∀ cs ∈ e.language, ∃ c, cs.getLast? = some c ∧ kind c

section EndsIn

variable {e first rest : Expr} {kind : Char → Prop} {p q : Cursor}

theorem endsIn_text {cs : List Char} {c : Char} (h : cs.getLast? = some c) (hc : kind c) : (text cs).EndsIn kind := by
  rintro _ rfl
  exact ⟨c, h, hc⟩

theorem endsIn_one {set : CharSet} (h : ∀ c, set.contains c → kind c) : (one set).EndsIn kind := by
  rintro _ ⟨c, hc, rfl⟩
  exact ⟨c, rfl, h c hc⟩

theorem EndsIn.seq (h : rest.EndsIn kind) : (seq first rest).EndsIn kind := by
  rintro _ ⟨cs, -, ds, hds, rfl⟩
  obtain ⟨c, hlast, hc⟩ := h ds hds
  exact ⟨c, by rw [List.getLast?_append, hlast, Option.some_or], hc⟩

theorem EndsIn.exists_before (h : e.EndsIn kind) (hq : q ∈ e.readings p) : ∃ c, q.before = some c ∧ kind c := by
  obtain ⟨cs, hcs, hreads⟩ := exists_reads hq
  obtain ⟨c, hlast, hc⟩ := h cs hcs
  exact ⟨c, by rw [hreads.before, hlast, Option.some_or], hc⟩

end EndsIn

/-! ## Repetitions -/

/-- Any number of rounds, as many as possible. -/
abbrev star (body : Expr) : Expr := loop 0 none true body

/-- One round or more, as many as possible. -/
abbrev plus (body : Expr) : Expr := loop 1 none true body

/-- One round, or else none. -/
abbrev optional (body : Expr) : Expr := loop 0 (some 1) true body

theorem language_optional (body : Expr) : (optional body).language = 1 + body.language := by
  rw [language, pow_zero, one_mul, Nat.sub_zero, pow_one]

/-- The number of rounds is of no matter if there are enough of them. -/
theorem upTo_eq_of_le {round : Cursor → List Cursor} (hshrinks : ∀ p, ∀ q ∈ round p, q.rest.length < p.rest.length)
    (greedy : Bool) {m n : Nat} {p : Cursor} (hm : p.rest.length ≤ m) (hn : p.rest.length ≤ n) :
    upTo round greedy m p = upTo round greedy n p := by
  have hnil {p : Cursor} (hp : p.rest.length ≤ 0) : round p = [] :=
    List.eq_nil_iff_forall_not_mem.2 fun q hq => by
      have := hshrinks p q hq
      omega
  induction m generalizing n p with
  | zero => cases n <;> cases greedy <;> simp [upTo, hnil hm]
  | succ m ih =>
    cases n with
    | zero => cases greedy <;> simp [upTo, hnil hn]
    | succ n =>
      have hmore : (round p).flatMap (upTo round greedy m) = (round p).flatMap (upTo round greedy n) :=
        List.flatMap_congr fun q hq => by
          have := hshrinks p q hq
          exact ih (by omega) (by omega)
      rw [upTo, upTo, hmore]

variable {e body first rest : Expr} {set : CharSet} {p q r : Cursor} {c : Char} {cs back : List Char}

theorem readings_star (h : body.alwaysReads) (p : Cursor) :
    (star body).readings p = (body.readings p).flatMap (star body).readings ++ [p] := by
  have hshrinks (p q : Cursor) (hq : q ∈ body.readings p) := length_rest_lt_of_readings h hq
  have hstar (p : Cursor) : (star body).readings p = upTo body.readings true p.rest.length p := by
    simp [readings, times]
  rw [hstar, upTo_eq_of_le hshrinks true (Nat.le_refl _) (Nat.le_succ _), upTo, if_pos rfl]
  refine congrArg (· ++ [p]) (List.flatMap_congr fun q hq => ?_)
  rw [hstar]
  exact upTo_eq_of_le hshrinks true (Nat.le_of_lt (hshrinks p q hq)) (Nat.le_refl _)

theorem readings_plus (body : Expr) (p : Cursor) :
    (plus body).readings p = (body.readings p).flatMap (star body).readings := by
  simp [readings, times]

theorem readings_optional (body : Expr) (p : Cursor) : (optional body).readings p = body.readings p ++ [p] := by
  simp [readings, times, upTo]

theorem readings_one_of_cons (hp : p.rest = c :: back) (set : CharSet) :
    (one set).readings p = if set.contains c then [p.next] else [] := by
  rw [readings, Cursor.read?_of_cons hp]
  split <;> rfl

theorem readings_one_of_end (hp : p.rest = []) (set : CharSet) : (one set).readings p = [] := by
  rw [readings, Cursor.read?_of_end hp]
  rfl

theorem readings_one_of_head (h : ∀ c ∈ p.rest.head?, set.contains c = false) : (one set).readings p = [] := by
  cases hp : p.rest with
  | nil => exact readings_one_of_end hp set
  | cons c rest => rw [readings_one_of_cons hp, h c (by rw [hp]; rfl), if_neg Bool.false_ne_true]

theorem readings_seq_of_nil (h : first.readings p = []) (rest : Expr) : (seq first rest).readings p = [] := by
  rw [readings, h, List.flatMap_nil]

theorem readings_check_seq (condition : Condition) (e : Expr) (p : Cursor) :
    (seq (check condition) e).readings p = if condition.holds p then e.readings p else [] := by
  rw [readings, readings]
  split
  · rw [List.flatMap_singleton]
  · rfl

theorem readings_ofBranches (es : List Expr) (p : Cursor) :
    (ofBranches es).readings p = es.flatMap fun e => e.readings p := by
  induction es with
  | nil =>
    rw [ofBranches, readings_one_of_head fun c _ => rfl]
    rfl
  | cons e es ih =>
    cases es with
    | nil => exact (List.append_nil _).symm
    | cons e' es =>
      show e.readings p ++ (ofBranches (e' :: es)).readings p = _
      rw [ih]
      rfl

theorem readings_text_of_head {d : Char} (h : p.rest.head? ≠ some d) (ds : List Char) :
    (text (d :: ds)).readings p = [] := by
  cases hp : p.rest with
  | nil => simp [readings, hp]
  | cons c rest =>
    rw [hp] at h
    have hne : ¬ d = c := fun hd => h (congrArg some hd.symm)
    simp [readings, hp, hne]

theorem readings_char (c : Char) (p : Cursor) :
    (text [c]).readings p = if p.rest.head? = some c then [p.next] else [] := by
  cases hp : p.rest with
  | nil => simp [readings, hp]
  | cons d rest =>
    by_cases hc : d = c
    · simp [readings, hp, Cursor.skip, hc]
    · simp [readings, hp, hc, Ne.symm hc]

theorem alwaysReads_one (hc : set.contains c) : (one set).alwaysReads := by
  have hne : set.isEmpty = false := by
    obtain ⟨ranges, hranges⟩ := set
    cases ranges with
    | nil => cases hc
    | cons => rfl
  simp [alwaysReads, minLength?, hne]

/-- What follows a repetition of single characters goes on behind the longest piece of them, if it cannot go
on in front of such a character. -/
theorem flatMap_star_one (set : CharSet) (hset : (one set).alwaysReads) {f : Cursor → List Cursor}
    (h : ∀ cs q c, p.Reads cs q → (∀ x ∈ cs, set.contains x) → q.rest.head? = some c → set.contains c → f q = []) :
    ((star (one set)).readings p).flatMap f = f (p.past set.contains) := by
  -- Induction on the text; the position itself is a reading, but nothing goes on there.
  induction p using Cursor.induction with
  | last p hp =>
    rw [readings_star hset, readings_one_of_end hp, List.flatMap_nil, List.nil_append, List.flatMap_singleton,
      Cursor.past_of_end hp]
  | step p c rest hp ih =>
    rw [readings_star hset, readings_one_of_cons hp]
    by_cases hc : set.contains c
    · have hnext := ih fun cs q d hreads hcs =>
        h (c :: cs) q d ((Cursor.reads_next hp).trans hreads) (List.forall_mem_cons.2 ⟨hc, hcs⟩)
      have hhere : f p = [] := h [] p c p.reads_nil (List.forall_mem_nil _) (by rw [hp]; rfl) hc
      rw [if_pos hc, List.flatMap_append, List.flatMap_singleton, List.flatMap_singleton, hnext, hhere,
        List.append_nil, Cursor.past_next hp hc]
    · rw [if_neg hc, List.flatMap_nil, List.nil_append, List.flatMap_singleton,
        Cursor.past_of_head hp (Bool.eq_false_iff.2 hc)]

theorem flatMap_plus_one (set : CharSet) (hset : (one set).alwaysReads) {f : Cursor → List Cursor}
    (h : ∀ q c, q.rest.head? = some c → set.contains c → f q = []) :
    ((plus (one set)).readings p).flatMap f =
      if p.rest.head?.any set.contains then f (p.past set.contains) else [] := by
  cases hp : p.rest with
  | nil =>
    rw [readings_plus, readings_one_of_end hp]
    rfl
  | cons c rest =>
    rw [readings_plus, readings_one_of_cons hp, List.head?_cons, Option.any_some]
    by_cases hc : set.contains c
    · rw [if_pos hc, if_pos hc, List.flatMap_singleton, Cursor.past_next hp hc]
      exact flatMap_star_one set hset fun _ q d _ _ => h q d
    · rw [if_neg hc, if_neg hc]
      rfl

/-! ## Preferred readings -/

/-- The preferred reading of an expression from one position stops at another. -/
def Leads (e : Expr) (p q : Cursor) : Prop := (e.readings p).head? = some q

theorem leads_text (h : p.rest = cs ++ back) : (text cs).Leads p (p.skip cs.length) := by
  simp [Leads, readings, h]

theorem leads_one (h : p.rest = c :: back) (hc : set.contains c) : (one set).Leads p p.next := by
  rw [Leads, readings_one_of_cons h, if_pos hc]
  rfl

theorem leads_check {condition : Condition} (h : condition.holds p) : (check condition).Leads p p := by
  simp [Leads, readings, h]

theorem head?_flatMap_of_head? {l : List Cursor} {f : Cursor → List Cursor} (h : l.head? = some q)
    (h' : (f q).head? = some r) : (l.flatMap f).head? = some r := by
  cases l with
  | nil => cases h
  | cons q' l =>
    cases h
    rw [List.flatMap_cons, List.head?_append, h', Option.some_or]

namespace Leads

theorem seq (h : first.Leads p q) (h' : rest.Leads q r) : (seq first rest).Leads p r :=
  head?_flatMap_of_head? h h'

theorem append {ds : List Char} (h : first.Leads p (p.skip cs.length))
    (h' : rest.Leads (p.skip cs.length) ((p.skip cs.length).skip ds.length)) :
    (Expr.seq first rest).Leads p (p.skip (cs ++ ds).length) := by
  rw [List.length_append, Cursor.skip_add]
  exact h.seq h'

theorem left (h : first.Leads p q) : (alt first rest).Leads p q := by
  rw [Leads] at h
  rw [Leads, readings, List.head?_append, h, Option.some_or]

theorem right (hnil : first.readings p = []) (h : rest.Leads p q) : (alt first rest).Leads p q := by
  rwa [Leads, readings, hnil]

theorem optional (h : body.Leads p q) : (optional body).Leads p q := by
  rw [Leads] at h
  rw [Leads, readings_optional, List.head?_append, h, Option.some_or]

theorem star (hreads : body.alwaysReads) (h : body.Leads p q) (h' : (star body).Leads q r) :
    (star body).Leads p r := by
  rw [Leads, readings_star hreads, List.head?_append, head?_flatMap_of_head? h h', Option.some_or]

theorem plus (h : body.Leads p q) (h' : (Expr.star body).Leads q r) : (plus body).Leads p r := by
  rw [Leads, readings_plus]
  exact head?_flatMap_of_head? h h'

end Leads

/-- A sequence leads where its parts do, if its first part is read in one way only. -/
theorem Leads.exists_of_seq (h : (Expr.seq first rest).Leads p q) (hfirst : (first.readings p).length ≤ 1) :
    ∃ r, first.Leads p r ∧ rest.Leads r q := by
  rw [Leads, readings] at h
  cases hreadings : first.readings p with
  | nil =>
    rw [hreadings] at h
    cases h
  | cons r more =>
    rw [hreadings, List.length_cons] at hfirst
    obtain rfl : more = [] := List.length_eq_zero_iff.1 (by omega)
    rw [hreadings, List.flatMap_singleton] at h
    exact ⟨r, by rw [Leads, hreadings]; rfl, h⟩

theorem Leads.of_alt (h : (alt first rest).Leads p q) : first.Leads p q ∨ rest.Leads p q := by
  rw [Leads, readings, List.head?_append, Option.or_eq_some_iff] at h
  exact h.imp_right And.right

theorem length_readings_text_le (cs : List Char) (p : Cursor) : ((text cs).readings p).length ≤ 1 := by
  rw [readings]
  split <;> simp

theorem length_readings_one_le (set : CharSet) (p : Cursor) : ((one set).readings p).length ≤ 1 := by
  rw [readings]
  exact Option.length_toList_le

theorem leads_optional_of_nil (hnil : body.readings p = []) : (optional body).Leads p p := by
  rw [Leads, readings_optional, hnil]
  rfl

theorem leads_star_of_nil (hreads : body.alwaysReads) (hnil : body.readings p = []) : (star body).Leads p p := by
  rw [Leads, readings_star hreads, hnil]
  rfl

/-- As many characters of a set as there are. -/
theorem leads_star_one (set : CharSet) (hset : (one set).alwaysReads) (p : Cursor) :
    (star (one set)).Leads p (p.past set.contains) := by
  induction p using Cursor.induction with
  | last p hp =>
    rw [Cursor.past_of_end hp]
    exact leads_star_of_nil hset (readings_one_of_end hp set)
  | step p c rest hp ih =>
    by_cases hc : set.contains c
    · rw [Cursor.past_next hp hc]
      exact (leads_one hp hc).star hset ih
    · rw [Cursor.past_of_head hp (Bool.eq_false_iff.2 hc)]
      exact leads_star_of_nil hset (by rw [readings_one_of_cons hp, if_neg hc])

theorem leads_plus_one (hp : p.rest = c :: back) (hc : set.contains c) :
    (plus (one set)).Leads p (p.past set.contains) := by
  rw [Cursor.past_next hp hc]
  exact (leads_one hp hc).plus (leads_star_one set (alwaysReads_one hc) p.next)

theorem exists_skip_of_leads (hreads : e.alwaysReads) (h : e.Leads p q) :
    ∃ n, 0 < n ∧ n ≤ p.rest.length ∧ q = p.skip n := by
  have hmem : q ∈ e.readings p := List.mem_of_head? h
  obtain ⟨cs, -, hcs⟩ := exists_reads hmem
  have := length_rest_lt_of_readings hreads hmem
  have := congrArg List.length hcs.rest
  rw [List.length_append] at this
  exact ⟨cs.length, by omega, hcs.length_le, hcs.stop⟩

/-- What an expression reads from a position on, if anything. -/
def find (e : Expr) (p : Cursor) : Option (String × Cursor) :=
  (e.readings p).head?.map fun q => (p.textTo q, q)

theorem forward_find (hreads : e.alwaysReads) : Forward e.find := by
  intro p x q h
  obtain ⟨r, hr, heq⟩ := Option.map_eq_some_iff.1 h
  cases heq
  exact exists_skip_of_leads hreads hr

/-- The matches of an expression are what a scan finds that takes its preferred readings. -/
theorem scans_findAll (he : e.Productive) (hreads : e.alwaysReads) (text : String) :
    Scans e.find (.start text.toList)
      ((e.findAll text).map fun m => ⟨m.text, m.start.offset, m.stop.offset⟩) := by
  let found (m : Match) : Cursor × String × Cursor := (m.start, m.text, m.stop)
  let pattern : Pattern := ⟨"", e, []⟩
  have hmatch (p : Cursor) : (pattern.matchAt p).map found = (e.find p).map (p, ·) := by
    rw [find, ← stop_matchAt (p := pattern) he p]
    cases hm : pattern.matchAt p with
    | none => rfl
    | some m =>
      have hstart : m.start = p := of_decide_eq_true (Option.filter_eq_some_iff.1 hm).2
      simp [found, Match.text, hstart]
  have hsearch (p : Cursor) : (e.program.search p).map found =
      ((e.find p).map (p, ·)).or (if p.rest = [] then none else (e.program.search p.next).map found) := by
    rw [Program.search_eq, ← hmatch, matchAt_eq]
    cases pattern.expr.program.attempt p [.new p] with
    | some m => rfl
    | none => by_cases hp : p.rest = [] <;> simp [hp]
  have hscan {limit : Nat} : ∀ {p : Cursor}, p.rest.length ≤ limit → Scans e.find p
      ((e.program.searchAll limit p).map fun m => ⟨m.text, m.start.offset, m.stop.offset⟩) := by
    induction limit with
    | zero =>
      intro p hp
      have hnil : e.readings p = [] := List.eq_nil_iff_forall_not_mem.2 fun q hq => by
        have := length_rest_lt_of_readings hreads hq
        omega
      exact .last (List.length_eq_zero_iff.1 (Nat.le_zero.1 hp)) (by rw [find, hnil]; rfl)
    | succ limit ih =>
      intro p hp
      refine .of_search hsearch ?_
      rw [Program.searchAll]
      cases hm : e.program.search p with
      | none => rfl
      | some m =>
        obtain ⟨hlt, hless⟩ := (forward_find hreads).lt_of_search hsearch (p := p) (by rw [hm]; rfl)
        have hne : m.isEmpty = false := beq_eq_false_iff_ne.2 (Nat.ne_of_lt hlt)
        simp only [hne, Bool.false_eq_true, if_false, List.map_cons]
        exact ⟨_, ih (by omega), rfl⟩
  exact hscan (Nat.le_of_eq String.length_toList)

end Expr

end Highlight.Pattern
