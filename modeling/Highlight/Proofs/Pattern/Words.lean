import Highlight.Proofs.Pattern.Laws

/-!
# Whole words

A whole word of a text is a piece of word characters that none stands before or behind. Two whole words are
the same or do not even touch (`WholeWord.eq_or_apart`), and a position within one has word characters on both
sides (`WholeWord.inside`). An expression for some words, with boundaries before and behind, reads those of them that
are whole words, whichever of them it tries first (`Expr.leads_word_iff`).
-/

namespace Highlight.Pattern

open Unicode (isWordChar)

/-- A piece of a text that is a word, and where it begins. -/
inductive WholeWord (text : List Char) : Nat → List Char → Prop
  | mk {front word back : List Char} (htext : text = front ++ (word ++ back)) (hne : word ≠ [])
      (hword : ∀ c ∈ word, isWordChar c) (hfront : ∀ c ∈ front.getLast?, isWordChar c = false)
      (hback : ∀ c ∈ back.head?, isWordChar c = false) : WholeWord text front.length word

/-! ## Characters of identifiers -/

/-- A Latin letter, a digit or the low line. -/
def isIdentifierChar (c : Char) : Bool := c.isAlphanum || c == '_'

theorem isIdentifierChar_iff {c : Char} : isIdentifierChar c ↔
    0x30 ≤ c.toNat ∧ c.toNat ≤ 0x39 ∨ 0x41 ≤ c.toNat ∧ c.toNat ≤ 0x5A ∨ c.toNat = 0x5F ∨
      0x61 ≤ c.toNat ∧ c.toNat ≤ 0x7A := by
  have hline : c = '_' ↔ c.toNat = 0x5F := Char.toNat_inj.symm
  unfold isIdentifierChar Char.isAlphanum Char.isAlpha Char.isUpper Char.isLower Char.isDigit
  simp only [Bool.or_eq_true, Bool.and_eq_true, decide_eq_true_eq, beq_iff_eq, UInt32.le_iff_toNat_le, hline]
  show (((0x41 ≤ c.toNat ∧ c.toNat ≤ 0x5A) ∨ 0x61 ≤ c.toNat ∧ c.toNat ≤ 0x7A) ∨ 0x30 ≤ c.toNat ∧ c.toNat ≤ 0x39) ∨
    c.toNat = 0x5F ↔ _
  omega

theorem isWordChar_of_isIdentifierChar {c : Char} (h : isIdentifierChar c) : isWordChar c := by
  have hranges : Unicode.wordChars = (0x30, 0x39) :: (0x41, 0x5A) :: (0x5F, 0x5F) :: (0x61, 0x7A) ::
      Unicode.wordChars.drop 4 := rfl
  rw [isIdentifierChar_iff] at h
  rw [isWordChar, hranges]
  simp only [Unicode.inRanges, Bool.and_eq_true, Bool.or_eq_true, decide_eq_true_eq]
  omega

namespace CharSet

/-- What an identifier begins with. -/
def letters : CharSet := .ofRanges [(0x41, 0x5A), (0x5F, 0x5F), (0x61, 0x7A)]

/-- What an identifier goes on with. -/
def identifierChars : CharSet := .ofRanges [(0x30, 0x39), (0x41, 0x5A), (0x5F, 0x5F), (0x61, 0x7A)]

theorem contains_identifierChars (c : Char) : identifierChars.contains c = isIdentifierChar c := by
  rw [Bool.eq_iff_iff, isIdentifierChar_iff, identifierChars, contains_ofRanges]
  simp only [List.any_cons, List.any_nil, Bool.or_false, Bool.or_eq_true, Bool.and_eq_true, decide_eq_true_eq]
  omega

theorem contains_letters_iff {c : Char} : letters.contains c ↔ isIdentifierChar c ∧ c.isDigit = false := by
  have hdigit : c.isDigit = false ↔ ¬ (0x30 ≤ c.toNat ∧ c.toNat ≤ 0x39) := by
    simp [Char.isDigit, UInt32.le_iff_toNat_le]
  rw [isIdentifierChar_iff, hdigit, letters, contains_ofRanges]
  simp only [List.any_cons, List.any_nil, Bool.or_false, Bool.or_eq_true, Bool.and_eq_true, decide_eq_true_eq]
  omega

end CharSet

/-! ## Characters around a position -/

namespace Cursor

variable {p : Cursor} {n : Nat}

theorem head?_rest_skip (p : Cursor) (n : Nat) : (p.skip n).rest.head? = p.rest[n]? := by
  rw [rest_skip, List.head?_drop]

theorem before_skip_succ (hn : n < p.rest.length) : (p.skip (n + 1)).before = p.rest[n]? := by
  have hlength : (p.rest.take (n + 1)).length = n + 1 := List.length_take_of_le hn
  have hbefore := before_skip (List.take_append_drop (n + 1) p.rest).symm
  rw [hlength, List.getLast?_eq_getElem?, hlength, Nat.add_sub_cancel,
    List.getElem?_take_of_lt (Nat.lt_succ_self n), List.getElem?_eq_getElem hn] at hbefore
  rw [hbefore, List.getElem?_eq_getElem hn]
  rfl

/-- Behind word characters a word character precedes. -/
theorem Reads.wordBefore {q : Cursor} {cs : List Char} (h : p.Reads cs q) (hne : cs ≠ [])
    (hcs : ∀ c ∈ cs, isWordChar c) : q.wordBefore := by
  rw [Cursor.wordBefore, h.before, List.getLast?_eq_some_getLast hne]
  exact hcs _ (List.getLast_mem hne)

theorem wordAfter_eq_false_iff : p.wordAfter = false ↔ ∀ c ∈ p.rest.head?, isWordChar c = false := by
  rw [wordAfter]
  cases p.rest.head? <;> simp

end Cursor

/-! ## Words and positions -/

namespace WholeWord

variable {text word word' : List Char} {a b : Nat}

/-- The characters of a word, by their places in the text. -/
theorem getElem? (h : WholeWord text a word) {n : Nat} (hn : n < word.length) : text[a + n]? = word[n]? := by
  obtain ⟨rfl, -, -, -, -⟩ := h
  rw [List.getElem?_append_right (Nat.le_add_right _ _), Nat.add_sub_cancel_left, List.getElem?_append_left hn]

theorem isWordChar_of_mem (h : WholeWord text a word) {c : Char} (hc : c ∈ word) : isWordChar c := by
  obtain ⟨-, -, hword, -, -⟩ := h
  exact hword c hc

theorem length_pos (h : WholeWord text a word) : 0 < word.length := by
  obtain ⟨-, hne, -, -, -⟩ := h
  exact List.length_pos_iff.2 hne

theorem add_le (h : WholeWord text a word) : a + word.length ≤ text.length := by
  obtain ⟨rfl, -, -, -, -⟩ := h
  simp only [List.length_append]
  omega

theorem exists_at (h : WholeWord text a word) {n : Nat} (hle : a ≤ n) (hlt : n < a + word.length) :
    ∃ c ∈ word, text[n]? = some c ∧ isWordChar c := by
  obtain ⟨n, rfl⟩ := Nat.exists_eq_add_of_le hle
  have hn : n < word.length := by omega
  have hmem : word[n] ∈ word := List.getElem_mem hn
  exact ⟨word[n], hmem, by rw [h.getElem? hn, List.getElem?_eq_getElem hn], h.isWordChar_of_mem hmem⟩

theorem not_before (h : WholeWord text (a + 1) word) : ∀ c ∈ text[a]?, isWordChar c = false := by
  generalize hstart : a + 1 = start at h
  obtain @⟨front, word, back, htext, -, -, hfront, -⟩ := h
  have hlast : text[a]? = front.getLast? := by
    rw [htext, List.getElem?_append_left (by omega), List.getLast?_eq_getElem?, ← hstart, Nat.add_sub_cancel]
  rw [hlast]
  exact hfront

theorem not_behind (h : WholeWord text a word) : ∀ c ∈ text[a + word.length]?, isWordChar c = false := by
  obtain ⟨rfl, -, -, -, hback⟩ := h
  rwa [List.getElem?_append_right (Nat.le_add_right _ _), Nat.add_sub_cancel_left,
    List.getElem?_append_right (Nat.le_refl _), Nat.sub_self, ← List.head?_eq_getElem?]

/-- No word begins within another one or right behind it. -/
theorem not_within (h : WholeWord text a word) (h' : WholeWord text b word') (hlt : a < b) : a + word.length < b := by
  obtain ⟨b, rfl⟩ := Nat.exists_eq_succ_of_ne_zero (Nat.ne_zero_of_lt hlt)
  refine Nat.lt_of_not_le fun hle => ?_
  obtain ⟨c, -, hat, hc⟩ := h.exists_at (n := b) (by omega) (by omega)
  cases hc.symm.trans (h'.not_before c hat)

/-- Two words that begin at the same place are the same. -/
theorem eq_of_start (h : WholeWord text a word) (h' : WholeWord text a word') : word = word' := by
  have hlength {word word' : List Char} (h : WholeWord text a word) (h' : WholeWord text a word') :
      word'.length ≤ word.length := by
    refine Nat.le_of_not_lt fun hlt => ?_
    obtain ⟨c, -, hat, hc⟩ := h'.exists_at (n := a + word.length) (by omega) (by omega)
    cases hc.symm.trans (h.not_behind c hat)
  refine List.ext_getElem? fun n => ?_
  by_cases hn : n < word.length
  · rw [← h.getElem? hn, ← h'.getElem? (Nat.lt_of_lt_of_le hn (hlength h' h))]
  · rw [List.getElem?_eq_none (Nat.le_of_not_lt hn),
      List.getElem?_eq_none (Nat.le_trans (hlength h h') (Nat.le_of_not_lt hn))]

theorem eq_or_apart (h : WholeWord text a word) (h' : WholeWord text b word') :
    (a = b ∧ word = word') ∨ a + word.length < b ∨ b + word'.length < a := by
  rcases Nat.lt_trichotomy a b with hlt | rfl | hlt
  · exact .inr (.inl (h.not_within h' hlt))
  · exact .inl ⟨rfl, h.eq_of_start h'⟩
  · exact .inr (.inr (h'.not_within h hlt))

/-- A position within a word has word characters on both sides. -/
theorem inside (h : WholeWord text a word) {n : Nat} (hlt : a < n) (hn : n < a + word.length) :
    ((Cursor.start text).skip n).wordBefore ∧ ∃ c ∈ word, ((Cursor.start text).skip n).rest.head? = some c ∧
      isWordChar c := by
  obtain ⟨n, rfl⟩ := Nat.exists_eq_succ_of_ne_zero (Nat.ne_zero_of_lt hlt)
  have hlength : n < text.length := by
    have := h.add_le
    omega
  obtain ⟨c, -, hat, hc⟩ := h.exists_at (n := n) (by omega) (by omega)
  obtain ⟨d, hd, hat', hword⟩ := h.exists_at (n := n + 1) (by omega) hn
  refine ⟨?_, d, hd, by rw [Cursor.head?_rest_skip]; exact hat', hword⟩
  rw [Cursor.wordBefore, Cursor.before_skip_succ (p := .start text) hlength]
  show text[n]?.any isWordChar
  rw [hat]
  exact hc

/-- The position where a word begins. -/
theorem cursor (h : WholeWord text a word) : ∃ back, ((Cursor.start text).skip a).rest = word ++ back ∧
    ((Cursor.start text).skip a).wordBefore = false ∧ ∀ c ∈ back.head?, isWordChar c = false := by
  obtain @⟨front, word, back, htext, -, -, hfront, hback⟩ := h
  refine ⟨back, Cursor.rest_skip_append (p := .start text) htext, ?_, hback⟩
  rw [Cursor.wordBefore, Cursor.before_skip (p := .start text) htext, Cursor.start, Option.or_none]
  cases hlast : front.getLast? with
  | none => rfl
  | some c => exact hfront c hlast

/-- A word from some position on. -/
theorem of_cursor {n : Nat} (hn : n ≤ text.length) {back : List Char}
    (hrest : ((Cursor.start text).skip n).rest = word ++ back) (hne : word ≠ []) (hword : ∀ c ∈ word, isWordChar c)
    (hbefore : ((Cursor.start text).skip n).wordBefore = false) (hback : ∀ c ∈ back.head?, isWordChar c = false) :
    WholeWord text n word := by
  have hlength : (text.take n).length = n := List.length_take_of_le hn
  have hbefore' := Cursor.before_skip (p := .start text) (List.take_append_drop n text).symm
  rw [Cursor.rest_skip] at hrest
  rw [hlength, Cursor.start, Option.or_none] at hbefore'
  have hfront : ∀ c ∈ (text.take n).getLast?, isWordChar c = false := fun c hc => by
    rw [Cursor.wordBefore, Cursor.start, hbefore', hc] at hbefore
    exact hbefore
  have h : WholeWord text (text.take n).length word :=
    mk (by rw [← hrest]; exact (List.take_append_drop n text).symm) hne hword hfront hback
  rwa [hlength] at h

end WholeWord

/-! ## Expressions for words -/

namespace Expr

variable {e : Expr} {p : Cursor} {cs back : List Char}

theorem EndsIn.wordBefore_eq_false {q : Cursor} (h : e.EndsIn fun c => isWordChar c = false) (hq : q ∈ e.readings p) :
    q.wordBefore = false := by
  obtain ⟨c, hc, hword⟩ := h.exists_before hq
  rw [Cursor.wordBefore, hc]
  exact hword

/-- What an expression reads, with the boundaries of words before and behind it. -/
def word (e : Expr) : Expr := .seq (.check .wordBoundary) (.seq e (.check .wordBoundary))

/-- There are boundaries where a word begins and ends. -/
theorem holds_wordBoundary (hp : p.rest = cs ++ back) (hne : cs ≠ []) (hcs : ∀ c ∈ cs, isWordChar c)
    (hbefore : p.wordBefore = false) (hback : ∀ c ∈ back.head?, isWordChar c = false) :
    Condition.wordBoundary.holds p ∧ Condition.wordBoundary.holds (p.skip cs.length) := by
  have hfirst : Condition.wordBoundary.holds p := by
    obtain ⟨c, cs, rfl⟩ := List.exists_cons_of_ne_nil hne
    simp [Condition.holds, hbefore, Cursor.wordAfter, hp, hcs c List.mem_cons_self]
  have hword : (p.skip cs.length).wordBefore = true := (Cursor.reads_append hp).wordBefore hne hcs
  have hafter : (p.skip cs.length).wordAfter = false := by
    rwa [Cursor.wordAfter_eq_false_iff, Cursor.rest_skip_append hp]
  exact ⟨hfirst, by simp [Condition.holds, hword, hafter]⟩

/-- A word is read where none goes on before it and behind it. -/
theorem leads_word (h : e.Leads p (p.skip cs.length)) (hp : p.rest = cs ++ back) (hne : cs ≠ [])
    (hcs : ∀ c ∈ cs, isWordChar c) (hbefore : p.wordBefore = false)
    (hback : ∀ c ∈ back.head?, isWordChar c = false) : (word e).Leads p (p.skip cs.length) := by
  obtain ⟨hfirst, hlast⟩ := holds_wordBoundary hp hne hcs hbefore hback
  exact (leads_check hfirst).seq (h.seq (leads_check hlast))

theorem readings_word_of_nil (h : e.readings p = []) : (word e).readings p = [] := by
  rw [word, readings_check_seq, readings_seq_of_nil h, ite_self]

theorem mem_readings_word {q : Cursor} : q ∈ (word e).readings p ↔
    Condition.wordBoundary.holds p ∧ q ∈ e.readings p ∧ Condition.wordBoundary.holds q := by
  rw [word, readings_check_seq]
  split
  · rename_i hholds
    rw [readings, List.mem_flatMap]
    constructor
    · rintro ⟨r, hr, hq⟩
      obtain ⟨rfl, hlast⟩ := mem_readings_check.1 hq
      exact ⟨hholds, hr, hlast⟩
    · rintro ⟨-, hq, hlast⟩
      exact ⟨q, hq, mem_readings_check.2 ⟨rfl, hlast⟩⟩
  · rename_i hholds
    exact iff_of_false List.not_mem_nil fun h => hholds h.1

/-- Of some words, which may begin like one another, the one is read that is a whole word. -/
theorem leads_word_iff {words : List (List Char)} (he : ∀ p q, q ∈ e.readings p ↔ ∃ cs ∈ words, p.Reads cs q)
    (hwords : ∀ cs ∈ words, cs ≠ [] ∧ ∀ c ∈ cs, isWordChar c) {text : List Char} {n : Nat} (hn : n ≤ text.length)
    {q : Cursor} : (word e).Leads ((Cursor.start text).skip n) q ↔
      ∃ cs ∈ words, WholeWord text n cs ∧ q = (Cursor.start text).skip (n + cs.length) := by
  have hread {q : Cursor} (h : q ∈ (word e).readings ((Cursor.start text).skip n)) :
      ∃ cs ∈ words, WholeWord text n cs ∧ q = (Cursor.start text).skip (n + cs.length) := by
    obtain ⟨hfirst, hq, hlast⟩ := mem_readings_word.1 h
    obtain ⟨cs, hcs, hreads⟩ := (he _ _).1 hq
    obtain ⟨hne, hchars⟩ := hwords cs hcs
    have hafter : ((Cursor.start text).skip n).wordAfter := by
      obtain ⟨c, cs, rfl⟩ := List.exists_cons_of_ne_nil hne
      rw [Cursor.wordAfter, hreads.rest]
      exact hchars c List.mem_cons_self
    have hbefore := hreads.wordBefore hne hchars
    simp only [Condition.holds, hafter, hbefore, bne_iff_ne, ne_eq, Bool.not_eq_true] at hfirst hlast
    refine ⟨cs, hcs, .of_cursor hn hreads.rest hne hchars hfirst ?_, by rw [Cursor.skip_add]; exact hreads.stop⟩
    exact Cursor.wordAfter_eq_false_iff.1 (by simpa using hlast)
  constructor
  · intro h
    exact hread (List.mem_of_head? h)
  · rintro ⟨cs, hcs, hwhole, rfl⟩
    obtain ⟨back, hrest, hbefore, hback⟩ := hwhole.cursor
    obtain ⟨hne, hchars⟩ := hwords cs hcs
    obtain ⟨hfirst, hlast⟩ := holds_wordBoundary hrest hne hchars hbefore hback
    rw [← Cursor.skip_add] at hlast
    have hmem : (Cursor.start text).skip (n + cs.length) ∈ (word e).readings ((Cursor.start text).skip n) :=
      mem_readings_word.2 ⟨hfirst, (he _ _).2 ⟨cs, hcs, Cursor.skip_add _ n cs.length ▸ Cursor.reads_append hrest⟩, hlast⟩
    obtain ⟨r, hr⟩ := Option.isSome_iff_exists.1 (List.isSome_head?.2 (List.ne_nil_of_mem hmem))
    obtain ⟨ds, -, hwhole', rfl⟩ := hread (List.mem_of_head? hr)
    rw [Leads, hr, hwhole.eq_of_start hwhole']

end Expr

end Highlight.Pattern
