import Highlight.Unicode.WordChar
import Highlight.Unicode.CaseFolding

/-!
# Sets of characters

What one position of a pattern accepts. A set is the ascending list of its ranges of code points,
with a gap between any two of them, so each set has one such list.

* `contains_addRange`, `contains_union`, `contains_compl`: what the operations do to membership;
* `CharSet.caseless`: with every character also those that differ from it in case only;
* `CharSet.ofBytes`: a set written as one of bytes, which is kept apart from other sets.
-/

namespace Highlight.Pattern

open Unicode (CodeRange inRanges)

/-! ## Lists of ranges -/

/-- The ranges are in ascending order, begin at `low` or later, and have gaps between them. -/
def Separated (low : Nat) : List CodeRange → Prop
  | [] => True
  | (first, last) :: rest => low ≤ first ∧ first ≤ last ∧ Separated (last + 2) rest

theorem Separated.mono {low low' : Nat} (h : low' ≤ low) :
    ∀ {ranges : List CodeRange}, Separated low ranges → Separated low' ranges
  | [], _ => trivial
  | _ :: _, ⟨h₁, h₂, h₃⟩ => ⟨Nat.le_trans h h₁, h₂, h₃⟩

/-- Nothing below the first range is in any range. -/
theorem inRanges_of_lt {low code : Nat} (h : code < low) :
    ∀ {ranges : List CodeRange}, Separated low ranges → inRanges code ranges = false
  | [], _ => rfl
  | (first, last) :: rest, ⟨h₁, _, _⟩ => by
    have : ¬ first ≤ code := by omega
    simp [inRanges, this]

/-- The search of ascending ranges misses none. -/
theorem inRanges_eq_any {low : Nat} {ranges : List CodeRange} (h : Separated low ranges)
    (code : Nat) : inRanges code ranges = ranges.any fun r => r.1 ≤ code && code ≤ r.2 := by
  induction ranges generalizing low with
  | nil => rfl
  | cons r rest ih =>
    obtain ⟨a, b⟩ := r
    obtain ⟨_, h₂, h₃⟩ := h
    have below : code < b + 2 → inRanges code rest = false := fun hc => inRanges_of_lt hc h₃
    simp only [inRanges, List.any_cons, ← ih h₃]
    grind

/-- One more range, joined with those it overlaps or touches. -/
def insertRange (first last : Nat) : List CodeRange → List CodeRange
  | [] => [(first, last)]
  | (a, b) :: rest =>
    if last + 1 < a then (first, last) :: (a, b) :: rest
    else if b + 1 < first then (a, b) :: insertRange first last rest
    else insertRange (min first a) (max last b) rest

theorem separated_insertRange {low first last : Nat} {ranges : List CodeRange}
    (h : Separated low ranges) (hlow : low ≤ first) (hle : first ≤ last) :
    Separated low (insertRange first last ranges) := by
  induction ranges generalizing low first last with
  | nil => exact ⟨hlow, hle, trivial⟩
  | cons r rest ih =>
    obtain ⟨a, b⟩ := r
    obtain ⟨h₁, h₂, h₃⟩ := h
    simp only [insertRange]
    split
    · exact ⟨hlow, hle, by omega, h₂, h₃⟩
    · split
      · exact ⟨h₁, h₂, ih h₃ (by omega) hle⟩
      · exact ih (h₃.mono (by omega)) (by omega) (by omega)

theorem inRanges_insertRange {low first last : Nat} {ranges : List CodeRange}
    (h : Separated low ranges) (hle : first ≤ last) (code : Nat) :
    inRanges code (insertRange first last ranges) =
      (decide (first ≤ code ∧ code ≤ last) || inRanges code ranges) := by
  induction ranges generalizing low first last with
  | nil => simp [insertRange, inRanges]
  | cons r rest ih =>
    obtain ⟨a, b⟩ := r
    obtain ⟨h₁, h₂, h₃⟩ := h
    have below : code < b + 2 → inRanges code rest = false := fun hc => inRanges_of_lt hc h₃
    simp only [insertRange]
    split
    · simp only [inRanges]
      grind
    · split
      · simp only [inRanges, ih h₃ hle]
        grind
      · simp only [inRanges, ih h₃ (show min first a ≤ max last b by omega)]
        grind

/-- The greatest code point. -/
def lastCode : Nat := 0x10FFFF

/-- The ranges between the given ones, from `low` on. -/
def gaps (low : Nat) : List CodeRange → List CodeRange
  | [] => if low ≤ lastCode then [(low, lastCode)] else []
  | (a, b) :: rest => if low < a then (low, a - 1) :: gaps (b + 1) rest else gaps (b + 1) rest

theorem separated_gaps {low : Nat} {ranges : List CodeRange} (h : Separated low ranges) :
    Separated low (gaps low ranges) := by
  induction ranges generalizing low with
  | nil =>
    simp only [gaps]
    split
    · exact ⟨Nat.le_refl _, by assumption, trivial⟩
    · trivial
  | cons r rest ih =>
    obtain ⟨a, b⟩ := r
    obtain ⟨h₁, h₂, h₃⟩ := h
    have hrest := ih (h₃.mono (by omega : b + 1 ≤ b + 2))
    simp only [gaps]
    split
    · exact ⟨Nat.le_refl _, by omega, hrest.mono (by omega)⟩
    · exact hrest.mono (by omega)

theorem inRanges_gaps {low code : Nat} {ranges : List CodeRange} (h : Separated low ranges)
    (hlow : low ≤ code) (hcode : code ≤ lastCode) :
    inRanges code (gaps low ranges) = !inRanges code ranges := by
  induction ranges generalizing low with
  | nil => simp [gaps, inRanges, show low ≤ lastCode by omega, hlow, hcode]
  | cons r rest ih =>
    obtain ⟨a, b⟩ := r
    obtain ⟨h₁, h₂, h₃⟩ := h
    have hrest := h₃.mono (by omega : b + 1 ≤ b + 2)
    have below : code < b + 2 → inRanges code rest = false := fun hc => inRanges_of_lt hc h₃
    have none : code < b + 1 → inRanges code (gaps (b + 1) rest) = false :=
      fun hc => inRanges_of_lt hc (separated_gaps hrest)
    by_cases hb : b + 1 ≤ code
    · have := ih hrest hb
      simp only [gaps]
      split <;> simp only [inRanges] <;> grind
    · have := none (by omega)
      have := below (by omega)
      simp only [gaps]
      split <;> simp only [inRanges] <;> grind

/-! ## Sets -/

/-- A set of characters. -/
structure CharSet where
  ranges : List CodeRange
  separated : Separated 0 ranges
  /-- Whether the set was written as one of bytes. It accepts the same characters then, but it is not
  taken to be equal to a set of characters. -/
  bytewise : Bool := false
deriving DecidableEq, Repr

namespace CharSet

/-- Whether a set holds a character. -/
def contains (s : CharSet) (c : Char) : Bool := inRanges c.toNat s.ranges

/-- No character. -/
def none : CharSet where
  ranges := []
  separated := trivial

/-- Whether a set holds no character at all. -/
def isEmpty (s : CharSet) : Bool := s.ranges.isEmpty

@[simp]
theorem contains_none (c : Char) : none.contains c = false := rfl

/-- The set with all code points of a range added; an inverted range has none. -/
def addRange (s : CharSet) (r : CodeRange) : CharSet :=
  if h : r.1 ≤ r.2 then
    { ranges := insertRange r.1 r.2 s.ranges
      separated := separated_insertRange s.separated (Nat.zero_le _) h }
  else s

theorem contains_addRange (s : CharSet) (r : CodeRange) (c : Char) :
    (s.addRange r).contains c = (decide (r.1 ≤ c.toNat ∧ c.toNat ≤ r.2) || s.contains c) := by
  unfold addRange
  split
  · rename_i h
    exact inRanges_insertRange s.separated h c.toNat
  · rename_i h
    have : ¬ (r.1 ≤ c.toNat ∧ c.toNat ≤ r.2) := by omega
    simp [this]

/-- The set with the code points of several ranges added. -/
def addRanges (s : CharSet) (ranges : List CodeRange) : CharSet := ranges.foldl addRange s

theorem contains_addRanges (s : CharSet) (ranges : List CodeRange) (c : Char) :
    (s.addRanges ranges).contains c =
      (s.contains c || ranges.any fun r => r.1 ≤ c.toNat && c.toNat ≤ r.2) := by
  induction ranges generalizing s with
  | nil => simp [addRanges]
  | cons r rest ih =>
    have := ih (s.addRange r)
    simp only [addRanges, List.foldl_cons, List.any_cons] at this ⊢
    rw [this, contains_addRange]
    grind

/-- The code points of any of some ranges. -/
def ofRanges (ranges : List CodeRange) : CharSet := none.addRanges ranges

theorem contains_ofRanges (ranges : List CodeRange) (c : Char) :
    (ofRanges ranges).contains c = ranges.any fun r => r.1 ≤ c.toNat && c.toNat ≤ r.2 := by
  rw [ofRanges, contains_addRanges, contains_none, Bool.false_or]

/-- The characters from `first` to `last`, both included. -/
def range (first last : Char) : CharSet := none.addRange (first.toNat, last.toNat)

theorem contains_range (first last c : Char) :
    (range first last).contains c = decide (first.toNat ≤ c.toNat ∧ c.toNat ≤ last.toNat) := by
  simp [range, contains_addRange]

/-- The set of one character. -/
def single (c : Char) : CharSet := range c c

theorem contains_single (c d : Char) : (single c).contains d = (c == d) := by
  rw [single, contains_range, Bool.eq_iff_iff, decide_eq_true_iff, beq_iff_eq, ← Char.toNat_inj]
  omega

/-- The only character of a set, if there is just one. -/
def single? (s : CharSet) : Option Char :=
  match s.ranges with
  | [(first, last)] => if first = last then some (.ofNat first) else Option.none
  | _ => Option.none

/-- The characters of either set. -/
def union (a b : CharSet) : CharSet :=
  if a.ranges.length < b.ranges.length then b.addRanges a.ranges else a.addRanges b.ranges

theorem contains_union (a b : CharSet) (c : Char) :
    (a.union b).contains c = (a.contains c || b.contains c) := by
  have ha := inRanges_eq_any a.separated c.toNat
  have hb := inRanges_eq_any b.separated c.toNat
  unfold union
  split
  · rw [contains_addRanges, Bool.or_comm, ← ha, contains.eq_1 a]
  · rw [contains_addRanges, ← hb, contains.eq_1 b]

/-- All other characters. -/
def compl (s : CharSet) : CharSet where
  ranges := gaps 0 s.ranges
  separated := separated_gaps s.separated

theorem contains_compl (s : CharSet) (c : Char) : s.compl.contains c = !s.contains c :=
  inRanges_gaps s.separated (Nat.zero_le _) (by
    have := c.valid
    simp only [UInt32.isValidChar, Nat.isValidChar, lastCode] at *
    show c.val.toNat ≤ _
    omega)

/-- The characters of both sets. -/
def inter (a b : CharSet) : CharSet := (a.compl.union b.compl).compl

/-- The characters of the first set that are not in the second. -/
def diff (a b : CharSet) : CharSet := a.inter b.compl

/-- The characters that are in one of the two sets but not in both. -/
def symmDiff (a b : CharSet) : CharSet := (a.diff b).union (b.diff a)

/-- Every character. -/
def any : CharSet := none.compl

/-- Every character but the end of a line. -/
def notNewline : CharSet := (single '\n').compl

/-- Every character but those that lines end in where carriage returns count. -/
def notCrlf : CharSet := ((single '\n').addRange ('\r'.toNat, '\r'.toNat)).compl

/-- The characters of words. -/
def wordChar : CharSet := ofRanges Unicode.wordChars

/-- The decimal digits. -/
def digit : CharSet := ofRanges Unicode.decimalDigits

/-- White space. -/
def space : CharSet := ofRanges Unicode.spaces

/-- The ASCII characters of words. -/
def asciiWordChar : CharSet := ofRanges [(0x30, 0x39), (0x41, 0x5A), (0x5F, 0x5F), (0x61, 0x7A)]

/-- The ASCII digits. -/
def asciiDigit : CharSet := ofRanges [(0x30, 0x39)]

/-- ASCII white space. -/
def asciiSpace : CharSet := ofRanges [(0x9, 0xD), (0x20, 0x20)]

/-- Whether all characters are encoded by one byte. -/
def isAscii (s : CharSet) : Bool := s.ranges.all (·.2 ≤ 0x7F)

/-- The set as one of bytes. There is only one empty set. -/
def ofBytes (s : CharSet) : CharSet := { s with bytewise := !s.isEmpty }

/-- Whether a set holds a code point. -/
def holds (s : CharSet) (code : Nat) : Bool := inRanges code s.ranges

/-- With every character also those that differ from it in case only: first the folded forms of
its characters are added, then all that have one of these folded forms. -/
def caseless (s : CharSet) : CharSet :=
  match s.ranges with
  | [(first, last)] =>
    if first = last then s.addRanges ((Unicode.caseVariants first).map fun v => (v, v)) else full
  | _ => full
where
  full : CharSet :=
    let folded := s.addRanges ((Unicode.foldings.filter (s.holds ·.1)).map fun p => (p.2, p.2))
    folded.addRanges ((Unicode.foldings.filter (folded.holds ·.2)).map fun p => (p.1, p.1))

/-- With every ASCII letter also its other case. -/
def asciiCaseless (s : CharSet) : CharSet :=
  -- A range without letters of the case in question becomes an inverted one.
  let small := s.ranges.map fun (first, last) => (max first 0x41 + 0x20, min last 0x5A + 0x20)
  let capital := s.ranges.map fun (first, last) => (max first 0x61 - 0x20, min last 0x7A - 0x20)
  s.addRanges (small ++ capital)

/-- The set that a name stands for between `[:` and `:]`. -/
def named? (name : String) : Option CharSet :=
  let ranges (l : List (Char × Char)) : Option CharSet :=
    some (ofRanges (l.map fun (a, b) => (a.toNat, b.toNat)))
  match name with
  | "alnum" => ranges [('0', '9'), ('A', 'Z'), ('a', 'z')]
  | "alpha" => ranges [('A', 'Z'), ('a', 'z')]
  | "ascii" => ranges [('\x00', '\x7F')]
  | "blank" => ranges [('\t', '\t'), (' ', ' ')]
  | "cntrl" => ranges [('\x00', '\x1F'), ('\x7F', '\x7F')]
  | "digit" => some asciiDigit
  | "graph" => ranges [('!', '~')]
  | "lower" => ranges [('a', 'z')]
  | "print" => ranges [(' ', '~')]
  | "punct" => ranges [('!', '/'), (':', '@'), ('[', '\x60'), ('\x7B', '~')]
  | "space" => some asciiSpace
  | "upper" => ranges [('A', 'Z')]
  | "word" => some asciiWordChar
  | "xdigit" => ranges [('0', '9'), ('A', 'F'), ('a', 'f')]
  | _ => Option.none

end CharSet

end Highlight.Pattern
