import Highlight.Fault
import Highlight.Labels

/-!
# Style spans

Which labels apply where in a document, as runs of text with equal labels. Offsets and lengths
count characters. The runs of a `Spans` are normal: none is empty and neighbours differ, so the
labels at every offset determine the runs.

* `Spans.labelsAt`: the labels at an offset, the view every operation is described by;
* `Spans.Builder.add`: appends a run, joining it with the last one if their labels agree;
* `Spans.build`: the span set of any list of runs.

A span set covers at most `maxLength` characters; building a longer one is a fault. Lengths are
machine words, so a sum or a difference of them may be a fault (`lengthAdd`, `lengthSub`).
-/

namespace Highlight

/-- A stretch of text whose characters carry the same labels. -/
structure Run where
  length : Nat
  labels : Labels
deriving DecidableEq

/-- A run without labels. -/
def Run.plain (length : Nat) : Run := ⟨length, .empty⟩

/-- A run with one label. -/
def Run.labeled (length : Nat) (label : Label) : Run := ⟨length, .single label⟩

/-- The number of characters that a list of runs covers. -/
def totalLength : List Run → Nat
  | [] => 0
  | r :: runs => r.length + totalLength runs

/-- The labels at offset `o`, if a run covers it. -/
def labelsAt : List Run → Nat → Option Labels
  | [], _ => none
  | r :: runs, o => if o < r.length then some r.labels else labelsAt runs (o - r.length)

/-- No run is empty, and no two neighbours carry the same labels. -/
def Normal : List Run → Prop
  | [] => True
  | [r] => 0 < r.length
  | r :: s :: runs => 0 < r.length ∧ r.labels ≠ s.labels ∧ Normal (s :: runs)

/-- The longest text a span set can describe. -/
def maxLength : Nat := UInt64.size - 1

/-! ## Lengths -/

/-- A difference of lengths. -/
def lengthSub (n m : Nat) : Except Fault Nat :=
  if m ≤ n then .ok (n - m) else .error .lengthUnderflow

/-- A sum of lengths. -/
def lengthAdd (n m : Nat) : Except Fault Nat :=
  if n + m ≤ maxLength then .ok (n + m) else .error .lengthOverflow

theorem lengthSub_of_le {n m : Nat} (h : m ≤ n) : lengthSub n m = .ok (n - m) := if_pos h

theorem lengthSub_eq_ok {n m k : Nat} : lengthSub n m = .ok k ↔ m ≤ n ∧ n - m = k := by
  unfold lengthSub
  split <;> simp [*]

theorem lengthAdd_eq_ok {n m k : Nat} : lengthAdd n m = .ok k ↔ n + m ≤ maxLength ∧ n + m = k := by
  unfold lengthAdd
  split <;> simp [*]

/-! ## Normal lists of runs -/

theorem Normal.tail {r : Run} {runs : List Run} (h : Normal (r :: runs)) : Normal runs := by
  match runs, h with
  | [], _ => trivial
  | _ :: _, h => exact h.2.2

theorem Normal.length_pos {r : Run} {runs : List Run} (h : Normal (r :: runs)) : 0 < r.length := by
  match runs, h with
  | [], h => exact h
  | _ :: _, h => exact h.1

theorem Normal.concat {r : Run} {runs : List Run} (h : Normal runs) (hr : 0 < r.length)
    (hne : ∀ s ∈ runs.getLast?, s.labels ≠ r.labels) : Normal (runs ++ [r]) := by
  match runs with
  | [] => exact hr
  | [s] => exact ⟨h, hne s rfl, hr⟩
  | s :: t :: runs =>
    refine ⟨h.1, h.2.1, Normal.concat h.2.2 hr fun u hu => hne u ?_⟩
    simpa using hu

theorem Normal.reverse {runs : List Run} (h : Normal runs) : Normal runs.reverse := by
  induction runs with
  | nil => trivial
  | cons r runs ih =>
    rw [List.reverse_cons]
    refine (ih h.tail).concat h.length_pos fun s hs => ?_
    match runs, h with
    | [], _ => simp at hs
    | t :: runs, h =>
      have : s = t := by simpa [eq_comm] using hs
      exact this ▸ h.2.1.symm

theorem totalLength_append (a b : List Run) :
    totalLength (a ++ b) = totalLength a + totalLength b := by
  induction a with
  | nil => simp [totalLength]
  | cons r a ih => simp [totalLength, ih, Nat.add_assoc]

theorem totalLength_reverse (runs : List Run) : totalLength runs.reverse = totalLength runs := by
  induction runs with
  | nil => rfl
  | cons r runs ih => simp [totalLength_append, totalLength, ih, Nat.add_comm]

/-! ## Span sets -/

/-- The labels of a whole document: a normal list of runs, in document order. -/
structure Spans where
  runs : List Run
  normal : Normal runs
deriving DecidableEq

namespace Spans

/-- The number of characters described. -/
def length (s : Spans) : Nat := totalLength s.runs

/-- Whether no text is covered. -/
def isEmpty (s : Spans) : Bool := s.length == 0

/-- Whether no run carries a label. -/
def isPlain (s : Spans) : Bool := s.runs.all (·.labels.isEmpty)

/-- The labels at offset `o`, or none from the end on. -/
def labelsAt (s : Spans) (o : Nat) : Option Labels := Highlight.labelsAt s.runs o

/-- The span set of no text. -/
def empty : Spans := ⟨[], trivial⟩

/-- Unstyled text of the given length. -/
def plain (length : Nat) : Spans :=
  if h : 0 < length then ⟨[.plain length], h⟩ else empty

/-- Text of the given length with one label throughout. -/
def labeled (length : Nat) (label : Label) : Spans :=
  if h : 0 < length then ⟨[.labeled length label], h⟩ else empty

/-- One run with the offsets it covers, `start` included and `stop` not. -/
structure Stretch where
  start : Nat
  stop : Nat
  labels : Labels
deriving DecidableEq

/-- The runs of a list with their offsets, the first run starting at `start`. -/
def stretchesFrom (start : Nat) : List Run → List Stretch
  | [] => []
  | r :: runs => ⟨start, start + r.length, r.labels⟩ :: stretchesFrom (start + r.length) runs

/-- The runs with their offsets, in document order. -/
def stretches (s : Spans) : List Stretch := stretchesFrom 0 s.runs

/-! ## Building -/

/-- A span set under construction. -/
structure Builder where
  /-- The runs so far, the last one first. -/
  newestFirst : List Run
  normal : Normal newestFirst
  length : Nat
  length_eq : length = totalLength newestFirst

/-- A non-empty run put after the others, joined with the last one if the labels agree. -/
def extend (r : Run) : List Run → List Run
  | [] => [r]
  | s :: rest =>
    if s.labels = r.labels then ⟨s.length + r.length, s.labels⟩ :: rest else r :: s :: rest

theorem normal_extend {r : Run} {runs : List Run} (h : Normal runs) (hr : 0 < r.length) :
    Normal (extend r runs) := by
  match runs, h with
  | [], _ => exact hr
  | [s], h =>
    simp only [extend]
    split
    · exact Nat.add_pos_right _ hr
    · exact ⟨hr, Ne.symm ‹_›, h⟩
  | s :: t :: rest, h =>
    simp only [extend]
    split
    · exact ⟨Nat.add_pos_right _ hr, h.2⟩
    · exact ⟨hr, Ne.symm ‹_›, h⟩

theorem totalLength_extend (r : Run) (runs : List Run) :
    totalLength (extend r runs) = totalLength runs + r.length := by
  match runs with
  | [] => simp [extend, totalLength]
  | s :: rest =>
    simp only [extend]
    split <;> simp only [totalLength] <;> omega

namespace Builder

/-- Nothing added yet. -/
def empty : Builder := ⟨[], trivial, 0, rfl⟩

/-- The number of bytes that a run takes. -/
def runSize : Nat := 32

/-- Nothing added yet, with room for some runs kept free. All of it has to be less than 2⁶³ bytes. -/
def withRoom (runs : Nat) : Except Fault Builder :=
  if runs * runSize < UInt64.size / 2 then .ok empty else .error .roomOverflow

/-- Appends a run. An empty one changes nothing; a total beyond `maxLength` is a fault. -/
def add (b : Builder) (r : Run) : Except Fault Builder :=
  if h : 0 < r.length then
    if b.length + r.length ≤ maxLength then
      .ok {
        newestFirst := extend r b.newestFirst
        normal := normal_extend b.normal h
        length := b.length + r.length
        length_eq := by rw [totalLength_extend, b.length_eq] }
    else .error .lengthOverflow
  else .ok b

/-- Whether no text is covered yet. -/
def isEmpty (b : Builder) : Bool := b.length == 0

/-- The span set of the runs so far. -/
def spans (b : Builder) : Spans := ⟨b.newestFirst.reverse, b.normal.reverse⟩

end Builder

/-- The span set of a list of runs, in document order. -/
def build (runs : List Run) : Except Fault Spans :=
  return (← runs.foldlM Builder.add Builder.empty).spans

end Spans

end Highlight
