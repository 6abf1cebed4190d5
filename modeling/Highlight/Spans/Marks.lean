import Highlight.Spans.Basic

/-!
# Marks

A mark puts labels on a range of a text. A list of marks becomes a span set by letting earlier
marks win: a mark that overlaps one before it keeps only what lies behind that one, and nothing
reaches past the end of the text.

* `markRuns`: the runs that a list of marks gives;
* `Spans.ofMarks`: the span set of a list of marks, always of the length asked for;
* `Spans.layMarks`: the same in one pass, in which each difference of lengths may be a fault.
-/

namespace Highlight

/-- Labels for the characters from `start` up to `stop`. -/
structure Mark where
  start : Nat
  stop : Nat
  labels : Labels
deriving DecidableEq

namespace Mark

/-- A mark with one label. -/
def labeled (start stop : Nat) (label : Label) : Mark := ⟨start, stop, .single label⟩

/-- The number of characters marked, none if the range is reversed. -/
def length (m : Mark) : Nat := m.stop - m.start

/-- Whether no character is marked. -/
def isEmpty (m : Mark) : Bool := m.stop ≤ m.start

end Mark

/-- The runs of a text of `total` characters from offset `last` on, up to which earlier marks
reach. -/
def markRuns (total last : Nat) : List Mark → List Run
  | [] => [.plain (total - last)]
  | m :: marks =>
    let start := min (max m.start last) total
    let stop := min m.stop total
    if stop ≤ start then markRuns total last marks
    else .plain (start - last) :: ⟨stop - start, m.labels⟩ :: markRuns total stop marks

/-- The spans of a text of `total` characters: the labels of the marks, and none in the gaps. -/
def Spans.ofMarks (marks : List Mark) (total : Nat) : Except Fault Spans :=
  build (markRuns total 0 marks)

/-! ## One pass -/

namespace Spans

/-- A text in which some marks have been laid. -/
structure Marking where
  /-- The text up to where the last of these marks ends. -/
  built : Builder
  /-- Where the last of these marks ends. -/
  reached : Nat

namespace Marking

/-- Before the first mark. -/
def start : Marking := ⟨.empty, 0⟩

/-- Lays one more mark: the gap before it and what is left of it, if anything is. -/
def lay (total : Nat) (k : Marking) (m : Mark) : Except Fault Marking :=
  let start := min (max m.start k.reached) total
  let stop := min m.stop total
  if stop ≤ start then .ok k
  else do
    let gap ← k.built.add (.plain (← lengthSub start k.reached))
    let built ← gap.add ⟨← lengthSub stop start, m.labels⟩
    return ⟨built, stop⟩

/-- The spans when all marks have been laid: what is behind the last one is a gap too. -/
def close (total : Nat) (k : Marking) : Except Fault Spans :=
  return (← k.built.add (.plain (← lengthSub total k.reached))).spans

end Marking

/-- The spans of a text of `total` characters, made by laying the marks one after the other. -/
def layMarks (marks : List Mark) (total : Nat) : Except Fault Spans := do
  (← marks.foldlM (Marking.lay total) .start).close total

end Spans

end Highlight
