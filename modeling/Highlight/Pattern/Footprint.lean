import Highlight.Pattern.Build

/-!
# The size of an expression

Patterns are read from texts in UTF-8 by automata over bytes, one that runs forwards and one that
runs backwards. A pattern is refused if one of the two would take too much memory. What they take is
counted from the expression, without building them: counted repetitions are written out, so they
multiply the size of what they repeat.

* `splitRange`: the sequences of ranges of bytes that make up a range of code points;
* `Expr.footprint`: the memory the larger automaton takes, in bytes;
* `footprintLimit`: the most that is allowed.
-/

namespace Highlight.Pattern

/-- For each byte of a character the range it lies in. -/
abbrev ByteRanges := List (Nat × Nat)

/-- The code points from `low` to `high`, written with a leading byte and `k` more bytes of six bits
each, as sequences of ranges in which every combination of bytes occurs. -/
def splitBytes : Nat → Nat → Nat → List ByteRanges
  | 0, low, high => [[(low, high)]]
  | k + 1, low, high =>
    let m := 64 ^ (k + 1)
    let (a, b) := (low / m, high / m)
    if a = b then (splitBytes k (low % m) (high % m)).map ((a, a) :: ·)
    else
      let startsEven := low % m = 0
      let endsEven := high % m = m - 1
      let first := if startsEven then a else a + 1
      let last := if endsEven then b else b - 1
      let head := if startsEven then [] else (splitBytes k (low % m) (m - 1)).map ((a, a) :: ·)
      let middle :=
        if first ≤ last then [(first, last) :: List.replicate (k + 1) (0, 63)] else []
      let tail := if endsEven then [] else (splitBytes k 0 (high % m)).map ((b, b) :: ·)
      head ++ middle ++ tail

/-- The code points of each length in UTF-8: how many bytes follow the leading one, and the first
and the last of them. Surrogates are left out. -/
def lengthClasses : List (Nat × Nat × Nat) :=
  [(0, 0, 0x7F), (1, 0x80, 0x7FF), (2, 0x800, 0xD7FF), (2, 0xE000, 0xFFFF), (3, 0x10000, 0x10FFFF)]

/-- The sequences of ranges of bytes that make up a range of code points. Leading bytes of different
lengths are told apart by their order of magnitude. -/
def splitRange (r : Unicode.CodeRange) : List ByteRanges :=
  lengthClasses.flatMap fun (k, first, last) =>
    let (low, high) := (max r.1 first, min r.2 last)
    if low ≤ high then
      (splitBytes k low high).map fun
        | (a, b) :: more => (a + 1000 * k, b + 1000 * k) :: more
        | [] => []
    else []

/-- Sequences grouped by their first range; neighbours share it. -/
def byFirst (sequences : List ByteRanges) : List (List ByteRanges) :=
  sequences.splitBy fun a b => a.head? == b.head?

/-- The inner nodes of the tree of some sequences of `depth` ranges at most. A node is given by the
sequences that lead from it to leaves. -/
def treeNodes : Nat → List ByteRanges → List (List ByteRanges)
  | 0, _ => []
  | depth + 1, sequences =>
    sequences :: (byFirst sequences).flatMap fun group =>
      let rest := group.map List.tail
      if rest.all List.isEmpty then [] else treeNodes depth rest

namespace CharSet

/-- The memory for reading a character forwards, where equal ends of encodings are shared. -/
def forwardSize (s : CharSet) : Nat :=
  if s.isAscii then 64 + 8 * s.ranges.length
  else
    let nodes := (treeNodes 4 (s.ranges.flatMap splitRange)).eraseDups
    nodes.foldl (fun total node => total + 32 + 8 * (byFirst node).length) 32

/-- The memory for reading a character backwards, where equal beginnings are shared. -/
def backwardSize (s : CharSet) : Nat :=
  if s.isAscii then 64 + 8 * s.ranges.length
  else
    let sequences := s.ranges.flatMap splitRange
    let edges := (treeNodes 4 sequences).foldl (fun total node => total + (byFirst node).length) 0
    64 + 32 * edges + 4 * sequences.length

end CharSet

/-! ## Texts to choose from -/

/-- The parts of a list of texts between those that are empty. -/
def betweenEmpty (texts : List (List UInt8)) : List (List (List UInt8)) :=
  texts.foldr (fun t parts =>
    match t, parts with
    | [], parts => [] :: parts
    | t, part :: parts => (t :: part) :: parts
    | t, [] => [[t]]) [[]]

/-- The memory for the part of a tree of texts in which the given texts are left to read, in order
of preference. `limit` need not exceed the length of the texts by more than one. -/
def treeSize : Nat → List (List UInt8) → Nat
  | 0, _ => 0
  | limit + 1, texts =>
    let texts :=
      match texts with
      | [] :: rest => [] :: rest.dropWhile List.isEmpty
      | texts => texts
    let parts := betweenEmpty texts
    let partSize (part : List (List UInt8)) : Nat :=
      let firsts := (part.map List.head?).eraseDups
      let branchSize (first : Option UInt8) : Nat :=
        let rests := (part.filter (·.head? == first)).map List.tail
        if rests.all List.isEmpty then 0 else treeSize limit rests
      if firsts.isEmpty then 0
      else
        firsts.foldl (fun total first => total + branchSize first)
          (36 + if firsts.length = 1 then 0 else 8 * firsts.length)
    parts.foldl (fun total part => total + partSize part) (32 + 4 * (parts.length - 1))

/-! ## Expressions -/

/-- The two ways in which texts are read. -/
inductive Direction where
  | forwards
  | backwards

namespace Direction

/-- The memory for reading a character of a set. -/
def setSize : Direction → CharSet → Nat
  | forwards => CharSet.forwardSize
  | backwards => CharSet.backwardSize

/-- The memory for noting the two ends of a group. -/
def groupSize : Direction → Nat
  | forwards => 64
  | backwards => 0

/-- The bytes of a text in the order in which they are read. -/
def bytes (d : Direction) (cs : List Char) : List UInt8 :=
  let bytes := cs.flatMap String.utf8EncodeChar
  match d with
  | forwards => bytes
  | backwards => bytes.reverse

end Direction

namespace Expr

/-- Whether there are several expressions to choose from. -/
def isAlt : Expr → Bool
  | alt _ _ => true
  | _ => false

/-- The texts to choose from, if all alternatives are texts. -/
def texts? : Expr → Option (List (List Char))
  | text cs => some [cs]
  | alt (text cs) rest => rest.texts?.map (cs :: ·)
  | _ => none

/-- The memory for reading an expression. Texts to choose from make a tree; `chosen` says that the
expression is the rest of a list of alternatives that do not. -/
def size (d : Direction) (chosen : Bool) : Expr → Nat
  | empty | check _ => 32
  | text cs => 32 * (d.bytes cs).length
  | one s => d.setSize s
  | group _ body => d.groupSize + body.size d false
  | seq first rest => first.size d false + rest.size d false
  | alt first rest =>
    match chosen, (alt first rest).texts? with
    | false, some texts =>
      let texts := texts.map d.bytes
      32 + treeSize (texts.flatten.length + 1) texts
    | _, _ =>
      first.size d false + 4 + (if rest.isAlt then 0 else 68) + rest.size d rest.isAlt
  | loop least most _ body =>
    let n := body.size d false
    match least, most with
    | 0, none => n + if body.alwaysReads then 40 else 112
    | least, none => least * n + 40
    | 0, some 1 => n + 72
    | least, some most =>
      if least = most then least * n
      else (if least = 0 then 32 else least * n) + 32 + (most - least) * (n + 40)

/-- The memory that the larger automaton takes, in bytes. -/
def footprint (e : Expr) : Nat :=
  max (e.size .forwards false + 208) (e.size .backwards false + 144)

end Expr

/-- The most memory that an automaton may take, in bytes. -/
def footprintLimit : Nat := 10 * 1024 * 1024

end Highlight.Pattern
