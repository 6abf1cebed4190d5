import Highlight.Contributor.Basic

/-!
# The bracket at the caret and its partner

Brackets are paired by kind: the partner of an opening bracket is the nearest bracket after it that
closes as many brackets of the kind as were opened, and the other way round for a closing one.
Other kinds of brackets in between do not matter.

* `partner?`: the offset of a bracket's partner;
* `Contributor.bracketMatch`: labels a bracket at the caret, or else just before it, and its partner.
-/

namespace Highlight

/-- The kinds of brackets. -/
def bracketPairs : List (Char × Char) := [('(', ')'), ('[', ']'), ('\x7B', '\x7D')]

/-- The number of characters before the one that closes the outermost of `depth` brackets, when
`enter` opens a bracket and `leave` closes one. -/
def closingDistance (enter leave : Char) (depth : Nat) : List Char → Option Nat
  | [] => none
  | c :: cs =>
    if c = enter then (closingDistance enter leave (depth + 1) cs).map (· + 1)
    else if c = leave then
      if depth ≤ 1 then some 0 else (closingDistance enter leave (depth - 1) cs).map (· + 1)
    else (closingDistance enter leave depth cs).map (· + 1)

/-- The offset of the partner of the bracket at `pos`, if there is one. -/
def partner? (chars : List Char) (pos : Nat) : Option Nat :=
  match chars[pos]? with
  | none => none
  | some c =>
    match bracketPairs.find? (·.1 == c) with
    | some (enter, leave) =>
      (closingDistance enter leave 0 (chars.drop pos)).map (pos + ·)
    | none =>
      match bracketPairs.find? (·.2 == c) with
      | some (leave, enter) =>
        (closingDistance enter leave 0 (chars.take (pos + 1)).reverse).map (pos - ·)
      | none => none

/-- The bracket at `pos` and its partner, in the order of the text. -/
def bracketPair? (chars : List Char) (pos : Nat) : Option (Nat × Nat) :=
  (partner? chars pos).map fun partner => (min pos partner, max pos partner)

/-- The customary label of a bracket and its partner. -/
def Contributor.bracketLabel : Label := "bracket-match"

/-- Labels the bracket at the caret, or else the one just before it, and its partner. -/
def Contributor.bracketMatch (label : Label) : Contributor :=
  ofSpans "bracket-match" fun s =>
    let chars := s.text.toList
    let atCaret := bracketPair? chars s.caret
    let beforeCaret := if s.caret = 0 then none else bracketPair? chars (s.caret - 1)
    match atCaret.or beforeCaret with
    | none => .ok (.plain s.length)
    | some (first, second) =>
      Spans.ofMarks [.labeled first (first + 1) label, .labeled second (second + 1) label] s.length

end Highlight
