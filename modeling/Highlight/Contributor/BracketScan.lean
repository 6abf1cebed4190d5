import Highlight.Contributor.Brackets

/-!
# The scan for a bracket's partner

The scan as it goes from offset to offset, with the number of brackets that are open. It reads a
character at every offset it comes to and counts a bracket off that closes, and either may fail: there
may be no such character, and no bracket may be open.

* `scanOffsets`: the scan along some offsets;
* `scanPartner`: the scan for the partner of a bracket;
* `scanBrackets`: the spans of the bracket at the caret and its partner, with all that may fail.
-/

namespace Highlight

/-- Why a scan broke off. -/
inductive ScanFault where
  /-- There is no character at an offset. -/
  | outOfText (offset : Nat)
  /-- A bracket closes where none is open. -/
  | depthUnderflow
deriving DecidableEq, Repr

/-- The offset at which the outermost of `depth` brackets is closed, when the characters at some
offsets are read one after the other, `enter` opens a bracket and `leave` closes one. -/
def scanOffsets (chars : List Char) (enter leave : Char) (depth : Nat) :
    List Nat → Except ScanFault (Option Nat)
  | [] => .ok none
  | offset :: offsets =>
    match chars[offset]? with
    | none => .error (.outOfText offset)
    | some c =>
      if c = enter then scanOffsets chars enter leave (depth + 1) offsets
      else if c = leave then
        match depth with
        | 0 => .error .depthUnderflow
        | 1 => .ok (some offset)
        | rest + 2 => scanOffsets chars enter leave (rest + 1) offsets
      else scanOffsets chars enter leave depth offsets

/-- The offset of the partner of the bracket at `pos`: an opening bracket is scanned from up to the
end of the text, a closing one back to its beginning. -/
def scanPartner (chars : List Char) (pos : Nat) : Except ScanFault (Option Nat) :=
  match chars[pos]? with
  | none => .ok none
  | some c =>
    match bracketPairs.find? (·.1 == c) with
    | some (enter, leave) =>
      scanOffsets chars enter leave 0 (List.range' pos (chars.length - pos))
    | none =>
      match bracketPairs.find? (·.2 == c) with
      | some (leave, enter) => scanOffsets chars enter leave 0 (List.range (pos + 1)).reverse
      | none => .ok none

/-- The offsets of the bracket at the caret, or else of the one just before it, and of its partner. -/
def scanPair (chars : List Char) (caret : Nat) : Except ScanFault (Option (Nat × Nat)) := do
  match ← scanPartner chars caret with
  | some partner => return some (caret, partner)
  | none =>
    if caret = 0 then return none
    return (← scanPartner chars (caret - 1)).map (caret - 1, ·)

/-- Labels the bracket at the caret, or else the one just before it, and its partner. The scan may
break off, and so may the pass in which the labels are laid. -/
def scanBrackets (label : Label) (s : Snapshot) : Except ScanFault (Except Fault Spans) := do
  match ← scanPair s.text.toList s.caret with
  | none => return .ok (.plain s.length)
  | some (pos, partner) =>
    let first := min pos partner
    let second := max pos partner
    return Spans.layMarks
      [.labeled first (first + 1) label, .labeled second (second + 1) label] s.length

end Highlight
