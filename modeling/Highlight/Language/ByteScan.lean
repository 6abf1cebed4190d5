import Highlight.Language.Basic

/-!
# Scanning by bytes

A search engine tells in bytes where its matches are. Marks count characters, so a scan has to count
the characters of the text before each match. It does not begin anew every time: it goes on from the
end of the match marked last and takes what lies between out of the text. Matches that are empty or
get no label are passed over, and the places stay where they were.

* `sliceBytes`: a piece of a text, if there is such a piece;
* `ByteScan.step`: one match;
* `scanBytes`: the marks of a list of matches.
-/

namespace Highlight

/-- The piece of a text from byte `start` up to byte `stop`. There is one if both places are between
characters and are not the wrong way round. -/
def sliceBytes (text : String) (start stop : Nat) : Option String := do
  let first ← text.pos? ⟨start⟩
  let last ← text.pos? ⟨stop⟩
  return (← text.slice? first last).copy

/-- A match with the bytes it reads, `start` included and `stop` not. -/
structure ByteMatch (α : Type) where
  start : Nat
  stop : Nat
  /-- What its label depends on. -/
  content : α

/-- Whether no text is read. -/
def ByteMatch.isEmpty {α : Type} (m : ByteMatch α) : Bool := m.start == m.stop

/-- How far a scan has come. -/
structure ByteScan where
  /-- The end of the match marked last, in bytes. -/
  bytes : Nat
  /-- The same place in characters. -/
  chars : Nat
  /-- The marks so far. -/
  marks : List Mark

namespace ByteScan

/-- Why a scan broke off. -/
inductive Stop where
  /-- A match could not be asked for its label. -/
  | labelling (fault : Fault)
  /-- There is no such piece of the text. -/
  | slice (start stop : Nat)
deriving DecidableEq, Repr

/-- Before the first match. -/
def start : ByteScan := ⟨0, 0, []⟩

/-- A piece of the text, which has to be there. -/
def take (text : String) (start stop : Nat) : Except Stop String :=
  match sliceBytes text start stop with
  | some piece => .ok piece
  | none => .error (.slice start stop)

variable {α : Type} (text : String) (label : α → Except Fault (Option Label))

/-- Marks a match, if it is not empty and gets a label. -/
def step (s : ByteScan) (m : ByteMatch α) : Except Stop ByteScan :=
  if m.isEmpty then .ok s
  else
    match label m.content with
    | .error fault => .error (.labelling fault)
    | .ok none => .ok s
    | .ok (some l) => do
      let before ← take text s.bytes m.start
      let read ← take text m.start m.stop
      let start := s.chars + before.length
      let stop := start + read.length
      return ⟨m.stop, stop, s.marks ++ [.labeled start stop l]⟩

end ByteScan

/-- The marks of a text, made from the matches that a search engine found in it. -/
def scanBytes {α : Type} (text : String) (label : α → Except Fault (Option Label))
    (found : List (ByteMatch α)) : Except ByteScan.Stop (List Mark) :=
  return (← found.foldlM (ByteScan.step text label) .start).marks

end Highlight
