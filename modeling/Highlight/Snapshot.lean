/-!
# Snapshots

What a computation of styles may look at: a copy of the text and of where the user is in it, taken
when the computation is asked for. Offsets count characters.
-/

namespace Highlight

/-- The characters from `start` up to `stop`. -/
structure TextRange where
  start : Nat
  stop : Nat
deriving DecidableEq, Repr

/-- A copy of a document's state. -/
structure Snapshot where
  text : String
  caret : Nat
  selection : Option TextRange
  /-- How often the document had been changed. -/
  version : Nat
deriving DecidableEq, Repr

namespace Snapshot

/-- A snapshot of a text; a caret past its end stands at its end. -/
def ofText (text : String) (caret : Nat) (selection : Option TextRange) (version : Nat) :
    Snapshot :=
  ⟨text, min caret text.length, selection, version⟩

/-- The number of characters. -/
def length (s : Snapshot) : Nat := s.text.length

/-- Whether the text is empty. -/
def isEmpty (s : Snapshot) : Bool := s.length == 0

end Snapshot

end Highlight
