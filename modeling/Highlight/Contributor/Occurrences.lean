import Highlight.Contributor.Basic
import Highlight.Pattern.Search

/-!
# Occurrences of the word at the caret

Marks every identifier of the text that equals the one the caret stands in or touches. An
identifier is a whole word of Latin letters, digits and low lines that starts with no digit.
-/

namespace Highlight

/-- An identifier and where it stands. -/
structure Word where
  start : Nat
  stop : Nat
  text : String
deriving DecidableEq, Repr

namespace Word

open Pattern in
/-- The expression of an identifier: a word boundary, a letter or low line, letters, digits and low
lines, and a word boundary. -/
def expr : Expr :=
  let letters : List Unicode.CodeRange := [(0x41, 0x5A), (0x5F, 0x5F), (0x61, 0x7A)]
  .seqOf [
    .check .wordBoundary,
    .one (.ofRanges letters),
    .loop 0 none true (.one (.ofRanges ((0x30, 0x39) :: letters))),
    .check .wordBoundary]

/-- The identifiers of a text, in order. -/
def all (text : String) : List Word :=
  (expr.findAll text).map fun m => ⟨m.start.offset, m.stop.offset, m.text⟩

/-- Whether the caret stands in the word or at one of its ends. -/
def touches (w : Word) (caret : Nat) : Bool := w.start ≤ caret && caret ≤ w.stop

end Word

/-- The customary label of the occurrences. -/
def Contributor.caretWordLabel : Label := "caret-word"

/-- Labels all occurrences of the identifier at the caret. -/
def Contributor.caretOccurrences (label : Label) : Contributor :=
  ofSpans "caret-occurrences" fun s =>
    let words := Word.all s.text
    match words.find? (·.touches s.caret) with
    | none => .ok (.plain s.length)
    | some current =>
      let equal := words.filter (·.text == current.text)
      Spans.ofMarks (equal.map fun w => .labeled w.start w.stop label) s.length

end Highlight
