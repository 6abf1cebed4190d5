import Highlight.Contributor.Occurrences
import Highlight.Language.ByteScan

/-!
# The scan for occurrences

The occurrences of the identifier at the caret as they are found by a search engine that counts bytes. The
scan labels each identifier with its own text, so that equal identifiers have equal labels, and it may break
off. What is equal is labelled anew and laid in one pass.

* `Word.pattern`: what the engine searches for;
* `scanOccurrences`: the spans, from the matches that the engine reports.
-/

namespace Highlight

/-- The pattern of identifiers. -/
def Word.pattern : Pattern := ⟨"\\b[A-Za-z_][A-Za-z0-9_]*\\b", expr, []⟩

/-- Labels anew the marks that have the labels of the one at the caret. -/
def Mark.likeAtCaret (label : Label) (s : Snapshot) (words : List Mark) : Except Fault Spans :=
  match words.find? fun m => m.start ≤ s.caret && s.caret ≤ m.stop with
  | none => .ok (.plain s.length)
  | some current =>
    let equal := words.filter (·.labels == current.labels)
    Spans.layMarks (equal.map fun m => .labeled m.start m.stop label) s.length

/-- Labels the identifiers that equal the one at the caret. -/
def scanOccurrences (label : Label) (s : Snapshot) (found : List (ByteMatch Pattern.Match)) :
    Except ByteScan.Stop (Except Fault Spans) := do
  return Mark.likeAtCaret label s (← scanBytes s.text (fun m => .ok (some m.text)) found)

end Highlight
