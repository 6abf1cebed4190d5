/-!
# Tables of character ranges

A property of characters is stored as the ascending list of the ranges of code points that have it.
-/

namespace Highlight.Unicode

/-- Code points from a first one to a last one, both included. -/
abbrev CodeRange := Nat × Nat

/-- Whether a range of an ascending list holds the code point; the search stops at the first range
that lies behind it. -/
def inRanges (code : Nat) : List CodeRange → Bool
  | [] => false
  | (first, last) :: ranges => first ≤ code && (code ≤ last || inRanges code ranges)

end Highlight.Unicode
