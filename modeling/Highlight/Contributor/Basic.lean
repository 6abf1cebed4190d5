import Highlight.Snapshot
import Highlight.Spans.Marks
import Highlight.Text.Quoted

/-!
# Contributors of styles

A contributor adds styles that no pattern can express, such as those that depend on the caret.
Beside its spans, which have to cover the whole snapshot, a contributor may ask for its request to
be cancelled, and it may break off.
-/

namespace Highlight

/-- What a contributor made of a snapshot. -/
structure Contribution where
  spans : Except Fault Spans
  /-- Whether the contributor cancelled the request it works for. -/
  cancels : Bool := false

/-- A contributor of styles. It is told the name of the worker it runs on. -/
structure Contributor where
  name : String
  contribute : (worker : String) → Snapshot → Contribution

namespace Contributor

/-- The contributor as shown in diagnostics. -/
def describe (c : Contributor) : String := "SpanFactory(" ++ Text.quote c.name ++ ")"

/-- A contributor that only looks at the snapshot. -/
def ofSpans (name : String) (spans : Snapshot → Except Fault Spans) : Contributor :=
  ⟨name, fun _ s => { spans := spans s }⟩

end Contributor

end Highlight
