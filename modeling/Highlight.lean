import Highlight.Main
import Highlight.CommandLine.FileTree
import Highlight.Workspace
import Highlight.Tokens
import Highlight.Proofs.Requests.Deliveries
import Highlight.Proofs.Editor.Timing
import Highlight.Proofs.Editor.Currency
import Highlight.Proofs.Workspace.Placement
import Highlight.Proofs.Spans.Labels
import Highlight.Proofs.Scan
import Highlight.Proofs.Composition
import Highlight.Proofs.Editor.Edits
import Highlight.Proofs.Editor.Requesting
import Highlight.Proofs.Editor.Arrivals
import Highlight.Proofs.Editor.Drains
import Highlight.Proofs.Editor.Freshness
import Highlight.Proofs.Editor.Replica
import Highlight.Proofs.Editor.Stance
import Highlight.Proofs.Workspace.Lookup
import Highlight.Proofs.Workspace.Mirrors
import Highlight.Proofs.Json.Scalars
import Highlight.Proofs.Json.Written
import Highlight.Proofs.Spans.Json
import Highlight.Proofs.Spans.Canonical
import Highlight.Proofs.Language.Builtin
import Highlight.Proofs.CommandLine.Answer
import Highlight.Proofs.Language.Alternation
import Highlight.Proofs.Language.Precedence
import Highlight.Proofs.Spans.Merge
import Highlight.Proofs.Spans.Splice
import Highlight.Proofs.Spans.Walk
import Highlight.Proofs.Spans.Marks
import Highlight.Proofs.Language.ByteScan
import Highlight.Proofs.Acting
import Highlight.Proofs.Contributor.Brackets
import Highlight.Proofs.Workspace.Refusals
import Highlight.Proofs.Workspace.Selection
import Highlight.Proofs.Editor.Patternless
import Highlight.Proofs.Contributor.Occurrences
import Highlight.Proofs.Language.JsonTokens
import Highlight.Proofs.Language.IniLines
import Highlight.Proofs.Language.JavaKeywords
