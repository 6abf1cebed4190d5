import Highlight.Editor.Basic
import Highlight.Json.Printer
import Highlight.Json.Reader

/-!
# Spans and settings as JSON

A run is an object of its length and its labels, a span set an array of runs. A run, and likewise
the settings of an editor, may also be written as the array of its fields. Members that are not
known are passed over, but a known one must not occur twice. A run needs both its fields; settings
that are missing keep their standard values.

* `Spans.toJson`, `Spans.decode`: writing and reading a span set;
* `Run.decode`: reading one run;
* `Settings.decode`: reading the settings of an editor.
-/

namespace Highlight

/-- The one value under a key: missing if the key does not occur, and wrong if it occurs twice. -/
def Json.field? (members : List (Option String × Json)) (key : String) : Option (Option Json) :=
  match members.filter (·.1 == some key) with
  | [] => some none
  | [(_, value)] => some (some value)
  | _ => none

/-- Whether every key of an object denotes a text. -/
def Json.keysAreTexts (members : List (Option String × Json)) : Bool := members.all (·.1.isSome)

/-- Text that is not the JSON form of what was asked for. -/
structure NotJson where
deriving DecidableEq, Repr

/-! ## Runs and span sets -/

/-- The JSON form of labels. -/
def Labels.toJson (labels : Labels) : Json := .array (labels.toList.map .string)

/-- The labels that a JSON value describes. -/
def Labels.ofJson? (value : Json) : Option Labels := do
  let items ← value.items?
  return .ofList (← items.mapM Json.text?)

/-- The JSON form of a run. -/
def Run.toJson (r : Run) : Json :=
  .ofMembers [("length", .nat r.length), ("labels", r.labels.toJson)]

/-- The run that a JSON value describes. -/
def Run.ofJson? : Json → Option Run
  | .array [length, labels] => return ⟨← length.natural?, ← Labels.ofJson? labels⟩
  | .object members => do
    if !Json.keysAreTexts members then none
    let length ← ← Json.field? members "length"
    let labels ← ← Json.field? members "labels"
    return ⟨← length.natural?, ← Labels.ofJson? labels⟩
  | _ => none

/-- Reads a run. -/
def Run.decode (text : String) : Except NotJson Run :=
  match Json.readPrefix? text.toList with
  | some (value, rest) =>
    match Run.ofJson? value with
    | some run => if Json.isEnd rest then .ok run else .error ⟨⟩
    | none => .error ⟨⟩
  | none => .error ⟨⟩

namespace Spans

/-- The JSON form of a span set. -/
def toJson (s : Spans) : Json := .array (s.runs.map Run.toJson)

/-- The JSON text of a span set, on one line. -/
def encode (s : Spans) : String := .ofList s.toJson.compact

/-- Reads a span set. It is built as soon as its array has been read, so a fault of building shows
even if something wrong follows. -/
def decode (text : String) : Except Fault (Except NotJson Spans) :=
  match Json.readPrefix? text.toList with
  | some (.array items, rest) =>
    match items.mapM Run.ofJson? with
    | some runs => do
      let spans ← build runs
      return if Json.isEnd rest then .ok spans else .error ⟨⟩
    | none => .ok (.error ⟨⟩)
  | _ => .ok (.error ⟨⟩)

end Spans

/-! ## Settings -/

namespace Settings

/-- The settings that a JSON value describes. -/
def ofJson? : Json → Option Settings
  | .array [] => some standard
  | .array [caret] => return { standard with caretSensitive := ← caret.bool? }
  | .array [caret, worker] => return ⟨← caret.bool?, ← worker.text?⟩
  | .object members => do
    if !Json.keysAreTexts members then none
    let caret ← Json.field? members "highlight_on_caret_move"
    let worker ← Json.field? members "worker_thread_name"
    let caret ← match caret with
      | some value => value.bool?
      | none => some standard.caretSensitive
    let worker ← match worker with
      | some value => value.text?
      | none => some standard.workerName
    return ⟨caret, worker⟩
  | _ => none

/-- Reads settings. -/
def decode (text : String) : Except NotJson Settings :=
  match Json.readPrefix? text.toList with
  | some (value, rest) =>
    match ofJson? value with
    | some settings => if Json.isEnd rest then .ok settings else .error ⟨⟩
    | none => .error ⟨⟩
  | none => .error ⟨⟩

end Settings

end Highlight
