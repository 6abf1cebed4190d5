import Highlight.Codec
import Highlight.CommandLine.Arguments
import Highlight.Editor.Results
import Highlight.Language.Builtin

/-!
# The command

Highlights a file and prints which labels apply where: a line for each stretch that carries labels,
or all runs as JSON. The file is opened in an editor with the caret where it was asked for, and the
styles are those that the editor shows once they have been computed.

* `rangeLines`: the lines of the plain output;
* `report`: the JSON output;
* `run`: the whole command, for any way to read files.
-/

namespace Highlight.CommandLine

/-- How a run of the command ends. -/
inductive Outcome where
  /-- With output. -/
  | printed (output : String)
  /-- With an error. -/
  | failed (message : String)
  /-- Without doing anything, since the arguments make no sense. -/
  | misuse
  /-- By a fault. -/
  | broken (fault : Fault)
deriving DecidableEq, Repr

/-- A text filled with blanks on the left up to a width. -/
def padLeft (width : Nat) (text : String) : String :=
  .ofList (List.replicate (width - text.length) ' ' ++ text.toList)

/-- A text filled with blanks on the right up to a width. -/
def padRight (width : Nat) (text : String) : String :=
  .ofList (text.toList ++ List.replicate (width - text.length) ' ')

/-- The line for a stretch of a text: its offsets, its labels and its characters. -/
def rangeLine (s : Spans.Stretch) (snippet : List Char) : String :=
  padLeft 6 (toString s.start) ++ ".." ++ padRight 6 (toString s.stop) ++ " " ++
    padRight 24 (",".intercalate s.labels.toList) ++ " " ++ Text.quote (.ofList snippet)

/-- The lines for those of some stretches that carry labels, where the first stretch begins with
the first of the characters given and each of the others where the one before it ends. -/
def rangeLinesFrom (text : List Char) : List Spans.Stretch → List String
  | [] => []
  | s :: rest =>
    let length := s.stop - s.start
    let lines := rangeLinesFrom (text.drop length) rest
    if s.labels.isEmpty then lines else rangeLine s (text.take length) :: lines

/-- One line for each stretch of the document that carries labels, in order. -/
def rangeLines (e : Editor) : List String := rangeLinesFrom e.text.toList e.styles.stretches

/-- All that the output in JSON tells about the document. -/
def report (e : Editor) : Json :=
  .ofMembers [
    ("language", .string e.language.name),
    ("length", .nat e.length),
    ("runs", .array (e.styles.runs.map fun r =>
      .ofMembers [("labels", r.labels.toJson), ("length", .nat r.length)])),
    ("style_sheet", .string e.language.styleSheet)]

/-- What is printed about a document. -/
def output (json : Bool) (e : Editor) : String :=
  if json then .ofList ((report e).pretty ++ ['\n'])
  else .join ((rangeLines e).map (· ++ "\n"))

/-- An editor of a text that has asked for the styles with the caret at `caret`. -/
def opened (text : String) (language : Language) (settings : Settings) (caret : Nat) :
    Except String Editor :=
  match (Editor.new text language settings).setCaret caret with
  | .error _ => .error s!"caret {caret} is outside of the file"
  | .ok e => .ok e.requestStyles

/-- An editor once the styles it asked for have been computed. -/
def styled (e : Editor) : Except String Editor :=
  match e.awaitStyles with
  | (.error error, _) => .error error.message
  | (.ok _, e) => .ok e

/-- The settings that the file named for them holds, if one is named. -/
def settingsOf : Option (String × Option String) → Except String Settings
  | none => .ok .standard
  | some (path, none) => .error s!"failed to read config {path}"
  | some (path, some content) =>
    match Settings.decode content with
    | .ok settings => .ok settings
    | .error _ => .error s!"invalid config {path}"

/-- The name and version of the command. -/
def versionText : String := "ide-highlight 0.1.0\n"

/-- How the command is used. -/
def helpText : String :=
  "Usage: ide-highlight [OPTIONS] <PATH>\n\n" ++
  "  -l, --language <LANGUAGE>      file extension that selects the language\n" ++
  "  -c, --caret <CARET>            offset of the caret\n" ++
  "  -j, --json                     print all runs as JSON\n" ++
  "      --config <CONFIG>          file with the settings, in JSON\n" ++
  "  -t, --timeout-ms <TIMEOUT_MS>  how long to wait for the styles\n"

section Run

variable (properties : Pattern.Properties)

/-- What the command does with files that have been read: the file to highlight, and the one with
the settings. Where a file could not be read as text, its content is missing. -/
def answer (arguments : Arguments) (text : Option String)
    (settings : Option (String × Option String)) : Outcome :=
  let outcome : Except String Outcome := do
    let some text := text | .error s!"failed to read {arguments.path}"
    let language := match arguments.language with
      | some extension => Builtin.ofExtension properties extension
      | none => Builtin.ofPath properties arguments.path
    let language ← language.mapError RuleError.message
    let settings ← settingsOf settings
    let e ← opened text language settings arguments.caret
    match e.fault? with
    | some fault => return .broken fault
    | none => return .printed (output arguments.json (← styled e))
  match outcome with
  | .ok outcome => outcome
  | .error message => .failed message

/-- Runs the command. `read` gives the content of a file, if it can be read. -/
def run {m : Type → Type} [Monad m] (read : String → m (Option ByteArray))
    (arguments : List String) (environment : Option String) : m Outcome := do
  let text? (path : String) : m (Option String) := do
    return (← read path).bind String.fromUTF8?
  match Arguments.parse arguments environment with
  | .misuse => return .misuse
  | .version => return .printed versionText
  | .help => return .printed helpText
  | .run a =>
    let text ← text? a.path
    let settings ← match a.config with
      | some path => do pure (some (path, ← text? path))
      | none => pure none
    return answer properties a text settings

end Run

end Highlight.CommandLine
