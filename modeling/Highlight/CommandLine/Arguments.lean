import Highlight.Text.Digits

/-!
# The arguments of the command

One file to highlight, and options with a short or a long name. The value of an option is the next
argument, or follows its name at once: behind an equals sign, or directly behind a short name.
Short names may be joined, arguments behind two hyphens are no options, and no option may be given
twice.

* `Arguments.parse`: what a list of arguments asks for.
-/

namespace Highlight.CommandLine

/-- The options that take a value. -/
inductive ValueOption where
  | language
  | caret
  | config
  | timeout

/-- What was read of the arguments. -/
structure Draft where
  path : Option String := none
  language : Option String := none
  caret : Option Nat := none
  json : Bool := false
  config : Option String := none
  /-- In milliseconds. -/
  timeout : Option Nat := none

/-- What to do with a file. -/
structure Arguments where
  path : String
  /-- The extension that selects the language, if not that of the file. -/
  language : Option String
  caret : Nat
  json : Bool
  /-- The file with the settings. -/
  config : Option String
deriving DecidableEq, Repr

/-- What a list of arguments asks for. -/
inductive Demand where
  | run (arguments : Arguments)
  | version
  | help
  /-- The arguments make no sense. -/
  | misuse
deriving DecidableEq, Repr

/-- A natural number of 64 bits, with or without a plus sign. -/
def number? (text : String) : Option Nat :=
  let digits := match text.toList with
    | '+' :: digits => digits
    | digits => digits
  (Text.natural? digits).filter (· < UInt64.size)

/-- The name of a file, which must not be empty. -/
def filePath? (text : String) : Option String := if text = "" then none else some text

namespace Draft

/-- Gives an option its value, if it has none yet and the value is right. -/
def set? (d : Draft) (option : ValueOption) (value : String) : Option Draft :=
  match option with
  | .language => if d.language.isSome then none else some { d with language := some value }
  | .caret =>
    if d.caret.isSome then none else (number? value).map fun n => { d with caret := some n }
  | .config =>
    if d.config.isSome then none else (filePath? value).map fun p => { d with config := some p }
  | .timeout =>
    if d.timeout.isSome then none else (number? value).map fun n => { d with timeout := some n }

/-- Asks for JSON output, once. -/
def setJson? (d : Draft) : Option Draft := if d.json then none else some { d with json := true }

/-- Names the file to highlight, once. -/
def setPath? (d : Draft) (value : String) : Option Draft :=
  if d.path.isSome then none else (filePath? value).map fun p => { d with path := some p }

/-- What the arguments ask for once all of them have been read. The environment may name the file
with the settings where no argument does. -/
def complete (d : Draft) (environment : Option String) : Demand :=
  match d.path, d.config.or environment with
  | some _, some "" => .misuse
  | some path, config => .run ⟨path, d.language, d.caret.getD 0, d.json, config⟩
  | none, _ => .misuse

end Draft

/-- Whether an argument is an option, or several, rather than a value. -/
def isOption (argument : String) : Bool := argument.startsWith "-" && argument != "-"

/-- The option with a value that has a long name. -/
def longOption? : List Char → Option ValueOption := fun name =>
  match String.ofList name with
  | "language" => some .language
  | "caret" => some .caret
  | "config" => some .config
  | "timeout-ms" => some .timeout
  | _ => none

/-- The option with a value that has a short name. -/
def shortOption? : Char → Option ValueOption
  | 'l' => some .language
  | 'c' => some .caret
  | 't' => some .timeout
  | _ => none

/-- What came of one argument: more to read, perhaps an option that waits for its value, or an
answer at once. -/
inductive Progress where
  | more (draft : Draft)
  | valueOf (option : ValueOption) (draft : Draft)
  | answer (demand : Demand)

/-- Goes on with a draft, or gives up if there is none. -/
def Progress.ofDraft? : Option Draft → Progress
  | some d => .more d
  | none => .answer .misuse

/-- Reads an argument that gives options by long names, without its two hyphens. -/
def readLong (d : Draft) (text : List Char) : Progress :=
  let name := text.takeWhile (· != '=')
  let value := match text.dropWhile (· != '=') with
    | _ :: value => some (String.ofList value)
    | [] => none
  match longOption? name, value with
  | some option, some value => .ofDraft? (d.set? option value)
  | some option, none => .valueOf option d
  | none, some _ => .answer .misuse
  | none, none =>
    match String.ofList name with
    | "json" => .ofDraft? d.setJson?
    | "version" => .answer .version
    | "help" => .answer .help
    | _ => .answer .misuse

/-- Reads an argument that gives options by short names, without its hyphen. -/
def readShort (d : Draft) : List Char → Progress
  | [] => .more d
  | c :: rest =>
    match shortOption? c, rest with
    | some option, [] => .valueOf option d
    | some option, '=' :: value => .ofDraft? (d.set? option (.ofList value))
    | some option, value => .ofDraft? (d.set? option (.ofList value))
    | none, _ =>
      match c with
      | 'j' =>
        match d.setJson? with
        | some d => readShort d rest
        | none => .answer .misuse
      | 'V' => .answer .version
      | 'h' => .answer .help
      | _ => .answer .misuse

/-- Reads one argument. -/
def readArgument (d : Draft) (argument : String) : Progress :=
  match argument.toList with
  | '-' :: '-' :: text => readLong d text
  | '-' :: c :: text => readShort d (c :: text)
  | _ => .ofDraft? (d.setPath? argument)

/-- Reads the arguments behind two hyphens, none of which is an option. -/
def readPaths (environment : Option String) (d : Draft) : List String → Demand
  | [] => d.complete environment
  | argument :: rest =>
    match d.setPath? argument with
    | some d => readPaths environment d rest
    | none => .misuse

/-- Reads arguments in order; `waiting` is an option that still needs its value. -/
def readArguments (environment : Option String) (waiting : Option ValueOption) (d : Draft) :
    List String → Demand
  | [] => if waiting.isSome then .misuse else d.complete environment
  | argument :: rest =>
    match waiting with
    | some option =>
      if isOption argument then .misuse
      else
        match d.set? option argument with
        | some d => readArguments environment none d rest
        | none => .misuse
    | none =>
      if argument = "--" then readPaths environment d rest
      else
        match readArgument d argument with
        | .more d => readArguments environment none d rest
        | .valueOf option d => readArguments environment (some option) d rest
        | .answer demand => demand

/-- What a list of arguments asks for, where the environment may name the file with the settings. -/
def Arguments.parse (arguments : List String) (environment : Option String) : Demand :=
  readArguments environment none {} arguments

end Highlight.CommandLine
