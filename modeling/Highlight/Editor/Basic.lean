import Highlight.Requests
import Highlight.Spans.Splice

/-!
# Editors

An editor holds a document, the caret and the selection in it, and the styles that cover it. It
requests new styles when something changed that they depend on, tells its subscribers what happened,
and tells the editors that follow it where the caret is.

* `Editor.requestStyles`: asks for the styles of the present state;
* `Editor.placeSelection`, `Editor.placeCaret`: change the state and tell about it, but only if
  there is a difference.
-/

namespace Highlight

/-- The settings of an editor. -/
structure Settings where
  /-- Whether styles are computed anew when only the caret moved. -/
  caretSensitive : Bool
  /-- What the names of the editor's workers begin with. -/
  workerName : String
deriving DecidableEq, Repr

/-- The settings where nothing else is said. -/
def Settings.standard : Settings := ⟨true, Requests.defaultWorkerName⟩

/-- What an editor tells its subscribers. -/
inductive Event where
  /-- From `start` on, `removed` characters were replaced by `inserted` others. -/
  | textChanged (start removed inserted version : Nat)
  | caretMoved (offset : Nat)
  | selectionChanged (selection : Option TextRange)
  | languageChanged (name : String)
  /-- New styles cover the document, those of a request or others. -/
  | stylesShown (request : Option RequestNumber)
deriving DecidableEq, Repr

/-- What an editor tells those that follow it. -/
inductive Update where
  | caret (offset : Nat)
  | selection (selection : Option TextRange)
  | language (language : Language)

/-- Why an operation was refused. -/
inductive Refusal where
  /-- An offset past the end of the document. -/
  | offsetOutOfRange (offset length : Nat)
  /-- A range that is reversed or reaches past the end of the document. -/
  | invalidRange (start stop length : Nat)
  /-- The document must not be edited. -/
  | readOnly
deriving DecidableEq, Repr

/-- The text an error is reported with. -/
def Refusal.message : Refusal → String
  | offsetOutOfRange offset length => s!"offset {offset} is out of range for a {length}-char document"
  | invalidRange start stop length =>
    s!"range {start}..{stop} is invalid for a {length}-char document"
  | readOnly => "editor is read-only"

/-- An editor. -/
structure Editor where
  text : String
  caret : Nat
  selection : Option TextRange
  /-- Whether the user may edit. -/
  editable : Bool
  /-- The number of changes of the text. -/
  version : Nat
  language : Language
  requests : Requests
  styles : Spans
  /-- The request that the styles were computed for, if they come from one. -/
  source : Option RequestNumber
  settings : Settings
  /-- All that subscribers were told, the last event first. -/
  events : List Event
  /-- What is to be told to the followers, the oldest update first. -/
  outbox : List Update
  /-- What was told by other editors and not yet followed, the oldest update first. -/
  inbox : List Update

namespace Editor

/-- An editor of a text, with the caret at its beginning and nothing highlighted yet. -/
def new (text : String) (language : Language) (settings : Settings) : Editor where
  text := text
  caret := 0
  selection := none
  editable := true
  version := 0
  language := language
  requests := .new [] settings.workerName
  styles := .plain text.length
  source := none
  settings := settings
  events := []
  outbox := []
  inbox := []

/-- The number of characters of the document. -/
def length (e : Editor) : Nat := e.text.length

/-- A copy of the present state. -/
def snapshot (e : Editor) : Snapshot := .ofText e.text e.caret e.selection e.version

/-- The fault that the editor's requests ended in. -/
def fault? (e : Editor) : Option Fault := e.requests.fault?

/-- Tells the subscribers. -/
def announce (e : Editor) (event : Event) : Editor := { e with events := event :: e.events }

/-- Tells the followers. -/
def passOn (e : Editor) (update : Update) : Editor := { e with outbox := e.outbox ++ [update] }

/-- Allows or forbids edits by the user. -/
def setEditable (e : Editor) (value : Bool) : Editor := { e with editable := value }

/-- Lets styles be requested after moves of the caret, or not. -/
def setCaretSensitive (e : Editor) (value : Bool) : Editor :=
  { e with settings := { e.settings with caretSensitive := value } }

/-- Asks for the styles of the present state; the new request supersedes the current one. If the
language has no pattern, the current request is cancelled and the document shown unstyled. -/
def requestStyles (e : Editor) : Editor :=
  match e.language.pattern with
  | some _ => { e with requests := e.requests.issue e.snapshot e.language }
  | none =>
    let e := { e with requests := e.requests.withdraw }
    if e.styles.isPlain then e
    else { e with styles := .plain e.length, source := none }.announce (.stylesShown none)

/-- Asks for styles after a change of the text, and after a move of the caret if the settings say
so. -/
def restyle (e : Editor) (textChanged caretMoved : Bool) : Editor :=
  if textChanged || caretMoved && e.settings.caretSensitive then e.requestStyles else e

/-- Makes `selection` the selection. -/
def placeSelection (e : Editor) (selection : Option TextRange) : Editor :=
  if e.selection = selection then e
  else
    ({ e with selection := selection }.announce (.selectionChanged selection)).passOn
      (.selection selection)

/-- Puts the caret at `offset`. -/
def placeCaret (e : Editor) (offset : Nat) : Editor :=
  if e.caret = offset then e
  else ({ e with caret := offset }.announce (.caretMoved offset)).passOn (.caret offset)

/-- The editor as shown in diagnostics. -/
def describe (e : Editor) : String :=
  let selection := match e.selection with
    | some r => s!"Some({r.start}..{r.stop})"
    | none => "None"
  let applied := match e.source with
    | some number => s!"Some(RequestId({number}))"
    | none => "None"
  "EditorCore \x7B " ++
    s!"len_chars: {e.length}, caret: {e.caret}, selection: {selection}, editable: {e.editable}, " ++
    s!"version: {e.version}, language: " ++ Text.quote e.language.name ++
    s!", scheduler: {e.requests.describe}, applied_request: {applied}, .. " ++ "\x7D"

end Editor

end Highlight
