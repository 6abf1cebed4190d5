import Highlight.Editor.Results

/-!
# Operations in place

The operations that may be refused, as they change an editor part by part. They look at their
arguments and at the editor when they come to it, and what was done before a refusal stays done.

* `Editor.Change`: a change of an editor that may be refused in the midst of it;
* `Editor.Change.edit`, `Editor.Change.replace`, `Editor.Change.setCaret`, `Editor.Change.select`:
  the operations;
* `Editor.Change.showStyles`: styles from elsewhere, which are shown or dropped.
-/

namespace Highlight.Editor

/-- A change of an editor, part by part. It may be refused at any time, and what it did until then is
not undone. -/
abbrev Change (α : Type) := ExceptT Refusal (StateM Editor) α

namespace Change

/-- The answer of a change, and what it makes of an editor. -/
def on {α : Type} (c : Change α) (e : Editor) : Except Refusal α × Editor := c.run.run e

/-- Tells the subscribers. -/
def announce (event : Event) : Change Unit := modify fun e => e.announce event

/-- Tells the followers. -/
def passOn (update : Update) : Change Unit := modify fun e => e.passOn update

/-- Makes `selection` the selection. -/
def placeSelection (selection : Option TextRange) : Change Unit := do
  if (← get).selection = selection then return
  modify ({ · with selection := selection })
  announce (.selectionChanged selection)
  passOn (.selection selection)

/-- Puts the caret at `offset`. The answer is whether it moved. -/
def placeCaret (offset : Nat) : Change Bool := do
  if (← get).caret = offset then return false
  modify ({ · with caret := offset })
  announce (.caretMoved offset)
  passOn (.caret offset)
  return true

/-- Asks for styles after a change of the text, and after a move of the caret if the settings say
so. -/
def restyle (textChanged caretMoved : Bool) : Change Unit := do
  if textChanged || caretMoved && (← get).settings.caretSensitive then modify requestStyles

/-- Lets the styles follow a replacement that was made in the text already. Styles that do not cover
the text are given up. -/
def spliceStyles (start stop inserted : Nat) : Change Unit := do
  match (← get).styles.splice start stop inserted with
  | .ok (.ok styles) => modify ({ · with styles := styles })
  | _ => modify fun e => { e with styles := .plain e.length }

/-- Puts a different text in the place of a range. -/
def changeText (start stop : Nat) (new : String) : Change Unit := do
  modify fun e => { e with text := e.replaced start stop new }
  modify fun e => { e with version := e.version + 1 }
  spliceStyles start stop new.length
  placeSelection none
  announce (.textChanged start (stop - start) new.length (← get).version)

/-- Replaces the range and puts the caret behind the new text. -/
def edit (start stop : Nat) (new : String) : Change Unit := do
  let e ← get
  if stop < start ∨ e.length < stop then throw (.invalidRange start stop e.length)
  let textChanged := e.changes start stop new
  if textChanged then changeText start stop new
  restyle textChanged (← placeCaret (start + new.length))

/-- Replaces a range as an edit by the user. -/
def replace (start stop : Nat) (new : String) : Change Unit := do
  if !(← get).editable then throw .readOnly
  edit start stop new

/-- Inserts text as an edit by the user. -/
def insert (offset : Nat) (new : String) : Change Unit := replace offset offset new

/-- Deletes a range as an edit by the user. -/
def delete (start stop : Nat) : Change Unit := replace start stop ""

/-- Replaces the whole document, even where the user may not edit. -/
def setText (new : String) : Change Unit := do edit 0 (← get).length new

/-- Puts the caret somewhere; nothing is selected any more. -/
def setCaret (offset : Nat) : Change Unit := do
  let length := (← get).length
  if length < offset then throw (.offsetOutOfRange offset length)
  placeSelection none
  restyle false (← placeCaret offset)

/-- Selects a range and puts the caret at its end. An empty range selects nothing. -/
def selectRange (start stop : Nat) : Change Unit := do
  placeSelection (if start < stop then some ⟨start, stop⟩ else none)
  restyle false (← placeCaret stop)

/-- Selects a range of the document. -/
def select (start stop : Nat) : Change Unit := do
  let length := (← get).length
  if stop < start ∨ length < stop then throw (.invalidRange start stop length)
  selectRange start stop

/-- Shows styles that belong to no request, if they cover the document. -/
def showStyles (styles : Spans) : Change ShowOutcome := do
  let length := (← get).length
  if styles.length ≠ length then return .dropped (.lengthMismatch length styles.length)
  modify ({ · with styles := styles })
  modify ({ · with source := none })
  announce (.stylesShown none)
  return .shown

end Change

end Highlight.Editor
