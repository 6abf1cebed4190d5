import Highlight.Editor.Basic

/-!
# Operations on editors

Edits, moves of the caret, selections, and changes of what styles are computed from. A refused
operation leaves the editor as it is. Text that is replaced by the same text has not changed: then
neither the version nor the selection changes, and only the caret may move.

* `Editor.edit`: replaces a range of the text, whether the user may edit or not;
* `Editor.replace`, `Editor.insert`, `Editor.delete`: edits by the user;
* `Editor.setCaret`, `Editor.select`: put the caret and the selection somewhere;
* `Editor.setLanguage`, `Editor.setExtensions`, `Editor.addExtension`: ask for new styles.
-/

namespace Highlight.Editor

/-- The text with the characters from `start` up to `stop` replaced. -/
def replaced (e : Editor) (start stop : Nat) (new : String) : String :=
  .ofList (e.text.toList.take start ++ new.toList ++ e.text.toList.drop stop)

/-- Whether replacing the range by `new` changes the text. -/
def changes (e : Editor) (start stop : Nat) (new : String) : Bool :=
  (e.text.toList.drop start).take (stop - start) != new.toList

/-- The styles after the range was replaced by `inserted` characters. Styles that do not cover the
text are given up. -/
def splicedStyles (e : Editor) (start stop inserted : Nat) : Spans :=
  match e.styles.splice start stop inserted with
  | .ok (.ok styles) => styles
  | _ => .plain (e.length - (stop - start) + inserted)

/-- Replaces the range by a different text: the styles follow, and nothing is selected any more. -/
def changeText (e : Editor) (start stop : Nat) (new : String) : Editor :=
  let changed := { e with
    text := e.replaced start stop new
    version := e.version + 1
    styles := e.splicedStyles start stop new.length }
  (changed.placeSelection none).announce
    (.textChanged start (stop - start) new.length changed.version)

/-- Replaces the range and puts the caret behind the new text. -/
def edit (e : Editor) (start stop : Nat) (new : String) : Except Refusal Editor :=
  if start ≤ stop ∧ stop ≤ e.length then
    let textChanged := e.changes start stop new
    let target := start + new.length
    let edited := if textChanged then e.changeText start stop new else e
    .ok ((edited.placeCaret target).restyle textChanged (edited.caret != target))
  else .error (.invalidRange start stop e.length)

/-- Replaces a range as an edit by the user. -/
def replace (e : Editor) (start stop : Nat) (new : String) : Except Refusal Editor :=
  if e.editable then e.edit start stop new else .error .readOnly

/-- Inserts text as an edit by the user. -/
def insert (e : Editor) (offset : Nat) (new : String) : Except Refusal Editor :=
  e.replace offset offset new

/-- Deletes a range as an edit by the user. -/
def delete (e : Editor) (start stop : Nat) : Except Refusal Editor := e.replace start stop ""

/-- Replaces the whole document, even where the user may not edit. -/
def setText (e : Editor) (new : String) : Except Refusal Editor := e.edit 0 e.length new

/-- Puts the caret somewhere; nothing is selected any more. -/
def setCaret (e : Editor) (offset : Nat) : Except Refusal Editor :=
  if offset ≤ e.length then
    let cleared := e.placeSelection none
    .ok ((cleared.placeCaret offset).restyle false (cleared.caret != offset))
  else .error (.offsetOutOfRange offset e.length)

/-- Selects a range and puts the caret at its end. An empty range selects nothing. -/
def selectRange (e : Editor) (start stop : Nat) : Editor :=
  let selected := e.placeSelection (if start < stop then some ⟨start, stop⟩ else none)
  (selected.placeCaret stop).restyle false (selected.caret != stop)

/-- Selects a range of the document. -/
def select (e : Editor) (start stop : Nat) : Except Refusal Editor :=
  if start ≤ stop ∧ stop ≤ e.length then .ok (e.selectRange start stop)
  else .error (.invalidRange start stop e.length)

/-- Changes the language. -/
def setLanguage (e : Editor) (language : Language) : Editor :=
  ((({ e with language := language }).announce (.languageChanged language.name)).passOn
    (.language language)).requestStyles

/-- Replaces the contributors that work beside the language's own. -/
def setExtensions (e : Editor) (extensions : List Contributor) : Editor :=
  { e with requests := e.requests.setExtensions extensions }.requestStyles

/-- Adds a contributor that works beside the language's own. -/
def addExtension (e : Editor) (c : Contributor) : Editor :=
  { e with requests := e.requests.addExtension c }.requestStyles

end Highlight.Editor
