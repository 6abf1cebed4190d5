import Highlight.Editor.Operations

/-!
# What arrives at an editor

What an editor does when it looks at what has arrived: first the updates from the editor it
follows, then the completions of its workers. Of several moves of the caret only the last one
counts, and it is followed after all other updates.

* `Editor.showStyles`: shows styles from elsewhere;
* `Editor.showDelivery`: shows computed styles, unless the document has changed since;
* `Editor.catchUp`: handles all that has arrived;
* `Editor.awaitStyles`: does the same and then lets the current computation finish.
-/

namespace Highlight

/-- Why styles were not shown. -/
inductive DropReason where
  /-- The document changed since the request was made. -/
  | outdated
  /-- The styles do not cover the document. -/
  | lengthMismatch (expected actual : Nat)
deriving DecidableEq, Repr

/-- What became of styles that were to be shown. -/
inductive ShowOutcome where
  | shown
  | dropped (reason : DropReason)
deriving DecidableEq, Repr

/-- How many results were shown. -/
def ShowOutcome.count : ShowOutcome → Nat
  | shown => 1
  | dropped _ => 0

namespace Editor

/-- Shows styles that belong to no request, if they cover the document. -/
def showStyles (e : Editor) (styles : Spans) : ShowOutcome × Editor :=
  if styles.length = e.length then
    (.shown, { e with styles := styles, source := none }.announce (.stylesShown none))
  else (.dropped (.lengthMismatch e.length styles.length), e)

/-- Shows the styles computed for a request, if they cover the document and it has not changed. -/
def showDelivery (e : Editor) (d : Delivery) : ShowOutcome × Editor :=
  if d.length ≠ e.length ∨ d.spans.length ≠ e.length then
    (.dropped (.lengthMismatch e.length d.spans.length), e)
  else if d.version ≠ e.version then (.dropped .outdated, e)
  else
    (.shown,
      { e with styles := d.spans, source := some d.number }.announce
        (.stylesShown (some d.number)))

/-! ## Updates -/

/-- Follows an update that is not a move of the caret. A selection that reaches past the end of the
document is passed over. -/
def followUpdate (e : Editor) : Update → Editor
  | .caret _ => e
  | .selection none => e.placeSelection none
  | .selection (some r) => if r.stop ≤ e.length then e.selectRange r.start r.stop else e
  | .language language => e.setLanguage language

/-- Follows a move of the caret, unless it is past the end of the document. -/
def followCaret (e : Editor) (offset : Nat) : Editor :=
  if offset ≤ e.length then (e.placeCaret offset).restyle false (e.caret != offset) else e

/-- The last position of the caret among some updates. -/
def lastCaret? (updates : List Update) : Option Nat :=
  updates.foldl (fun last update => match update with
    | .caret offset => some offset
    | _ => last) none

/-- Follows all updates that have arrived. -/
def followInbox (e : Editor) : Editor :=
  let followed := e.inbox.foldl followUpdate { e with inbox := [] }
  match lastCaret? e.inbox with
  | some offset => followed.followCaret offset
  | none => followed

/-! ## Completions -/

/-- Handles a completion: shows its styles if they are wanted. The answer is the number of results
shown. -/
def handle (e : Editor) (c : Completion) : Except StylingError Nat × Editor :=
  match e.requests.judge c with
  | (.error error, requests) => (.error error, { e with requests := requests })
  | (.ok none, requests) => (.ok 0, { e with requests := requests })
  | (.ok (some delivery), requests) =>
    let showing := { e with requests := requests }.showDelivery delivery
    (.ok showing.1.count, showing.2)

/-- The editor when only the completions `rest` have still to be handled. -/
def leaving (e : Editor) (rest : List Completion) : Editor :=
  { e with requests := { e.requests with queue := rest } }

/-- Handles completions one after the other, up to the first error, and counts the results shown.
What was not handled stays in the queue. -/
def receiveFrom (e : Editor) (shown : Nat) : List Completion → Except StylingError Nat × Editor
  | [] => (.ok shown, e)
  | c :: rest =>
    match (e.leaving rest).handle c with
    | (.error error, e) => (.error error, e)
    | (.ok more, e) => e.receiveFrom (shown + more) rest

/-- Handles the completions that have arrived. -/
def receive (e : Editor) (shown : Nat) : Except StylingError Nat × Editor :=
  e.receiveFrom shown e.requests.queue

/-- Handles all that has arrived: updates, then completions. The answer is the number of results
shown, or the error of the computation that was wanted. -/
def catchUp (e : Editor) : Except StylingError Nat × Editor := e.followInbox.receive 0

/-- Lets the worker of the current request come to its end. -/
def finish (e : Editor) : Editor := { e with requests := e.requests.finish }

/-- Handles all that has arrived, and then lets the current computation finish and handles its
completion. -/
def awaitStyles (e : Editor) : Except StylingError Nat × Editor :=
  match e.catchUp with
  | (.error error, e) => (.error error, e)
  | (.ok shown, e) =>
    if e.requests.isIdle then (.ok shown, e)
    else e.finish.receive shown

end Editor

end Highlight
