import Highlight.Spans.Basic

/-!
# Following an edit

How the spans of a text change when a range of it is replaced. What lies before and after the range
keeps its labels. The new text carries the labels of its surroundings if the characters on both
sides of the range agree, as they do when one types inside a word, and none otherwise.

* `takeRuns`, `dropRuns`: the runs of the first characters, and of those after them;
* `Spans.inherited`: the labels of the new text;
* `Spans.splice`: the spans after the edit.
-/

namespace Highlight

/-- Why a span set does not fit. -/
inductive SpansError where
  /-- The set does not describe a text of the expected length. -/
  | lengthMismatch (expected actual : Nat)
  /-- A range is reversed or reaches past the end. -/
  | outOfRange (start stop length : Nat)
deriving DecidableEq, Repr

/-- The text an error is reported with. -/
def SpansError.message : SpansError → String
  | lengthMismatch expected actual =>
    s!"style spans cover {actual} chars but the text has {expected}"
  | outOfRange start stop length =>
    s!"range {start}..{stop} is outside of a {length}-char span set"

/-- The runs of the first `n` characters. -/
def takeRuns (n : Nat) : List Run → List Run
  | [] => []
  | r :: runs => if n < r.length then [⟨n, r.labels⟩] else r :: takeRuns (n - r.length) runs

/-- The runs after the first `n` characters. -/
def dropRuns (n : Nat) : List Run → List Run
  | [] => []
  | r :: runs =>
    if n < r.length then ⟨r.length - n, r.labels⟩ :: runs else dropRuns (n - r.length) runs

namespace Spans

/-- Whether the set describes a text of exactly `expected` characters. -/
def checkLength (s : Spans) (expected : Nat) : Except SpansError Unit :=
  if s.length = expected then .ok () else .error (.lengthMismatch expected s.length)

/-- The labels that text put in place of `start..stop` carries: those of the characters before and
after the range if there are such and their labels agree. -/
def inherited (s : Spans) (start stop : Nat) : Labels :=
  match start with
  | 0 => .empty
  | before + 1 =>
    match s.labelsAt before, s.labelsAt stop with
    | some left, some right => if left = right then left else .empty
    | _, _ => .empty

/-- The spans after `start..stop` was replaced by `inserted` characters. -/
def splice (s : Spans) (start stop inserted : Nat) : Except SpansError (Except Fault Spans) :=
  if start ≤ stop ∧ stop ≤ s.length then
    .ok <| build <|
      takeRuns start s.runs ++ ⟨inserted, s.inherited start stop⟩ :: dropRuns stop s.runs
  else .error (.outOfRange start stop s.length)

end Spans

end Highlight
