import Highlight.Language.Basic
import Highlight.Spans.Overlay

/-!
# Computing styles

The styles of a snapshot are the marks of its language, overlaid with the spans of the language's
contributors and then with those of the editor's, in order. After the scan and after every
contributor the computation stops if its request was cancelled. Spans that do not cover the snapshot
are an error, which is reported even where the request was cancelled by then.

* `overlayContributors`: the part after the scan;
* `highlight`: the whole computation.
-/

namespace Highlight

/-- Number of a request, counted from one for each editor. -/
abbrev RequestNumber := Nat

/-- Why styles could not be computed, once there is a worker for them. -/
inductive StylingError where
  /-- A contributor's spans do not cover the snapshot. -/
  | lengthMismatch (contributor : String) (expected actual : Nat)
  /-- The language or a contributor broke off. -/
  | languageFailed (language message : String)
  /-- The request was cancelled. -/
  | cancelled (number : RequestNumber)
deriving DecidableEq, Repr

/-- The text an error is reported with. -/
def StylingError.message : StylingError → String
  | lengthMismatch contributor expected actual =>
    s!"span factory '{contributor}' produced {actual} chars of styling for a " ++
      s!"{expected}-char document"
  | languageFailed language message =>
    s!"language '{language}' panicked while highlighting: {message}"
  | cancelled number => s!"highlight request #{number} was cancelled"

/-- How a computation of styles ended. -/
structure Computation where
  result : Except Fault (Except StylingError Spans)
  /-- Whether the request had been cancelled by then. -/
  cancelled : Bool

namespace Computation

/-- Ended by a fault. -/
def faulted (fault : Fault) (cancelled : Bool) : Computation := ⟨.error fault, cancelled⟩

/-- Ended by an error. -/
def failed (error : StylingError) (cancelled : Bool) : Computation :=
  ⟨.ok (.error error), cancelled⟩

/-- Ended with styles. -/
def done (spans : Spans) (cancelled : Bool) : Computation := ⟨.ok (.ok spans), cancelled⟩

end Computation

section

variable (number : RequestNumber) (worker : String) (snapshot : Snapshot)

/-- Lays the spans of contributors over those found before, one contributor after the other. -/
def overlayContributors (cancelled : Bool) (spans : Spans) : List Contributor → Computation
  | [] => .done spans cancelled
  | c :: rest =>
    let contribution := c.contribute worker snapshot
    let cancelled := cancelled || contribution.cancels
    match contribution.spans with
    | .error fault => .faulted fault cancelled
    | .ok more =>
      if more.length ≠ snapshot.length then
        .failed (.lengthMismatch c.name snapshot.length more.length) cancelled
      else
        match spans.merge more with
        | .error fault => .faulted fault cancelled
        | .ok merged =>
          if cancelled then .failed (.cancelled number) true
          else overlayContributors cancelled merged rest

/-- The styles of a snapshot in a language, with further contributors as extensions. Without a
pattern the text is plain and nothing else is looked at. -/
def highlight (language : Language) (extensions : List Contributor) (cancelled : Bool) :
    Computation :=
  match language.pattern with
  | none => .done (.plain snapshot.length) cancelled
  | some pattern =>
    let scanned := do
      Spans.ofMarks (← pattern.scan language.labelling snapshot.text) snapshot.length
    match scanned with
    | .error fault => .faulted fault cancelled
    | .ok spans =>
      if cancelled then .failed (.cancelled number) true
      else
        overlayContributors number worker snapshot cancelled spans
          (language.contributors ++ extensions)

end

end Highlight
