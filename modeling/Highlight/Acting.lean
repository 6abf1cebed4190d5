import Highlight.Computation

/-!
# Languages and contributors that act

Languages and contributors are the code of others. They may look at what is around them and change
it: count how often they are called, wait for something, cancel the request they work for. Here
they act in a world of any kind, which goes from one call to the next. What others do while such
code runs, an editor that cancels the request among them, is in the world that the call leaves.

* `Acting.highlight`: the computation of styles with languages and contributors of this kind;
* `Language.acting`, `Contributor.acting`: those that do nothing but cancel the request.
-/

namespace Highlight

/-- What is done in a world of type `σ`. It ends in an answer or in a fault, and leaves a world. -/
abbrev Action (σ α : Type) := EStateM Fault σ α

/-- What needs no world. -/
def Action.ofExcept {σ α : Type} : Except Fault α → Action σ α
  | .ok a => pure a
  | .error fault => throw fault

namespace Acting

/-- A contributor of styles. -/
structure Contributor (σ : Type) where
  name : String
  create : Snapshot → Action σ Spans

/-- What highlighting needs to know of a language. -/
structure Language (σ : Type) where
  pattern : Option Pattern
  labelling : Pattern → Pattern.Match → Action σ (Option Label)
  /-- Contributors of further styles, in order. -/
  contributors : List (Contributor σ)

variable {σ : Type}

/-- The marks of a list of matches, in order; a match without a label gives none. -/
def marksOf (label : Pattern.Match → Action σ (Option Label)) :
    List Pattern.Match → Action σ (List Mark)
  | [] => return []
  | m :: rest => do
    match ← label m with
    | some l => return .labeled m.start.offset m.stop.offset l :: (← marksOf label rest)
    | none => marksOf label rest

/-- The spans of a language's marks. -/
def scan (labelling : Pattern → Pattern.Match → Action σ (Option Label)) (p : Pattern)
    (snapshot : Snapshot) : Action σ Spans := do
  let marks ← marksOf (labelling p) (p.findAll snapshot.text)
  Action.ofExcept (Spans.ofMarks marks snapshot.length)

section

variable (number : RequestNumber) (cancelled : σ → Bool) (snapshot : Snapshot)

/-- Stops the computation if its request was cancelled. -/
def checkpoint : ExceptT StylingError (EStateM Fault σ) Unit := do
  if cancelled (← get) then throw (.cancelled number)

/-- Lays the spans of contributors over those found before, one contributor after the other. -/
def overlayContributors (spans : Spans) :
    List (Contributor σ) → ExceptT StylingError (EStateM Fault σ) Spans
  | [] => return spans
  | c :: rest => do
    let more ← c.create snapshot
    if more.length ≠ snapshot.length then
      throw (.lengthMismatch c.name snapshot.length more.length)
    else
      let merged ← (Action.ofExcept (spans.merge more) : Action σ Spans)
      checkpoint number cancelled
      overlayContributors merged rest

/-- The styles of a snapshot in a language, with further contributors as extensions. Without a
pattern the text is plain and nothing is called. -/
def highlight (language : Language σ) (extensions : List (Contributor σ)) :
    ExceptT StylingError (EStateM Fault σ) Spans :=
  match language.pattern with
  | none => return .plain snapshot.length
  | some p => do
    let spans ← scan language.labelling p snapshot
    checkpoint number cancelled
    overlayContributors number cancelled snapshot spans (language.contributors ++ extensions)

end

end Acting

/-- How a computation ended whose world is whether its request was cancelled. -/
def Computation.ofEnding : EStateM.Result Fault Bool (Except StylingError Spans) → Computation
  | .ok result cancelled => ⟨.ok result, cancelled⟩
  | .error fault cancelled => ⟨.error fault, cancelled⟩

/-- A contributor on a worker, in a world that is whether its request was cancelled. -/
def Contributor.acting (worker : String) (c : Contributor) : Acting.Contributor Bool where
  name := c.name
  create snapshot := do
    let contribution := c.contribute worker snapshot
    modify (· || contribution.cancels)
    Action.ofExcept contribution.spans

/-- A language on a worker, in a world that is whether its request was cancelled. -/
def Language.acting (worker : String) (l : Language) : Acting.Language Bool where
  pattern := l.pattern
  labelling p m := Action.ofExcept (l.labelling p m)
  contributors := l.contributors.map (Contributor.acting worker)

end Highlight
