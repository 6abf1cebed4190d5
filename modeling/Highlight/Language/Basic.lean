import Highlight.Contributor.Basic
import Highlight.Pattern.Search

/-!
# Languages

A language says what in a text gets which label: a pattern, a label for each of its matches, and
the contributors of further styles. A language without a pattern is not highlighted.

* `Language.plainText`: the language of unstyled text;
* `Language.scan`: the marks that pattern and labels give a text.
-/

namespace Highlight

/-- The label for a match of a pattern, if it gets one. -/
abbrev Labelling := Pattern → Pattern.Match → Except Fault (Option Label)

namespace Labelling

/-- No label for any match. -/
def none : Labelling := fun _ _ => .ok Option.none

/-- The text of the match is its label. -/
def matchedText : Labelling := fun _ m => .ok m.text

/-- The name of the first named group of the pattern that took part. -/
def leadingGroup : Labelling := fun p m =>
  .ok ((p.groupNames.find? fun (_, index) => (m.capture? index).isSome).map (·.1))

end Labelling

/-- The marks of a list of matches, in order; a match without a label gives none. -/
def marksOf (label : Pattern.Match → Except Fault (Option Label)) :
    List Pattern.Match → Except Fault (List Mark)
  | [] => .ok []
  | m :: rest => do
    match ← label m with
    | some l => return .labeled m.start.offset m.stop.offset l :: (← marksOf label rest)
    | none => marksOf label rest

/-- The marks of a text: one for each match of the pattern that is not empty and gets a label. -/
def Pattern.scan (p : Pattern) (label : Labelling) (text : String) : Except Fault (List Mark) :=
  marksOf (label p) (p.findAll text)

/-- What highlighting and the host need to know of a language. -/
structure Language where
  name : String
  pattern : Option Pattern
  labelling : Labelling
  /-- Contributors of further styles, in order. -/
  contributors : List Contributor
  /-- Where the looks of the labels are defined. -/
  styleSheet : String
  /-- Whether documents can be run. -/
  runnable : Bool
  /-- Whether the host offers completions. -/
  autocomplete : Bool

namespace Language

/-- The style sheet of a language that names none. -/
def plainStyleSheet : String := "styles/plain.css"

/-- A language that has nothing but a name, and a pattern that labels by named groups. -/
def ofPattern (name : String) (pattern : Option Pattern) (contributors : List Contributor) :
    Language :=
  ⟨name, pattern, .leadingGroup, contributors, plainStyleSheet, false, false⟩

/-- The language of text that is not highlighted. -/
def plainText : Language :=
  ⟨"Plain Text", none, .none, [], plainStyleSheet, false, false⟩

/-- The marks of a text; none without a pattern. -/
def scan (l : Language) (text : String) : Except Fault (List Mark) :=
  match l.pattern with
  | some p => p.scan l.labelling text
  | none => .ok []

/-- The language as shown in diagnostics. -/
def describe (l : Language) : String :=
  "LanguageSupport \x7B name: " ++ Text.quote l.name ++
    s!", has_pattern: {l.pattern.isSome}, span_factories: {l.contributors.length} " ++ "\x7D"

end Language

end Highlight
