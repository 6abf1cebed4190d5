import Highlight.Language.Basic

/-!
# Languages given by rules

A rule labels what its pattern matches. All rules together make one pattern: their alternation, in
order, each rule in a group of its own, with `^` and `$` holding at the ends of lines. So of two
rules that match at the same place the earlier one wins, and a match gets the label of the rule
whose group took part.

* `RuleSet.combined`: the text of the common pattern;
* `RuleSet.build`: the language, or the first rule that is wrong.
-/

namespace Highlight

/-- What matches `pattern` gets `label`. -/
structure Rule where
  label : Label
  pattern : String
deriving DecidableEq, Repr

/-- Why a list of rules makes no language. -/
inductive RuleError where
  /-- The pattern of the rule with a label, or of all rules together, is none. -/
  | pattern (label : String) (language : String)
  /-- A rule gives an empty label. -/
  | emptyLabel (language : String)
deriving DecidableEq, Repr

/-- The text an error is reported with. -/
def RuleError.message : RuleError → String
  | pattern label language => s!"invalid pattern for rule '{label}' in language '{language}'"
  | emptyLabel language => s!"language '{language}' has a rule with an empty style label"

/-- A language described by rules. -/
structure RuleSet where
  name : String
  rules : List Rule
  /-- A labelling to use in place of the rules' labels. -/
  labelling : Option Labelling := none
  contributors : List Contributor := []
  styleSheet : String := Language.plainStyleSheet
  runnable : Bool := false
  autocomplete : Bool := false

namespace RuleSet

/-- The name of the group around the rule with a number. -/
def groupName (index : Nat) : String := s!"__rule{index}"

/-- One alternative of the common pattern. -/
def alternative (rule : Rule) (index : Nat) : String :=
  "(?P<" ++ groupName index ++ ">" ++ rule.pattern ++ ")"

/-- The text of the common pattern. -/
def combined (rules : List Rule) : String :=
  "(?m)" ++ "|".intercalate (rules.zipIdx.map fun (rule, index) => alternative rule index)

/-- The label for a match of the common pattern: that of the first rule whose group took part. -/
def ruleLabel (rules : List Rule) : Labelling := fun p m =>
  .ok ((rules.zipIdx.find? fun (_, index) => (p.group? m (groupName index)).isSome).map
    (·.1.label))

section Build

variable (properties : Pattern.Properties)

/-- Whether every rule is right by itself; otherwise what is wrong with the first that is not. -/
def checkRules (language : String) : List Rule → Except RuleError Unit
  | [] => .ok ()
  | rule :: rest =>
    if rule.label.isEmpty then .error (.emptyLabel language)
    else
      match Pattern.parse properties rule.pattern with
      | .error _ => .error (.pattern rule.label language)
      | .ok _ => checkRules language rest

/-- The common pattern; there is none without rules. -/
def commonPattern (language : String) (rules : List Rule) :
    Except RuleError (Option Pattern) :=
  if rules.isEmpty then .ok none
  else
    match Pattern.parse properties (combined rules) with
    | .error _ => .error (.pattern "*" language)
    | .ok p => .ok (some p)

/-- The language that a rule set describes, where some properties of characters are known. -/
def build (d : RuleSet) : Except RuleError Language := do
  checkRules properties d.name d.rules
  let pattern ← commonPattern properties d.name d.rules
  return {
    name := d.name
    pattern := pattern
    labelling := d.labelling.getD (ruleLabel d.rules)
    contributors := d.contributors
    styleSheet := d.styleSheet
    runnable := d.runnable
    autocomplete := d.autocomplete }

end Build

/-- The rule set as shown in diagnostics, with the common pattern of the language built from it. -/
def describe (d : RuleSet) (l : Language) : String :=
  let contributors := ", ".intercalate (d.contributors.map Contributor.describe)
  "LanguageDescriptor \x7B name: " ++ Text.quote d.name ++
    ", pattern: " ++ Text.quoteOption (l.pattern.map (·.source)) ++
    s!", rules: {d.rules.length}, span_factories: [{contributors}], style_sheet: " ++
    Text.quote d.styleSheet ++
    s!", runnable: {d.runnable}, autocomplete: {d.autocomplete} " ++ "\x7D"

end RuleSet

end Highlight
