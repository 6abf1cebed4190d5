import Highlight.Language.Rules

/-!
# The text of the common pattern

The common pattern of a rule set is put together from texts. Here it is written as the list of its
characters, from the characters of the rules' patterns (`RuleSet.toList_combined`), which is the form
that the parser reads it in.
-/

namespace Highlight.RuleSet

/-- The text of one alternative, from the text of its rule. -/
def alternativeText (text : List Char) (index : Nat) : List Char :=
  "(?P<".toList ++ (groupName index).toList ++ '>' :: text ++ [')']

/-- The text of the common pattern, from the texts of the rules. -/
def combinedText (texts : List (List Char)) : List Char :=
  "(?m)".toList ++
    ['|'].intercalate (texts.zipIdx.map fun (text, index) => alternativeText text index)

theorem toList_alternative (rule : Rule) (index : Nat) :
    (alternative rule index).toList = alternativeText rule.pattern.toList index := by
  have hbracket : ">".toList = ['>'] := rfl
  have hparen : ")".toList = [')'] := rfl
  simp only [alternative, alternativeText, String.toList_append, hbracket, hparen, List.append_assoc,
    List.cons_append, List.nil_append]

theorem toList_combined (rules : List Rule) :
    (combined rules).toList = combinedText (rules.map (·.pattern.toList)) := by
  have hbar : "|".toList = ['|'] := rfl
  simp only [combined, combinedText, String.toList_append, String.toList_intercalate, hbar,
    List.zipIdx_map, List.map_map, Function.comp_def, Prod.map, toList_alternative, id]

end Highlight.RuleSet
