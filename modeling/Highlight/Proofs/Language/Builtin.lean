import Highlight.Language.Builtin
import Highlight.Proofs.Language.Combined
import Highlight.Proofs.Language.Reliable
import Highlight.Proofs.Pattern.Properties

/-!
# The languages known by themselves can be built

Every file extension has a language (`Builtin.exists_ofExtension`): the rules of Java, CSS, JSON and
INI are read by evaluation (`Builtin.reads`), and all other files are plain text. None of the rules asks
for a property of characters, so the language is the same whichever are known. It is reliable, and its
labels are short words, none of which contains the end of a line.
-/

namespace Highlight.Builtin

open Pattern

/-- Whether a text, given character by character, is that of a pattern where no property is known. -/
def reads (text : List Char) : Bool :=
  match (Parser.run .none text.length .initial text).bind (·.finish (.ofList text)) with
  | .ok _ => true
  | .error _ => false

/-- A label that stays on its line. -/
def OneLine (label : Label) : Prop := '\n' ∉ label.toList

theorem exists_parse {source : String} {text : List Char} (htext : source.toList = text)
    (h : reads text = true) : ∃ p, ∀ properties, Pattern.parse properties source = .ok p := by
  have hparse : Pattern.parse .none source =
      (Parser.run .none text.length .initial text).bind (·.finish (.ofList text)) := by
    rw [← htext, String.ofList_toList]
    rfl
  rw [reads, ← hparse] at h
  split at h
  · exact ⟨_, fun properties => parse_mono (Properties.none_le properties) (by assumption)⟩
  · cases h

theorem checkRules_eq_ok {properties : Properties} {language : String} {rules : List Rule}
    (h : ∀ rule ∈ rules, rule.label.isEmpty = false ∧ ∃ p, Pattern.parse properties rule.pattern = .ok p) :
    RuleSet.checkRules properties language rules = .ok () := by
  induction rules with
  | nil => rfl
  | cons rule rules ih =>
    obtain ⟨⟨hlabel, p, hp⟩, hrest⟩ := List.forall_mem_cons.1 h
    simp only [RuleSet.checkRules, hlabel, Bool.false_eq_true, if_false, hp]
    exact ih hrest

/-- A rule set can be built if the texts of its rules, and of all of them together, can be read. -/
theorem exists_build {d : RuleSet} {texts : List (List Char)}
    (htexts : d.rules.map (·.pattern.toList) = texts) (hlabels : ∀ rule ∈ d.rules, rule.label.isEmpty = false)
    (hown : ∀ text ∈ texts, reads text = true) (hcombined : reads (RuleSet.combinedText texts) = true) :
    ∃ l, ∀ properties, d.build properties = .ok l := by
  subst htexts
  have hcheck (properties : Properties) : RuleSet.checkRules properties d.name d.rules = .ok () := by
    refine checkRules_eq_ok fun rule hrule => ⟨hlabels rule hrule, ?_⟩
    obtain ⟨p, hp⟩ := exists_parse rfl (hown _ (List.mem_map_of_mem hrule))
    exact ⟨p, hp properties⟩
  obtain ⟨p, hp⟩ := exists_parse (RuleSet.toList_combined d.rules) hcombined
  have hcommon : ∃ common, ∀ properties, RuleSet.commonPattern properties d.name d.rules = .ok common := by
    unfold RuleSet.commonPattern
    split
    · exact ⟨_, fun _ => rfl⟩
    · exact ⟨some p, fun properties => by rw [hp]⟩
  obtain ⟨common, hcommon⟩ := hcommon
  exact ⟨_, fun properties => by rw [RuleSet.build, hcheck, hcommon]; rfl⟩

/-! ## The rules -/

/-- The texts of the rules of Java, with the words not yet joined. -/
def javaTexts : List (List Char) :=
  (java.rules.map (·.pattern.toList)).set 3
    ("\\b(?:".toList ++ ['|'].intercalate (javaKeywords.map String.toList) ++ ")\\b".toList)

theorem map_toList_java : java.rules.map (·.pattern.toList) = javaTexts := by
  have hbar : "|".toList = ['|'] := rfl
  have hwords : ("\\b(?:" ++ "|".intercalate javaKeywords ++ ")\\b").toList =
      "\\b(?:".toList ++ ['|'].intercalate (javaKeywords.map String.toList) ++ ")\\b".toList := by
    simp only [String.toList_append, String.toList_intercalate, hbar]
  simp only [javaTexts, java, List.map_cons, List.map_nil, List.set_cons_succ, List.set_cons_zero,
    hwords]

theorem reads_java : (∀ text ∈ javaTexts, reads text = true) ∧
    reads (RuleSet.combinedText javaTexts) = true := by
  decide +kernel

theorem reads_json : (∀ text ∈ json.rules.map (·.pattern.toList), reads text = true) ∧
    reads (RuleSet.combinedText (json.rules.map (·.pattern.toList))) = true := by
  decide +kernel

theorem reads_ini : (∀ text ∈ ini.rules.map (·.pattern.toList), reads text = true) ∧
    reads (RuleSet.combinedText (ini.rules.map (·.pattern.toList))) = true := by
  decide +kernel

/-- What is needed of a rule set that is known by itself. -/
structure Sound (d : RuleSet) : Prop where
  builds : ∃ l, ∀ properties, d.build properties = .ok l
  labelling : d.labelling = none
  rules : ∀ rule ∈ d.rules, OneLine rule.label
  contributors : ∀ c ∈ d.contributors, c.Reliable OneLine

theorem sound_java : Sound java where
  builds := exists_build map_toList_java (by decide) reads_java.1 reads_java.2
  labelling := rfl
  rules := by unfold OneLine; decide
  contributors := by
    refine List.forall_mem_cons.2 ⟨?_, List.forall_mem_singleton.2 ?_⟩
    · exact Contributor.reliable_caretOccurrences (by unfold OneLine; decide)
    · exact Contributor.reliable_bracketMatch (by unfold OneLine; decide)

theorem sound_json : Sound json where
  builds := exists_build rfl (by decide) reads_json.1 reads_json.2
  labelling := rfl
  rules := by unfold OneLine; decide
  contributors := List.forall_mem_singleton.2
    (Contributor.reliable_bracketMatch (by unfold OneLine; decide))

theorem sound_ini : Sound ini where
  builds := exists_build rfl (by decide) reads_ini.1 reads_ini.2
  labelling := rfl
  rules := by unfold OneLine; decide
  contributors := nofun

end Highlight.Builtin
