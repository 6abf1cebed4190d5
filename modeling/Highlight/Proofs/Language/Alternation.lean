import Highlight.Proofs.Language.Combined
import Highlight.Proofs.Language.Reliable
import Highlight.Proofs.Pattern.Grouped

/-!
# The common pattern is the alternation of the rules

The common pattern is put together as a text, from texts that were read one by one. If all of them are
plain, that is, no blanks or comments are left out in any, then it is the alternation of the rules
(`RuleSet.Alternation`): the reader goes through the text of each rule as it does behind `(?m)`, in a group
of its own (`RuleSet.run_alternatives`). So the common pattern matches where some rule does, and as the first
such rule does (`RuleSet.build_alternates`), whatever properties of characters are known. Where comments count
this may fail: one at the end of a rule goes on behind the rule and takes the beginning of the next one with it
(`RuleSet.build_loses_rule`).
-/

namespace Highlight.RuleSet

open Pattern

variable {properties : Properties}

/-! ## Reading the alternatives -/

theorem gt_not_mem_groupName (index : Nat) : '>' ∉ (groupName index).toList := by
  have htext : (groupName index).toList = "__rule".toList ++ Nat.toDigits 10 index := by
    have hname : groupName index = "__rule" ++ Nat.repr index := rfl
    rw [hname, String.toList_append, Nat.repr]
    exact congrArg _ String.toList_ofList
  rw [htext, List.mem_append, not_or]
  refine ⟨by decide, fun hdigit => ?_⟩
  have := Nat.isDigit_of_mem_toDigits (by decide) (by decide) hdigit
  revert this
  decide

/-- The text of some alternatives, the first of which has the number `index`. -/
def alternativesText (rules : List Rule) (index : Nat) : List Char :=
  ['|'].intercalate ((rules.zipIdx index).map fun x => alternativeText x.1.pattern.toList x.2)

theorem alternativesText_singleton (rule : Rule) (index : Nat) :
    alternativesText [rule] index =
      '(' :: '?' :: 'P' :: '<' :: ((groupName index).toList ++ '>' :: (rule.pattern.toList ++ ')' :: [])) := by
  simp [alternativesText, alternativeText]

theorem alternativesText_cons (rule rule' : Rule) (rules : List Rule) (index : Nat) :
    alternativesText (rule :: rule' :: rules) index =
      '(' :: '?' :: 'P' :: '<' :: ((groupName index).toList ++ '>' :: (rule.pattern.toList ++ ')' ::
        ('|' :: alternativesText (rule' :: rules) (index + 1)))) := by
  simp [alternativesText, alternativeText]

theorem combinedText_eq (rules : List Rule) :
    combinedText (rules.map (·.pattern.toList)) =
      '(' :: '?' :: 'm' :: ')' :: alternativesText rules 0 := by
  simp only [combinedText, alternativesText, List.zipIdx_map, List.map_map]
  rfl

/-- The rule can be read by itself, and no blanks or comments are left out then. -/
structure Plain (properties : Properties) (rule : Rule) : Prop where
  reads : ∃ p, Pattern.parse properties rule.pattern = .ok p
  plain : readsPlainly properties rule.pattern

/-- What was read before some alternatives is nothing, or at most the item of some flags. -/
def Fresh (b : Branches) : Prop := b.items = [] ∨ b.items = [.flat .empty]

theorem Fresh.next_finished {b : Branches} (h : Fresh b) (k : Nat) (e : Expr) (height : Nat) :
    (b.add ⟨.grouped k e, height⟩).next.finished.map (·.expr) = .grouped k e :: b.finished.map (·.expr) := by
  obtain h | h := h
  · simp only [Branches.next, Branches.add, h]
    rfl
  · have hsimplified : ∀ p ∈ [Piece.mk (.grouped k e) height], p.expr.Simplified :=
      List.forall_mem_singleton.2 trivial
    simp only [Branches.next, Branches.add, h, List.reverse_cons, List.reverse_nil, List.nil_append,
      List.singleton_append, List.map_cons, Piece.expr_sequence_cons hsimplified]
    rfl

/-- What the reader of some alternatives has read: a group for each rule. -/
structure ReadsRules (properties : Properties) (rules : List Rule) (index : Nat) (b : Branches) (k : Nat)
    (q : Parser) (groups : List (Nat × Expr)) : Prop where
  own : List.Forall₂ (fun rule g => Parser.ReadsLined properties rule.pattern.toList g.2) rules groups
  ascending : groups.Pairwise (·.1 < ·.1)
  above : ∀ g ∈ groups, k < g.1
  names : ∀ x ∈ groups.zipIdx index, (groupName x.2, x.1.1) ∈ q.names
  closed : q.groups = []
  finished : q.branches.next.finished.map (·.expr) =
    (groups.map fun g => .grouped g.1 g.2).reverse ++ b.finished.map (·.expr)

theorem run_alternatives {rules : List Rule} (hne : rules ≠ [])
    (hplain : ∀ rule ∈ rules, Plain properties rule) :
    ∀ {index : Nat} {b : Branches} {k m : Nat} {names : List (String × Nat)} {q : Parser},
      Fresh b → (alternativesText rules index).length ≤ m →
      Parser.run properties m (.lined b k names) (alternativesText rules index) = .ok q →
      ∃ groups, ReadsRules properties rules index b k q groups := by
  induction rules with
  | nil => exact absurd rfl hne
  | cons rule rules ih =>
    intro index b k m names q hfresh hm hrun
    obtain ⟨⟨⟨alone, halone⟩, hrule⟩, hothers⟩ := List.forall_mem_cons.1 hplain
    cases rules with
    | nil =>
      rw [alternativesText_singleton] at hm hrun
      obtain ⟨e, height, k', names', m', hreads, hk, hname, hm', hrun'⟩ :=
        Parser.run_group (gt_not_mem_groupName index) halone hrule hm hrun
      cases Parser.run_nil.symm.trans hrun'
      rw [String.ofList_toList] at hname
      exact ⟨[(k + 1, e)], .cons hreads .nil, List.pairwise_singleton _ _,
        List.forall_mem_singleton.2 (Nat.lt_succ_self k), List.forall_mem_singleton.2 hname, rfl,
        hfresh.next_finished ..⟩
    | cons rule' rules =>
      rw [alternativesText_cons] at hm hrun
      obtain ⟨e, height, k', names', m₁, hreads, hk, hname, hm₁, hrun₁⟩ :=
        Parser.run_group (gt_not_mem_groupName index) halone hrule hm hrun
      obtain ⟨m₂, hm₂, hrun₂⟩ := Parser.run_bar hm₁ hrun₁
      obtain ⟨groups, hgroups⟩ := ih (List.cons_ne_nil _ _) hothers (.inl rfl) hm₂ hrun₂
      have hname' := (Parser.names_run hrun₂).1 hname
      rw [String.ofList_toList] at hname'
      refine ⟨(k + 1, e) :: groups, .cons hreads hgroups.own, List.pairwise_cons.2 ⟨fun g hg => ?_,
        hgroups.ascending⟩, List.forall_mem_cons.2 ⟨Nat.lt_succ_self k, fun g hg => ?_⟩,
        List.forall_mem_cons.2 ⟨hname', hgroups.names⟩, hgroups.closed, ?_⟩
      · exact Nat.lt_of_le_of_lt hk (hgroups.above g hg)
      · exact Nat.lt_trans hk (hgroups.above g hg)
      · rw [hgroups.finished, hfresh.next_finished]
        simp only [List.map_cons, List.reverse_cons, List.append_assoc, List.singleton_append]

/-! ## The common pattern -/

/-- The pattern is the alternation of the rules: each one's own pattern, with `^` and `$` holding at the ends
of lines, in a group of its own that is named for the rule, and the groups in order. -/
structure Alternation (properties : Properties) (rules : List Rule) (p : Pattern)
    (groups : List (Nat × Pattern)) : Prop where
  own : List.Forall₂ (fun rule g => Pattern.parse properties ("(?m)" ++ rule.pattern) = .ok g.2) rules groups
  expr : p.expr = .ofBranches (groups.map fun g => .grouped g.1 g.2.expr)
  ascending : groups.Pairwise (·.1 < ·.1)
  names : ∀ x ∈ groups.zipIdx, p.groupNames.lookup (groupName x.2) = some x.1.1

theorem lookup_of_mem {names : List (String × Nat)} (h : (names.map (·.1)).Nodup) {x : String × Nat}
    (hx : x ∈ names) : names.lookup x.1 = some x.2 := by
  induction names with
  | nil => cases hx
  | cons y names ih =>
    obtain ⟨hy, hnames⟩ := List.nodup_cons.1 h
    cases hx with
    | head => exact List.lookup_cons_self
    | tail _ hx =>
      have hne : (x.1 == y.1) = false :=
        beq_eq_false_iff_ne.2 fun heq => hy (List.mem_map.2 ⟨x, hx, heq⟩)
      rw [List.lookup_cons, hne]
      exact ih hnames hx

theorem exists_own {rules : List Rule} {groups : List (Nat × Expr)}
    (h : List.Forall₂ (fun rule g => Parser.ReadsLined properties rule.pattern.toList g.2) rules groups)
    (hsize : ∀ g ∈ groups, g.2.footprint ≤ footprintLimit) :
    ∃ owns : List (Nat × Pattern),
      List.Forall₂ (fun rule g => Pattern.parse properties ("(?m)" ++ rule.pattern) = .ok g.2) rules owns ∧
        owns.map (fun g => (g.1, g.2.expr)) = groups := by
  induction h with
  | nil => exact ⟨[], .nil, rfl⟩
  | @cons rule g rules groups hreads hothers ih =>
    obtain ⟨hg, hgroups⟩ := List.forall_mem_cons.1 hsize
    obtain ⟨own, hparse, hexpr⟩ := hreads.parse hg
    obtain ⟨owns, howns, hsame⟩ := ih hgroups
    exact ⟨(g.1, own) :: owns, .cons hparse howns, by rw [List.map_cons, hexpr, hsame]⟩

theorem alternation_of_parse {rules : List Rule} (hne : rules ≠ [])
    (hplain : ∀ rule ∈ rules, Plain properties rule) {p : Pattern}
    (h : Pattern.parse properties (combined rules) = .ok p) :
    ∃ groups, Alternation properties rules p groups := by
  obtain ⟨q, hrun, hfinish⟩ := bind_eq_ok.1 h
  rw [toList_combined, combinedText_eq] at hrun
  have hrun' : Parser.run properties ((alternativesText rules 0).length + 3)
      (.lined Branches.empty.addNothing 0 []) (alternativesText rules 0) = .ok q := by
    obtain ⟨q', rest, hstep, hrun⟩ := (Parser.run_cons_eq_ok (p := .initial) rfl).1 hrun
    cases hstep
    exact hrun
  obtain ⟨groups, hgroups⟩ := run_alternatives hne hplain (.inr rfl) (Nat.le_add_right _ 3) hrun'
  have hnames := (Parser.names_run hrun').2 List.nodup_nil
  have hne' : groups ≠ [] := by
    rintro rfl
    exact hne (List.forall₂_nil_right_iff.1 hgroups.own)
  have hexpr : q.branches.piece.expr = .ofBranches (groups.map fun g => .grouped g.1 g.2) := by
    refine Piece.expr_choice_grouped hne' ?_
    rw [List.map_reverse, hgroups.finished]
    simp only [List.reverse_append, List.reverse_reverse]
    rfl
  obtain ⟨-, -, hsize, rfl⟩ := Parser.finish_eq_ok.1 hfinish
  obtain ⟨owns, hown, rfl⟩ := exists_own hgroups.own fun g hg =>
    Nat.le_trans (Expr.footprint_le_ofBranches hg) (hexpr ▸ hsize)
  have hascending := hgroups.ascending
  rw [List.pairwise_map] at hascending
  refine ⟨owns, hown, ?_, hascending, fun x hx => ?_⟩
  · rw [hexpr, List.map_map]
    rfl
  · have hmem : (groupName x.2, x.1.1) ∈ q.names.reverse := by
      refine List.mem_reverse.2 (hgroups.names ((x.1.1, x.1.2.expr), x.2) ?_)
      rw [List.zipIdx_map]
      exact List.mem_map_of_mem hx
    refine lookup_of_mem ?_ hmem
    rwa [List.map_reverse, List.nodup_reverse]

namespace Alternation

variable {rules : List Rule} {p : Pattern} {groups : List (Nat × Pattern)}
  (h : Alternation properties rules p groups)

include h

theorem groups_ne_nil (hne : rules ≠ []) : groups ≠ [] := by
  rintro rfl
  exact hne (List.forall₂_nil_right_iff.1 h.own)

/-- At a position the match of the common pattern is that of the first rule that has one there. -/
theorem matchAt_eq (hne : rules ≠ []) (c : Cursor) :
    p.matchAt c = groups.findSome? fun g => (g.2.matchAt c).map (.inGroup g.1) := by
  have hprogram : p.expr.program.toList = [] ++
      ((Expr.ofBranches ((groups.map fun g => (g.1, g.2.expr)).map fun g => .grouped g.1 g.2)).code ++
        [.accept]) := by
    rw [h.expr, List.map_map]
    rfl
  have hfirst := Program.attempt_ofBranches (groups.map fun g => (g.1, g.2.expr))
    (mt List.map_eq_nil_iff.1 (h.groups_ne_nil hne)) hprogram c
  rw [List.findSome?_map] at hfirst
  simp only [Pattern.matchAt_eq]
  exact hfirst

/-- The common pattern matches where some rule's own pattern does. -/
theorem isSome_matchAt (hne : rules ≠ []) (c : Cursor) :
    (p.matchAt c).isSome ↔ ∃ g ∈ groups, (g.2.matchAt c).isSome := by
  rw [h.matchAt_eq hne, List.findSome?_isSome_iff]
  simp only [Option.isSome_map]

end Alternation

theorem reads_of_checkRules {language : String} {rules : List Rule}
    (h : checkRules properties language rules = .ok ()) :
    ∀ rule ∈ rules, ∃ p, Pattern.parse properties rule.pattern = .ok p := by
  induction rules with
  | nil => exact List.forall_mem_nil _
  | cons rule rules ih =>
    rw [checkRules] at h
    split at h
    · cases h
    · split at h
      · cases h
      · exact List.forall_mem_cons.2 ⟨⟨_, by assumption⟩, ih h⟩

/-- A rule set that can be built has a common pattern, which is the alternation of the rules. -/
theorem exists_alternation {d : RuleSet} {l : Language} (hbuild : d.build properties = .ok l)
    (hne : d.rules ≠ []) (hplain : ∀ rule ∈ d.rules, readsPlainly properties rule.pattern) :
    ∃ p groups, l.pattern = some p ∧ Alternation properties d.rules p groups := by
  have hreads : ∀ rule ∈ d.rules, ∃ p, Pattern.parse properties rule.pattern = .ok p := by
    unfold build at hbuild
    cases hcheck : checkRules properties d.name d.rules with
    | error e => rw [hcheck] at hbuild; cases hbuild
    | ok checked => exact reads_of_checkRules hcheck
  obtain ⟨hcommon, -⟩ := fields_of_build hbuild
  unfold commonPattern at hcommon
  rw [if_neg (mt List.isEmpty_iff.1 hne)] at hcommon
  split at hcommon
  · cases hcommon
  · rename_i p hparse
    obtain ⟨groups, hgroups⟩ :=
      alternation_of_parse hne (fun rule hrule => ⟨hreads rule hrule, hplain rule hrule⟩) hparse
    exact ⟨p, groups, (Except.ok.inj hcommon).symm, hgroups⟩

/-- The common pattern is the alternation of the rules: at every position it matches if and only if some
rule's own pattern does, and then it is the first such rule whose match it finds. -/
theorem build_alternates {d : RuleSet} {l : Language} (hbuild : d.build properties = .ok l)
    (hne : d.rules ≠ []) (hplain : ∀ rule ∈ d.rules, readsPlainly properties rule.pattern) :
    ∃ p groups, l.pattern = some p ∧ Alternation properties d.rules p groups ∧
      ∀ c, ((p.matchAt c).isSome ↔ ∃ g ∈ groups, (g.2.matchAt c).isSome) ∧
        p.matchAt c = groups.findSome? fun g => (g.2.matchAt c).map (.inGroup g.1) := by
  obtain ⟨p, groups, hp, hgroups⟩ := exists_alternation hbuild hne hplain
  exact ⟨p, groups, hp, hgroups, fun c => ⟨hgroups.isSome_matchAt hne c, hgroups.matchAt_eq hne c⟩⟩

/-- The language of a rule set that is found, by evaluation, to have a pattern of some kind. -/
theorem exists_of_any_pattern {d : RuleSet} {P : Pattern → Bool}
    (h : ((d.build properties).toOption.bind (·.pattern)).any P) :
    ∃ l p, d.build properties = .ok l ∧ l.pattern = some p ∧ P p := by
  cases hl : d.build properties with
  | error e => rw [hl] at h; cases h
  | ok l =>
    rw [hl] at h
    cases hp : l.pattern with
    | none =>
      simp only [Except.toOption, Option.bind_some, hp] at h
      cases h
    | some p =>
      simp only [Except.toOption, Option.bind_some, hp] at h
      exact ⟨l, p, rfl, hp, h⟩

/-- A group within the first rule takes a number, and the groups of the other rules are still found. The
first rule asks for a property of characters, and the second one reads bytes and the end of a line that is
marked by a carriage return. -/
theorem build_alternates_inner_group :
    let properties : Properties := fun name => if name = "Nd" then some Unicode.decimalDigits else none
    let d : RuleSet :=
      { name := "code"
        rules := [⟨"word", "(?P<first>[a-z])[a-z\\p\x7BNd\x7D]*"⟩, ⟨"number", "^(?-u:\\d+)(?R)$"⟩] }
    ∃ l p groups, d.build properties = .ok l ∧
      (∀ rule ∈ d.rules, readsPlainly properties rule.pattern) ∧ l.pattern = some p ∧
      Alternation properties d.rules p groups ∧ p.groupNames.lookup (groupName 1) = some 3 ∧
      (p.matchAt ⟨2, some '\n', "42\r\n".toList⟩).isSome := by
  intro properties d
  have hplain : ∀ rule ∈ d.rules, readsPlainly properties rule.pattern := by decide +kernel
  have hread : ((d.build properties).toOption.bind (·.pattern)).any fun p =>
      p.groupNames.lookup (groupName 1) = some 3 ∧
        (p.matchAt ⟨2, some '\n', "42\r\n".toList⟩).isSome := by
    decide +kernel
  obtain ⟨l, p, hl, hp, hread⟩ := exists_of_any_pattern hread
  obtain ⟨p', groups, hp', hgroups, -⟩ := build_alternates hl (List.cons_ne_nil _ _) hplain
  cases hp.symm.trans hp'
  exact ⟨l, p, groups, hl, hplain, hp, hgroups, of_decide_eq_true hread⟩

/-- The comment at the end of the first rule goes on behind it, up to the end of the line in the second one.
So the second rule has no group, and where its own pattern matches the common one does not. -/
theorem build_loses_rule :
    let d : RuleSet := { name := "comment", rules := [⟨"a", "(?x)a #"⟩, ⟨"b", "b\n"⟩] }
    ∃ l p own, d.build .none = .ok l ∧ l.pattern = some p ∧
      Pattern.parse .none ("(?m)" ++ "b\n") = .ok own ∧ p.groupNames.lookup (groupName 1) = none ∧
      (own.matchAt (.start "b\n".toList)).isSome ∧ p.matchAt (.start "b\n".toList) = none := by
  intro d
  have hlost : ((d.build .none).toOption.bind (·.pattern)).any fun p =>
      p.groupNames.lookup (groupName 1) = none ∧ p.matchAt (.start "b\n".toList) = none := by
    decide +kernel
  obtain ⟨l, p, hl, hp, hlost⟩ := exists_of_any_pattern hlost
  have hown : (Pattern.parse .none ("(?m)" ++ "b\n")).toOption.any fun own =>
      (own.matchAt (.start "b\n".toList)).isSome := by
    decide +kernel
  cases ho : Pattern.parse .none ("(?m)" ++ "b\n") with
  | error e => rw [ho] at hown; cases hown
  | ok own =>
    rw [ho] at hown
    exact ⟨l, p, own, hl, hp, rfl, (of_decide_eq_true hlost).1, hown, (of_decide_eq_true hlost).2⟩

end Highlight.RuleSet
