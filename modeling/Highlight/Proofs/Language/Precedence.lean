import Highlight.Proofs.Language.Alternation
import Highlight.Proofs.Scan

/-!
# Earlier rules win

What a language built from rules marks in a text is what a tokenizer finds that tries the rules one by one
(`RuleSet.tokens`): at the first position where some rule matches it takes the first rule that does, and
goes on behind its match. The common pattern with its groups is no part of this description. That both
agree (`RuleSet.scan_eq_tokens`) is lifted from single positions to searches and from there to the matches
of a text.
-/

namespace Highlight

namespace Pattern

/-! ## Positions -/

/-- The positions of a text that begins at `offset` behind the character `before`. -/
def positions (offset : Nat) (before : Option Char) : List Char → List Cursor
  | [] => [⟨offset, before, []⟩]
  | c :: rest => ⟨offset, before, c :: rest⟩ :: positions (offset + 1) (some c) rest

/-- The positions from one on. -/
def Cursor.onward (p : Cursor) : List Cursor := positions p.offset p.before p.rest

theorem Cursor.onward_eq (p : Cursor) : p.onward = p :: if p.rest = [] then [] else p.next.onward := by
  obtain ⟨offset, before, rest⟩ := p
  cases rest <;> rfl

theorem Cursor.of_mem_onward {p q : Cursor} (h : q ∈ p.onward) :
    p.offset ≤ q.offset ∧ q.offset + q.rest.length = p.offset + p.rest.length := by
  induction p using Cursor.induction with
  | last p hp =>
    rw [onward_eq, if_pos hp, List.mem_singleton] at h
    exact h ▸ ⟨Nat.le_refl _, rfl⟩
  | step p c rest hp ih =>
    rw [onward_eq, if_neg (hp ▸ List.cons_ne_nil c rest), List.mem_cons] at h
    obtain rfl | h := h
    · exact ⟨Nat.le_refl _, rfl⟩
    · obtain ⟨hle, hend⟩ := ih h
      obtain ⟨hnext, hsame⟩ := Program.offset_next p
      exact ⟨Nat.le_trans hnext hle, hend.trans hsame⟩

theorem within_matchAt {p : Pattern} {c : Cursor} {m : Match} (h : p.matchAt c = some m) :
    m.Within c.offset (c.offset + c.rest.length) :=
  Program.within_search (Option.filter_eq_some_iff.1 h).1

namespace Match.Within

variable {p : Cursor} {m : Match} (h : m.Within p.offset (p.offset + p.rest.length))

include h

/-- Less text is left behind a match of some text. -/
theorem length_rest_lt (hne : ¬ m.isEmpty = true) : m.stop.rest.length < p.rest.length := by
  obtain ⟨hlow, hstart, hends⟩ := h
  have hoffset : m.start.offset ≠ m.stop.offset := fun heq => hne (beq_iff_eq.2 heq)
  omega

/-- Less text is left one character behind a match. -/
theorem length_rest_next_lt (hne : m.stop.rest ≠ []) : m.stop.next.rest.length < p.rest.length := by
  obtain ⟨hlow, hstart, hends⟩ := h
  obtain ⟨start, ⟨offset, before, rest⟩, captures⟩ := m
  cases rest with
  | nil => exact absurd rfl hne
  | cons c rest =>
    simp only [Cursor.next, List.length_cons] at hlow hstart hends ⊢
    omega

/-- At the end of a text only the empty text is left to match. -/
theorem isEmpty_of_end (hp : p.rest = []) : m.isEmpty = true ∧ m.stop.rest = [] := by
  obtain ⟨hlow, hstart, hends⟩ := h
  rw [hp, List.length_nil] at hends
  exact ⟨beq_iff_eq.2 (by omega), List.length_eq_zero_iff.1 (by omega)⟩

end Match.Within

end Pattern

namespace RuleSet

open Pattern

/-! ## The rules one by one -/

/-- The first rule that matches at a position, with its match there. -/
def firstRule? (rules : List (Rule × Pattern)) (p : Cursor) : Option (Rule × Match) :=
  rules.findSome? fun rule => (rule.2.matchAt p).map (rule.1, ·)

/-- The first rule that matches at the first position from `p` on where one does. -/
def nextRule? (rules : List (Rule × Pattern)) (p : Cursor) : Option (Rule × Match) :=
  p.onward.findSome? (firstRule? rules)

/-- Either a rule matches here, or the search goes one character further. -/
theorem nextRule?_eq (rules : List (Rule × Pattern)) (p : Cursor) :
    nextRule? rules p =
      (firstRule? rules p).or (if p.rest = [] then none else nextRule? rules p.next) := by
  rw [nextRule?, Cursor.onward_eq, List.findSome?_cons]
  cases firstRule? rules p with
  | some found => rfl
  | none =>
    by_cases hp : p.rest = []
    · rw [if_pos hp, if_pos hp]
      rfl
    · rw [if_neg hp, if_neg hp]
      rfl

theorem within_nextRule? {rules : List (Rule × Pattern)} {p : Cursor} {found : Rule × Match}
    (h : nextRule? rules p = some found) : found.2.Within p.offset (p.offset + p.rest.length) := by
  obtain ⟨q, hq, hfirst⟩ := List.exists_of_findSome?_eq_some h
  obtain ⟨rule, hrule, hmatch⟩ := List.exists_of_findSome?_eq_some hfirst
  obtain ⟨m, hm, rfl⟩ := Option.map_eq_some_iff.1 hmatch
  obtain ⟨hle, hend⟩ := Cursor.of_mem_onward hq
  obtain ⟨hlow, hstart, hends⟩ := within_matchAt hm
  exact ⟨Nat.le_trans hle hlow, hstart, hends.trans hend⟩

/-- What the rules find from a position on, one match behind the other. A match of no text is passed over,
and the search goes on one character further. -/
def tokens (rules : List (Rule × Pattern)) (p : Cursor) : List (Rule × Match) :=
  match _ : nextRule? rules p with
  | none => []
  | some found =>
    if found.2.isEmpty then
      if found.2.stop.rest = [] then [] else tokens rules found.2.stop.next
    else found :: tokens rules found.2.stop
termination_by p.rest.length
decreasing_by
  · exact (within_nextRule? (by assumption)).length_rest_next_lt (by assumption)
  · exact (within_nextRule? (by assumption)).length_rest_lt (by assumption)

/-! ## The groups of the common pattern -/

/-- A match of a rule and a match of the common pattern that reads the same text and gets the rule's
label. -/
structure Agrees (labelling : Labelling) (p : Pattern) (found : Rule × Match) (m : Match) : Prop where
  start : m.start = found.2.start
  stop : m.stop = found.2.stop
  label : labelling p m = .ok (some found.1.label)

theorem capture?_inGroup_self (k : Nat) (m : Match) : ((m.inGroup k).capture? k).isSome := by
  rw [Match.capture?, Match.inGroup, List.find?_isSome]
  exact ⟨_, List.mem_cons_self, beq_self_eq_true k⟩

/-- No group that began before took part. -/
theorem capture?_inGroup_of_lt {j k : Nat} (h : j < k) (m : Match) : (m.inGroup k).capture? j = none := by
  rw [Match.capture?, Match.inGroup, List.find?_eq_none]
  refine List.forall_mem_cons.2 ⟨fun heq => ?_, fun capture hcapture heq => ?_⟩
  · exact Nat.ne_of_gt h (beq_iff_eq.1 heq)
  · obtain ⟨inner, -, rfl⟩ := List.mem_map.1 hcapture
    have : inner.index + k = j := beq_iff_eq.1 heq
    omega

theorem exists_agrees {p : Pattern} {c : Cursor} {m : Match} :
    ∀ {rules : List Rule} {groups : List (Nat × Pattern)} {index : Nat}, rules.length = groups.length →
      (∀ x ∈ groups.zipIdx index, p.groupNames.lookup (groupName x.2) = some x.1.1) →
      groups.Pairwise (·.1 < ·.1) →
      (groups.findSome? fun g => (g.2.matchAt c).map (.inGroup g.1)) = some m →
      ∃ rule own k i, firstRule? (rules.zip (groups.map (·.2))) c = some (rule, own) ∧
        k ∈ groups.map (·.1) ∧ m = own.inGroup k ∧
        ((rules.zipIdx index).find? fun x => (p.group? m (groupName x.2)).isSome) = some (rule, i) := by
  intro rules groups
  induction groups generalizing rules with
  | nil => intro index _ _ _ h; cases h
  | cons g groups ih =>
    intro index hlength hnames hascending h
    obtain ⟨rule, rules, rfl⟩ := List.exists_cons_of_length_eq_add_one hlength
    obtain ⟨hname, hnames⟩ := List.forall_mem_cons.1 hnames
    obtain ⟨hg, hascending⟩ := List.pairwise_cons.1 hascending
    have hgroup : p.group? m (groupName index) = m.capture? g.1 := by
      rw [group?, hname]
      rfl
    have hfirst : firstRule? ((rule :: rules).zip ((g :: groups).map (·.2))) c =
        ((g.2.matchAt c).map (rule, ·)).or (firstRule? (rules.zip (groups.map (·.2))) c) := by
      rw [firstRule?, List.map_cons, List.zip_cons_cons, List.findSome?_cons]
      cases g.2.matchAt c <;> rfl
    cases hm : g.2.matchAt c with
    | some own =>
      rw [List.findSome?_cons, hm] at h
      obtain rfl : own.inGroup g.1 = m := Option.some.inj h
      refine ⟨rule, own, g.1, index, ?_, List.mem_cons_self, rfl, ?_⟩
      · rw [hfirst, hm]
        rfl
      · rw [List.zipIdx_cons]
        refine List.find?_cons_of_pos ?_
        rw [hgroup]
        exact capture?_inGroup_self g.1 own
    | none =>
      rw [List.findSome?_cons, hm] at h
      obtain ⟨rule', own, k, i, hfirst', hk, rfl, hfind⟩ := ih (Nat.succ.inj hlength) hnames hascending h
      refine ⟨rule', own, k, i, ?_, List.mem_cons_of_mem _ hk, rfl, ?_⟩
      · rw [hfirst, hm]
        exact hfirst'
      · obtain ⟨g', hg', rfl⟩ := List.mem_map.1 hk
        rw [List.zipIdx_cons, List.find?_cons_of_neg, hfind]
        rw [hgroup, capture?_inGroup_of_lt (hg g' hg')]
        exact Bool.false_ne_true

section Agrees

variable {properties : Properties} {rules : List Rule} {p : Pattern} {groups : List (Nat × Pattern)}
  (h : Alternation properties rules p groups) (hne : rules ≠ [])

include h hne

theorem agrees_firstRule? (c : Cursor) :
    Option.Rel (Agrees (ruleLabel rules) p) (firstRule? (rules.zip (groups.map (·.2))) c) (p.matchAt c) := by
  have hmatch := h.matchAt_eq hne c
  cases hm : p.matchAt c with
  | some m =>
    rw [hm] at hmatch
    obtain ⟨rule, own, k, i, hfirst, -, rfl, hfind⟩ :=
      exists_agrees h.own.length_eq h.names h.ascending hmatch.symm
    have hlabel : ruleLabel rules p (own.inGroup k) = .ok ((rules.zipIdx.find? fun x =>
        (p.group? (own.inGroup k) (groupName x.2)).isSome).map (·.1.label)) := rfl
    rw [hfind] at hlabel
    rw [hfirst]
    exact .some ⟨rfl, rfl, hlabel⟩
  | none =>
    rw [hm, eq_comm, List.findSome?_eq_none_iff] at hmatch
    have hfirst : firstRule? (rules.zip (groups.map (·.2))) c = none := by
      refine List.findSome?_eq_none_iff.2 fun x hx => ?_
      obtain ⟨g, hg, hown⟩ := List.mem_map.1 (List.of_mem_zip hx).2
      rw [Option.map_eq_none_iff, ← hown]
      exact Option.map_eq_none_iff.1 (hmatch g hg)
    rw [hfirst]
    exact .none

theorem agrees_nextRule? (c : Cursor) :
    Option.Rel (Agrees (ruleLabel rules) p) (nextRule? (rules.zip (groups.map (·.2))) c) (p.expr.program.search c) := by
  have hor {a a' : Option (Rule × Match)} {b b' : Option Match} (h : Option.Rel (Agrees (ruleLabel rules) p) a b)
      (h' : Option.Rel (Agrees (ruleLabel rules) p) a' b') : Option.Rel (Agrees (ruleLabel rules) p) (a.or a') (b.or b') := by
    cases h with
    | some h => exact .some h
    | none => exact h'
  have hfirst (c : Cursor) := agrees_firstRule? h hne c
  simp only [Pattern.matchAt_eq] at hfirst
  induction c using Cursor.induction with
  | last c hc =>
    rw [nextRule?_eq, Program.search_eq, if_pos hc, if_pos hc]
    exact hor (hfirst c) .none
  | step c char rest hc ih =>
    have hrest : c.rest ≠ [] := hc ▸ List.cons_ne_nil char rest
    rw [nextRule?_eq, Program.search_eq, if_neg hrest, if_neg hrest]
    exact hor (hfirst c) ih

theorem agrees_tokens {limit : Nat} :
    ∀ {c : Cursor}, c.rest.length ≤ limit →
      List.Forall₂ (Agrees (ruleLabel rules) p) (tokens (rules.zip (groups.map (·.2))) c)
        (p.expr.program.searchAll limit c) := by
  induction limit with
  | zero =>
    intro c hlimit
    have hrest : c.rest = [] := List.length_eq_zero_iff.1 (Nat.le_zero.1 hlimit)
    rw [tokens]
    split
    · exact .nil
    · rename_i found hfound
      obtain ⟨hempty, hend⟩ := (within_nextRule? hfound).isEmpty_of_end hrest
      rw [if_pos hempty, if_pos hend]
      exact .nil
  | succ limit ih =>
    intro c hlimit
    have hrel := agrees_nextRule? h hne c
    rw [tokens, Program.searchAll]
    generalize hsearch : p.expr.program.search c = searched at hrel
    split
    · rename_i hfound
      rw [hfound] at hrel
      cases hrel
      exact .nil
    · rename_i found hfound
      rw [hfound] at hrel
      have hwithin := within_nextRule? hfound
      cases hrel with
      | @some _ m hagrees =>
        have hsame : m.isEmpty = found.2.isEmpty := by
          rw [Match.isEmpty, hagrees.start, hagrees.stop, Match.isEmpty]
        simp only [hsame, hagrees.stop, List.isEmpty_iff]
        split
        · split
          · exact .nil
          · rename_i hne
            exact ih (Nat.le_of_lt_succ (Nat.lt_of_lt_of_le (hwithin.length_rest_next_lt hne) hlimit))
        · rename_i hne
          exact .cons hagrees
            (ih (Nat.le_of_lt_succ (Nat.lt_of_lt_of_le (hwithin.length_rest_lt hne) hlimit)))

end Agrees

/-! ## Scanning -/

/-- What a rule found, as a mark. -/
def markOf (found : Rule × Match) : Mark :=
  .labeled found.2.start.offset found.2.stop.offset found.1.label

theorem marksOf_of_agrees {rules : List Rule} {p : Pattern} {found : List (Rule × Match)} {ms : List Match}
    (h : List.Forall₂ (Agrees (ruleLabel rules) p) found ms) :
    marksOf (ruleLabel rules p) ms = .ok (found.map markOf) := by
  induction h with
  | nil => rfl
  | @cons found m _ _ hagrees _ ih =>
    rw [marksOf, hagrees.label, ih]
    show Except.ok (Mark.labeled m.start.offset m.stop.offset found.1.label :: _) = _
    rw [hagrees.start, hagrees.stop]
    rfl

theorem tokens_nil (p : Cursor) : tokens [] p = [] := by
  have hnone : nextRule? [] p = none := List.findSome?_eq_none_iff.2 fun _ _ => rfl
  rw [tokens]
  split
  · rfl
  · rename_i found hfound
    cases hnone.symm.trans hfound

/-- What a language marks in a text is what its rules find one by one, each with a pattern of its own: the
first rule that matches at the first position where one does. Every match of some text is among these and
has the label of the rule that found it. -/
theorem scan_eq_tokens {properties : Properties} {d : RuleSet} {l : Language}
    (hbuild : d.build properties = .ok l) (hlabelling : d.labelling = none)
    (hplain : ∀ rule ∈ d.rules, readsPlainly properties rule.pattern) :
    ∃ own : List (Rule × Pattern),
      own.map (·.1) = d.rules ∧ (∀ x ∈ own, Pattern.parse properties ("(?m)" ++ x.1.pattern) = .ok x.2) ∧
        ∀ text : String, l.scan text = .ok ((tokens own (.start text.toList)).map markOf) ∧
          ∀ p ∈ l.pattern,
            List.Forall₂ (Agrees l.labelling p) (tokens own (.start text.toList)) (p.findAll text) := by
  obtain ⟨hcommon, hlabels, -⟩ := fields_of_build hbuild
  have hlabels : l.labelling = ruleLabel d.rules := by rw [hlabels, hlabelling]; rfl
  by_cases hne : d.rules = []
  · have hnone : l.pattern = none := by
      rw [hne] at hcommon
      exact (Except.ok.inj hcommon).symm
    refine ⟨[], hne.symm, List.forall_mem_nil _, fun text => ⟨?_, ?_⟩⟩
    · rw [Language.scan, hnone, tokens_nil]
      rfl
    · rw [hnone]
      exact nofun
  · obtain ⟨p, groups, hp, hgroups⟩ := exists_alternation hbuild hne hplain
    have htokens (text : String) : List.Forall₂ (Agrees l.labelling p)
        (tokens (d.rules.zip (groups.map (·.2))) (.start text.toList)) (p.findAll text) := by
      rw [hlabels]
      exact agrees_tokens hgroups hne (Nat.le_of_eq String.length_toList)
    refine ⟨d.rules.zip (groups.map (·.2)), ?_, ?_, fun text => ⟨?_, ?_⟩⟩
    · exact List.map_fst_zip (by rw [List.length_map, hgroups.own.length_eq])
    · have hown : List.Forall₂ (fun rule own => Pattern.parse properties ("(?m)" ++ rule.pattern) = .ok own)
          d.rules (groups.map (·.2)) := List.forall₂_map_right_iff.2 hgroups.own
      rintro ⟨rule, own⟩ hx
      exact List.forall₂_zip hown hx
    · rw [Language.scan, hp]
      have hagrees := htokens text
      rw [hlabels] at hagrees ⊢
      exact marksOf_of_agrees hagrees
    · rintro q hq
      cases hp.symm.trans hq
      exact htokens text

/-- Two rules match a whole word, a group stands in the first one, and the last one matches no text. The
first rule asks for a property of characters, and the second one reads bytes and the end of a line that is
marked by a carriage return. -/
theorem scan_eq_tokens_tie :
    let properties : Properties := fun name => if name = "Nd" then some Unicode.decimalDigits else none
    let d : RuleSet :=
      { name := "words"
        rules := [⟨"word", "(?P<first>[a-z])[a-z\\p\x7BNd\x7D]*"⟩, ⟨"code", "(?R)(?-u:\\w)+$"⟩, ⟨"none", "x*?"⟩] }
    ∃ l own, d.build properties = .ok l ∧ d.labelling.isNone ∧
      (∀ rule ∈ d.rules, readsPlainly properties rule.pattern) ∧ own.map (·.1) = d.rules ∧
      (tokens own (.start "ab1 2b\r\n".toList)).map markOf = [.labeled 0 3 "word", .labeled 4 6 "code"] ∧
      l.scan "ab1 2b\r\n" = .ok [.labeled 0 3 "word", .labeled 4 6 "code"] := by
  intro properties d
  have hplain : ∀ rule ∈ d.rules, readsPlainly properties rule.pattern := by decide +kernel
  have hread : (d.build properties).toOption.bind (fun l => (l.scan "ab1 2b\r\n").toOption) =
      some [.labeled 0 3 "word", .labeled 4 6 "code"] := by
    decide +kernel
  cases hl : d.build properties with
  | error e => rw [hl] at hread; cases hread
  | ok l =>
    obtain ⟨own, hrules, -, hscan⟩ := scan_eq_tokens hl rfl hplain
    obtain ⟨hmarks, -⟩ := hscan "ab1 2b\r\n"
    rw [hl] at hread
    simp only [Except.toOption, Option.bind_some, hmarks] at hread
    have htokens := Option.some.inj hread
    exact ⟨l, own, rfl, rfl, hplain, hrules, htokens, by rw [hmarks, htokens]⟩

end RuleSet

end Highlight
