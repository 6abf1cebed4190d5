import Highlight.Proofs.Language.Precedence
import Highlight.Proofs.Pattern.Laws

/-!
# Languages scan from left to right

What a language built from rules marks in a text is what a scan finds that takes, at every position, the
preferred reading of the first rule that reads anything there (`RuleSet.exists_scans`). All of it is given
by the expressions of the rules, which are found by evaluation (`RuleSet.exprOf?`), so nothing is left of
groups, searches and numbers of matches. The rules ask for no property of characters, so none need be known.
-/

namespace Highlight

open Pattern

/-- A piece found with a label, as a mark. -/
def Pattern.Hit.mark (h : Hit Label) : Mark := .labeled h.start h.stop h.what

theorem Pattern.Hit.mark_injective : Function.Injective Hit.mark := by
  rintro ⟨what, start, stop⟩ ⟨what', start', stop'⟩ h
  simp only [Hit.mark, Mark.labeled, Labels.single, Mark.mk.injEq, Labels.mk.injEq, List.cons.injEq, and_true] at h
  obtain ⟨rfl, rfl, rfl⟩ := h
  rfl

namespace RuleSet

/-- What the first of some expressions reads that reads anything at a position, with its label. -/
def firstReading? (exprs : List (Label × Expr)) (p : Cursor) : Option (Label × Cursor) :=
  exprs.findSome? fun x => (x.2.readings p).head?.map (x.1, ·)

/-- Whether an expression reads some text, and no loop of it may go round without reading. -/
def sure (e : Expr) : Bool := e.Productive && e.alwaysReads

theorem forward_firstReading? {exprs : List (Label × Expr)} (h : ∀ x ∈ exprs, sure x.2) :
    Forward (firstReading? exprs) := by
  intro p label q hq
  obtain ⟨x, hx, hread⟩ := List.exists_of_findSome?_eq_some hq
  obtain ⟨r, hr, heq⟩ := Option.map_eq_some_iff.1 hread
  cases heq
  exact Expr.exists_skip_of_leads (Bool.and_eq_true_iff.1 (h x hx)).2 hr

/-- What is read with a label is read by an expression that has the label. -/
theorem exists_leads_of_firstReading? {exprs : List (Label × Expr)} {p q : Cursor} {label : Label}
    (h : firstReading? exprs p = some (label, q)) : ∃ e, (label, e) ∈ exprs ∧ e.Leads p q := by
  obtain ⟨⟨label, e⟩, hx, hread⟩ := List.exists_of_findSome?_eq_some h
  obtain ⟨r, hr, heq⟩ := Option.map_eq_some_iff.1 hread
  cases heq
  exact ⟨e, hx, hr⟩

/-- What was found was read with the label of its expression. -/
theorem exists_leads_of_mem {exprs : List (Label × Expr)} (hsure : ∀ x ∈ exprs, sure x.2) {text : List Char}
    {hits : List (Hit Label)} (h : Scans (firstReading? exprs) (.start text) hits) {y : Hit Label} (hy : y ∈ hits) :
    ∃ n e, y.start + n ≤ text.length ∧ y.stop = y.start + n ∧ (y.what, e) ∈ exprs ∧
      e.Leads ((Cursor.start text).skip y.start) ((Cursor.start text).skip (y.start + n)) := by
  obtain ⟨n, hn, hstop, hfind⟩ := h.exists_find_start (forward_firstReading? hsure) hy
  obtain ⟨e, he, hleads⟩ := exists_leads_of_firstReading? hfind
  exact ⟨n, e, hn, hstop, he, hleads⟩

section FirstReading

variable {exprs : List (Label × Expr)} {p q : Cursor} {label : Label} {e : Expr}

theorem firstReading?_cons : firstReading? ((label, e) :: exprs) p =
    ((e.readings p).head?.map (label, ·)).or (firstReading? exprs p) := by
  rw [firstReading?, List.findSome?_cons]
  cases (e.readings p).head? <;> rfl

theorem firstReading?_cons_of_leads (h : e.Leads p q) :
    firstReading? ((label, e) :: exprs) p = some (label, q) := by
  rw [Expr.Leads] at h
  rw [firstReading?_cons, h]
  rfl

theorem firstReading?_cons_of_nil (h : e.readings p = []) :
    firstReading? ((label, e) :: exprs) p = firstReading? exprs p := by
  rw [firstReading?_cons, h]
  rfl

end FirstReading

/-! ## The expressions of rules -/

/-- The expression of the pattern with a text, given character by character, with `^` and `$` holding at the
ends of lines and no property known. -/
def exprOf? (text : List Char) : Option Expr :=
  let text := "(?m)".toList ++ text
  (Parser.run .none text.length .initial text).toOption.map (·.branches.piece.expr)

theorem exprOf?_of_parse {source : String} {p : Pattern} (h : Pattern.parse .none ("(?m)" ++ source) = .ok p) :
    exprOf? source.toList = some p.expr := by
  obtain ⟨q, hrun, hfinish⟩ := bind_eq_ok.1 h
  rw [String.toList_append] at hrun
  obtain ⟨-, -, -, rfl⟩ := Parser.finish_eq_ok.1 hfinish
  rw [exprOf?, hrun]
  rfl

/-- What the rules find one by one is what a scan finds that takes the preferred readings of their
expressions. -/
theorem scans_tokens {own : List (Rule × Pattern)} (h : ∀ x ∈ own, sure x.2.expr) (c : Cursor) :
    Scans (firstReading? (own.map fun x => (x.1.label, x.2.expr))) c
      ((tokens own c).map fun x => ⟨x.1.label, x.2.start.offset, x.2.stop.offset⟩) := by
  let found (x : Rule × Match) : Cursor × Label × Cursor := (x.2.start, x.1.label, x.2.stop)
  have hsure : ∀ x ∈ own.map fun x => (x.1.label, x.2.expr), sure x.2 := List.forall_mem_map.2 h
  have hfirst (p : Cursor) : (firstRule? own p).map found =
      (firstReading? (own.map fun x => (x.1.label, x.2.expr)) p).map (p, ·) := by
    rw [firstRule?, firstReading?, List.findSome?_map, List.map_findSome?, List.map_findSome?]
    refine List.findSome?_congr fun x hx => ?_
    have hstop := stop_matchAt (Bool.and_eq_true_iff.1 (h x hx)).1 p
    simp only [Function.comp_apply, ← hstop]
    cases hm : x.2.matchAt p with
    | none => rfl
    | some m =>
      have hstart : m.start = p := of_decide_eq_true (Option.filter_eq_some_iff.1 hm).2
      simp [found, hstart]
  have hsearch (p : Cursor) : (nextRule? own p).map found =
      ((firstReading? (own.map fun x => (x.1.label, x.2.expr)) p).map (p, ·)).or
        (if p.rest = [] then none else (nextRule? own p.next).map found) := by
    rw [nextRule?_eq, ← hfirst]
    cases firstRule? own p with
    | some x => rfl
    | none => by_cases hp : p.rest = [] <;> simp [hp]
  have hlt {c : Cursor} {x : Rule × Match} (hx : nextRule? own c = some x) :
      x.2.start.offset < x.2.stop.offset ∧ x.2.stop.rest.length < c.rest.length :=
    (forward_firstReading? hsure).lt_of_search hsearch (p := c) (by rw [hx]; rfl)
  have htokens (c : Cursor) :
      tokens own c = (nextRule? own c).elim [] fun x => x :: tokens own x.2.stop := by
    rw [tokens]
    split
    · rename_i hnone
      rw [hnone]
      rfl
    · rename_i x hx
      have hne : x.2.isEmpty = false := beq_eq_false_iff_ne.2 (Nat.ne_of_lt (hlt hx).1)
      rw [hne, hx]
      rfl
  induction hn : c.rest.length using Nat.strong_induction_on generalizing c with
  | h n ih =>
    subst hn
    refine .of_search hsearch ?_
    rw [htokens]
    cases hx : nextRule? own c with
    | none => rfl
    | some x => exact ⟨_, ih _ (hlt hx).2 _ rfl, rfl⟩

theorem map_zip_eq_of_own {rules : List Rule} {own : List Pattern}
    (h : List.Forall₂ (fun rule p => Pattern.parse .none ("(?m)" ++ rule.pattern) = .ok p) rules own)
    {exprs : List (Label × Expr)}
    (hexprs : rules.map (fun rule => (rule.label, exprOf? rule.pattern.toList)) =
      exprs.map fun x => (x.1, some x.2)) :
    (rules.zip own).map (fun x => (x.1.label, x.2.expr)) = exprs := by
  induction h generalizing exprs with
  | nil => exact (List.map_eq_nil_iff.1 hexprs.symm).symm
  | cons hparse _ ih =>
    obtain ⟨x, exprs, rfl, hx, hexprs⟩ := List.map_eq_cons_iff.1 hexprs.symm
    simp only [exprOf?_of_parse hparse, Prod.mk.injEq, Option.some_inj] at hx
    rw [List.zip_cons_cons, List.map_cons, ih hexprs.symm, ← hx.1, ← hx.2]

/-- The marks of a text are what a scan finds that takes the preferred readings of the rules'
expressions. -/
theorem exists_scans {d : RuleSet} {l : Language} (hbuild : d.build .none = .ok l)
    (hlabelling : d.labelling = none) (hne : d.rules ≠ [])
    (hplain : ∀ rule ∈ d.rules, readsPlainly .none rule.pattern)
    {exprs : List (Label × Expr)}
    (hexprs : d.rules.map (fun rule => (rule.label, exprOf? rule.pattern.toList)) =
      exprs.map fun x => (x.1, some x.2))
    (hsure : ∀ x ∈ exprs, sure x.2) (text : String) :
    ∃ hits, Scans (firstReading? exprs) (.start text.toList) hits ∧ l.scan text = .ok (hits.map Hit.mark) := by
  obtain ⟨-, hlabels, -⟩ := fields_of_build hbuild
  have hlabels : l.labelling = ruleLabel d.rules := by rw [hlabels, hlabelling]; rfl
  obtain ⟨p, groups, hp, hgroups⟩ := exists_alternation hbuild hne hplain
  let own : List (Rule × Pattern) := d.rules.zip (groups.map (·.2))
  have hown : own.map (fun x => (x.1.label, x.2.expr)) = exprs :=
    map_zip_eq_of_own (List.forall₂_map_right_iff.2 hgroups.own) hexprs
  have hownsure : ∀ x ∈ own, sure x.2.expr := List.forall_mem_map.1 (hown ▸ hsure)
  have hscan := scans_tokens hownsure (.start text.toList)
  rw [hown] at hscan
  refine ⟨_, hscan, ?_⟩
  have hagrees := agrees_tokens hgroups hne (c := .start text.toList) (Nat.le_of_eq String.length_toList)
  rw [Language.scan, hp, List.map_map]
  show marksOf (l.labelling p) _ = _
  rw [hlabels]
  exact marksOf_of_agrees hagrees

end RuleSet

/-! ## Strings -/

namespace Builtin

/-- All characters but one that quotes and the backslash. -/
def unquoted (quote : Char) : CharSet := (CharSet.ofChars [quote, '\\']).compl

/-- A character in quotes, which a backslash may protect. -/
def quotedChar (quote : Char) : Expr := .alt (.seq (.text ['\\']) (.one .notNewline)) (.one (unquoted quote))

/-- A string in quotes. -/
def quotedString (quote : Char) : Expr :=
  .seq (.text [quote]) (.seq (.star (quotedChar quote)) (.text [quote]))

@[simp]
theorem contains_unquoted (quote c : Char) : (unquoted quote).contains c = (c != quote && c != '\\') := by
  simp [unquoted, CharSet.contains_compl, CharSet.contains_ofChars, bne, beq_eq_decide]

end Builtin

end Highlight
