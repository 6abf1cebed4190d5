import Highlight.Proofs.Language.Builtin
import Highlight.Proofs.Language.JsonGrammar
import Highlight.Proofs.Language.Scanning
import Highlight.Proofs.Pattern.Words
import Mathlib.Data.Bool.AllAny

/-!
# The tokens of JSON documents

In a document of the grammar every literal is marked, with the label of its kind and as a whole, and nothing
else is (`Builtin.scan_json_tokens`). The rules know nothing of the grammar: they read a literal as a whole
because blanks, punctuation or an end come behind it (`Json.firstReading?_literal`), and read nothing of
these themselves (`Json.firstReading?_delimiter`). Hence all that is used of a document is that no two
literals touch.
-/

namespace Highlight.Builtin

open Pattern

namespace Json

/-! ## The rules -/

/-- The digits that a whole number of several digits may begin with. -/
def firstDigit : CharSet := .ofRanges [(0x31, 0x39)]

def signExpr : Expr := .optional (.text ['-'])

def wholeExpr : Expr := .alt (.text ['0']) (.seq (.one firstDigit) (.star (.one .digit)))

def fractionExpr : Expr := .optional (.seq (.text ['.']) (.plus (.one .digit)))

def exponentExpr : Expr :=
  .optional (.seq (.one (.ofChars ['e', 'E']))
    (.seq (.optional (.one (.ofChars ['+', '-']))) (.plus (.one .digit))))

def numberExpr : Expr := .seq signExpr (.seq wholeExpr (.seq fractionExpr exponentExpr))

def booleanExpr : Expr := .word (.alt (.text ['t', 'r', 'u', 'e']) (.text ['f', 'a', 'l', 's', 'e']))

def nullExpr : Expr := .word (.text ['n', 'u', 'l', 'l'])

/-- The expressions of the rules. -/
def exprs : List (Label × Expr) :=
  [("string", quotedString '"'), ("number", numberExpr), ("boolean", booleanExpr), ("null", nullExpr)]

theorem exprs_eq : json.rules.map (fun rule => (rule.label, RuleSet.exprOf? rule.pattern.toList)) =
    exprs.map fun x => (x.1, some x.2) := by
  decide +kernel

/-! ## Numbers -/

section Readings

open Grammar

variable {p : Cursor} {c : Char} {cs ds back : List Char}

theorem isDigit_iff : c.isDigit ↔ 0x30 ≤ c.toNat ∧ c.toNat ≤ 0x39 := by
  simp [Char.isDigit, UInt32.le_iff_toNat_le]

theorem contains_digit (h : c.isDigit) : CharSet.digit.contains c := by
  rw [CharSet.digit, CharSet.contains_ofRanges]
  exact List.any_eq_true.2 ⟨(0x30, 0x39), List.mem_cons_self, by simpa using isDigit_iff.1 h⟩

theorem contains_firstDigit_iff : firstDigit.contains c ↔ c.isDigit ∧ c ≠ '0' := by
  rw [firstDigit, CharSet.contains_ofRanges, isDigit_iff, ne_eq, ← Char.toNat_inj]
  simp only [List.any_cons, List.any_nil, Bool.or_false, Bool.and_eq_true, decide_eq_true_eq, Char.reduceToNat]
  omega

/-- No digit comes next. -/
def NoDigit (back : List Char) : Prop := ∀ c ∈ back.head?, CharSet.digit.contains c = false

/-- No digit comes behind a number, or behind its whole part. -/
theorem noDigit_of_head (h : ∀ c ∈ back.head?, c ∈ 'e' :: 'E' :: delimiters) : NoDigit back := by
  have hall : ∀ c ∈ 'e' :: 'E' :: delimiters, CharSet.digit.contains c = false := List.all_iff_forall_prop.1 (by decide)
  exact fun c hc => hall c (h c hc)

theorem past_digits (hp : p.rest = ds ++ back) (hds : ∀ c ∈ ds, c.isDigit) (hback : NoDigit back) :
    p.past CharSet.digit.contains = p.skip ds.length :=
  Cursor.past_eq hp (fun c hc => contains_digit (hds c hc)) hback

theorem leads_digits (h : Digits ds) (hp : p.rest = ds ++ back) (hback : NoDigit back) :
    (Expr.plus (.one .digit)).Leads p (p.skip ds.length) := by
  obtain ⟨hne, hds⟩ := h
  obtain ⟨d, ds, rfl⟩ := List.exists_cons_of_ne_nil hne
  rw [← past_digits hp hds hback]
  exact Expr.leads_plus_one hp (contains_digit (hds d List.mem_cons_self))

theorem ne_of_isDigit {d : Char} (h : c.isDigit) (hd : d.isDigit = false) : c ≠ d := by
  rintro rfl
  cases h.symm.trans hd

theorem head?_append_of_digits (h : Digits ds) (back : List Char) :
    ∃ d, (ds ++ back).head? = some d ∧ d.isDigit := by
  obtain ⟨d, ds, rfl⟩ := List.exists_cons_of_ne_nil h.1
  exact ⟨d, rfl, h.2 d List.mem_cons_self⟩

theorem leads_exponent (h : Exponent cs) (hp : p.rest = cs ++ back) (hback : ∀ c ∈ back.head?, c ∈ delimiters) :
    exponentExpr.Leads p (p.skip cs.length) := by
  have hdigit : NoDigit back :=
    noDigit_of_head fun c hc => List.mem_cons_of_mem _ (List.mem_cons_of_mem _ (hback c hc))
  cases h with
  | none =>
    have hall : ∀ c ∈ delimiters, (CharSet.ofChars ['e', 'E']).contains c = false :=
      List.all_iff_forall_prop.1 (by decide)
    have hletter : ∀ c ∈ p.rest.head?, (CharSet.ofChars ['e', 'E']).contains c = false := by
      rw [hp]
      exact fun c hc => hall c (hback c hc)
    exact Expr.leads_optional_of_nil (Expr.readings_seq_of_nil (Expr.readings_one_of_head hletter) _)
  | @some e sign ds he hsign hds =>
    have hfirst : (Expr.one (.ofChars ['e', 'E'])).Leads p (p.skip [e].length) :=
      Expr.leads_one hp (by simpa [CharSet.contains_ofChars] using he)
    have hrest : (p.skip [e].length).rest = sign ++ (ds ++ back) :=
      Cursor.rest_skip_append (by rw [hp]; simp)
    have hdigits : ((p.skip [e].length).skip sign.length).rest = ds ++ back := Cursor.rest_skip_append hrest
    refine (hfirst.append (Expr.Leads.append ?_ (leads_digits hds hdigits hdigit))).optional
    simp only [List.mem_cons, List.not_mem_nil, or_false] at hsign
    rcases hsign with rfl | rfl | rfl
    · obtain ⟨d, hhead, hd⟩ := head?_append_of_digits hds back
      refine Expr.leads_optional_of_nil (Expr.readings_one_of_head fun c hc => ?_)
      obtain rfl : d = c := Option.some.inj (hhead.symm.trans (hrest ▸ hc))
      simp [CharSet.contains_ofChars, ne_of_isDigit hd]
    · exact (Expr.leads_one hrest (by decide)).optional
    · exact (Expr.leads_one hrest (by decide)).optional

theorem leads_fraction (h : Fraction cs) (hp : p.rest = cs ++ back)
    (hback : ∀ c ∈ back.head?, c ∈ 'e' :: 'E' :: delimiters) : fractionExpr.Leads p (p.skip cs.length) := by
  have hdigit : NoDigit back := noDigit_of_head hback
  cases h with
  | none =>
    have hpoint : p.rest.head? ≠ some '.' := by
      rw [hp]
      exact fun hc => absurd (hback '.' hc) (by decide)
    exact Expr.leads_optional_of_nil (Expr.readings_seq_of_nil (Expr.readings_text_of_head hpoint []) _)
  | @some ds hds =>
    have hrest : (p.skip ['.'].length).rest = ds ++ back := Cursor.rest_skip_append hp
    have hfirst : (Expr.text ['.']).Leads p (p.skip ['.'].length) := Expr.leads_text hp
    exact (hfirst.append (leads_digits hds hrest hdigit)).optional

theorem leads_whole (h : Whole cs) (hp : p.rest = cs ++ back) (hback : NoDigit back) :
    wholeExpr.Leads p (p.skip cs.length) := by
  cases h with
  | zero => exact (Expr.leads_text hp).left
  | @digits d ds hd hzero hds =>
    have hnone : p.rest.head? ≠ some '0' := by
      rw [hp]
      exact fun h => hzero (Option.some.inj h)
    have hrest : (p.skip [d].length).rest = ds ++ back := Cursor.rest_skip_append hp
    have hfirst : (Expr.one firstDigit).Leads p (p.skip [d].length) :=
      Expr.leads_one hp (contains_firstDigit_iff.2 ⟨hd, hzero⟩)
    have hmore := Expr.leads_star_one .digit (by decide) (p.skip [d].length)
    rw [past_digits hrest hds hback] at hmore
    exact (hfirst.append hmore).right (Expr.readings_text_of_head hnone [])

theorem exists_head_of_whole (h : Whole cs) (back : List Char) : ∃ d, (cs ++ back).head? = some d ∧ d.isDigit := by
  cases h with
  | zero => exact ⟨'0', rfl, by decide⟩
  | @digits d ds hd => exact ⟨d, rfl, hd⟩

theorem exists_head_of_number (h : Number cs) : ∃ d ds, cs = d :: ds ∧ (d = '-' ∨ d.isDigit) := by
  obtain @⟨minus, whole, fraction, exponent, hminus, hwhole, -, -⟩ := h
  simp only [List.mem_cons, List.not_mem_nil, or_false] at hminus
  rcases hminus with rfl | rfl
  · cases hwhole with
    | zero => exact ⟨_, _, rfl, .inr (by decide)⟩
    | digits hd => exact ⟨_, _, rfl, .inr hd⟩
  · exact ⟨_, _, rfl, .inl rfl⟩

theorem leads_number (h : Number cs) (hp : p.rest = cs ++ back) (hback : ∀ c ∈ back.head?, c ∈ delimiters) :
    numberExpr.Leads p (p.skip cs.length) := by
  obtain @⟨minus, whole, fraction, exponent, hminus, hwhole, hfraction, hexponent⟩ := h
  -- What each part ends before.
  have hexponent' : ∀ c ∈ (exponent ++ back).head?, c ∈ 'e' :: 'E' :: delimiters := by
    cases hexponent with
    | none => exact fun c hc => List.mem_cons_of_mem _ (List.mem_cons_of_mem _ (hback c hc))
    | @some e sign ds he => rcases he with rfl | rfl <;> simp
  have hfraction' : NoDigit (fraction ++ (exponent ++ back)) := by
    cases hfraction with
    | none => exact noDigit_of_head hexponent'
    | some hds =>
      rintro c hc
      cases hc
      decide
  have hp₀ : p.rest = minus ++ (whole ++ (fraction ++ (exponent ++ back))) := by simpa using hp
  have hp₁ := Cursor.rest_skip_append hp₀
  have hp₂ := Cursor.rest_skip_append hp₁
  have hp₃ := Cursor.rest_skip_append hp₂
  refine Expr.Leads.append ?_ ((leads_whole hwhole hp₁ hfraction').append
    ((leads_fraction hfraction hp₂ hexponent').append (leads_exponent hexponent hp₃ hback)))
  simp only [List.mem_cons, List.not_mem_nil, or_false] at hminus
  rcases hminus with rfl | rfl
  · obtain ⟨d, hhead, hd⟩ := exists_head_of_whole hwhole (fraction ++ (exponent ++ back))
    refine Expr.leads_optional_of_nil (Expr.readings_text_of_head ?_ [])
    rw [hp₀, List.nil_append, hhead]
    exact fun h => ne_of_isDigit hd (by decide) (Option.some.inj h)
  · exact (Expr.leads_text hp₀).optional

/-! ## Strings and words -/

theorem leads_plain (hp : p.rest = c :: back) (hc : c ≠ '"' ∧ c ≠ '\\') : (quotedChar '"').Leads p p.next := by
  have hnone : p.rest.head? ≠ some '\\' := by
    rw [hp]
    exact fun h => hc.2 (Option.some.inj h)
  exact (Expr.leads_one hp (by simpa using hc)).right
    (Expr.readings_seq_of_nil (Expr.readings_text_of_head hnone []) _)

theorem alwaysReads_quotedChar : (quotedChar '"').alwaysReads := by decide

/-- One character more in front of what is read of a string. -/
theorem leads_star_plain (hp : p.rest = c :: back) (hc : c ≠ '"' ∧ c ≠ '\\')
    (h : (Expr.star (quotedChar '"')).Leads p.next (p.next.skip cs.length)) :
    (Expr.star (quotedChar '"')).Leads p (p.skip (c :: cs).length) :=
  (leads_plain hp hc).star alwaysReads_quotedChar h

theorem ne_of_isHex (h : isHex c) : c ≠ '"' ∧ c ≠ '\\' := by
  constructor <;> rintro rfl <;> revert h <;> decide

theorem leads_content (h : Content cs) (hp : p.rest = cs ++ '"' :: back) :
    (Expr.star (quotedChar '"')).Leads p (p.skip cs.length) := by
  induction h generalizing p with
  | nil =>
    have hslash : p.rest.head? ≠ some '\\' := by simp [hp]
    have hplain : ∀ c ∈ p.rest.head?, (unquoted '"').contains c = false := by simp [hp]
    refine Expr.leads_star_of_nil alwaysReads_quotedChar ?_
    rw [quotedChar, Expr.readings, Expr.readings_seq_of_nil (Expr.readings_text_of_head hslash []),
      Expr.readings_one_of_head hplain, List.append_nil]
  | @plain c cs hc hcs ih =>
    have hnext : p.next.rest = cs ++ '"' :: back := by simp [Cursor.next, hp]
    exact leads_star_plain hp hc.2 (ih hnext)
  | @escape c cs hc hcs ih =>
    have hnext : p.next.rest = c :: (cs ++ '"' :: back) := by simp [Cursor.next, hp]
    have hrest : p.next.next.rest = cs ++ '"' :: back := by simp [Cursor.next, hp]
    have hmarks : ∀ c ∈ ['"', '\\', '/', 'b', 'f', 'n', 'r', 't'], CharSet.notNewline.contains c :=
      List.all_iff_forall_prop.1 (by decide)
    have hslash : (Expr.text ['\\']).Leads p p.next := Expr.leads_text hp
    have hpair : (quotedChar '"').Leads p p.next.next := (hslash.seq (Expr.leads_one hnext (hmarks c hc))).left
    exact hpair.star alwaysReads_quotedChar (ih hrest)
  | @hex a b c d cs hhex hcs ih =>
    simp only [List.forall_mem_cons] at hhex
    obtain ⟨ha, hb, hc, hd, -⟩ := hhex
    let q := p.next.next
    have hnext : p.next.rest = 'u' :: a :: b :: c :: d :: (cs ++ '"' :: back) := by simp [Cursor.next, hp]
    have hq : q.rest = a :: b :: c :: d :: (cs ++ '"' :: back) := by simp [q, Cursor.next, hp]
    have hslash : (Expr.text ['\\']).Leads p p.next := Expr.leads_text hp
    have hpair : (quotedChar '"').Leads p q := (hslash.seq (Expr.leads_one hnext (by decide))).left
    -- The four digits are read one by one.
    have hq₁ : q.next.rest = b :: c :: d :: (cs ++ '"' :: back) := by simp [Cursor.next, hq]
    have hq₂ : q.next.next.rest = c :: d :: (cs ++ '"' :: back) := by simp [Cursor.next, hq]
    have hq₃ : q.next.next.next.rest = d :: (cs ++ '"' :: back) := by simp [Cursor.next, hq]
    have hrest : q.next.next.next.next.rest = cs ++ '"' :: back := by simp [Cursor.next, hq]
    have hdigits := leads_star_plain hq₃ (ne_of_isHex hd) (ih hrest)
    have hdigits := leads_star_plain hq₂ (ne_of_isHex hc) hdigits
    have hdigits := leads_star_plain hq₁ (ne_of_isHex hb) hdigits
    have hdigits := leads_star_plain hq (ne_of_isHex ha) hdigits
    exact hpair.star alwaysReads_quotedChar hdigits

theorem leads_string (h : Content cs) (hp : p.rest = '"' :: (cs ++ ['"']) ++ back) :
    (quotedString '"').Leads p (p.skip ('"' :: (cs ++ ['"'])).length) := by
  have hp₀ : p.rest = ['"'] ++ (cs ++ '"' :: back) := by simpa using hp
  have hp₁ := Cursor.rest_skip_append hp₀
  have hp₂ : ((p.skip ['"'].length).skip cs.length).rest = ['"'] ++ back := Cursor.rest_skip_append hp₁
  exact (Expr.leads_text hp₀).append ((leads_content h hp₁).append (Expr.leads_text hp₂))

/-! ## Positions in a document -/

theorem readings_number_of_head (h : ∀ c ∈ p.rest.head?, c ≠ '-' ∧ c.isDigit = false) :
    numberExpr.readings p = [] := by
  have hne {d : Char} (hd : d = '-' ∨ d.isDigit) : p.rest.head? ≠ some d := fun hq => by
    obtain ⟨hminus, hdigit⟩ := h d hq
    rcases hd with rfl | hd
    · exact hminus rfl
    · cases hd.symm.trans hdigit
  have hfirst : ∀ c ∈ p.rest.head?, firstDigit.contains c = false := fun c hc =>
    Bool.eq_false_iff.2 fun h' => Bool.eq_false_iff.1 (h c hc).2 (contains_firstDigit_iff.1 h').1
  rw [numberExpr, signExpr, Expr.readings, Expr.readings_optional, Expr.readings_text_of_head (hne (.inl rfl)) [],
    List.nil_append, List.flatMap_singleton, Expr.readings_seq_of_nil]
  rw [wholeExpr, Expr.readings, Expr.readings_text_of_head (hne (.inr (by decide))) [],
    Expr.readings_seq_of_nil (Expr.readings_one_of_head hfirst), List.append_nil]

/-- Nothing is read of blanks and punctuation, or at the end. -/
theorem firstReading?_delimiter (h : ∀ c ∈ p.rest.head?, c ∈ delimiters) : RuleSet.firstReading? exprs p = none := by
  have hhead {d : Char} (hd : d ∉ delimiters) : p.rest.head? ≠ some d := fun hq => hd (h d hq)
  have hstring : (quotedString '"').readings p = [] :=
    Expr.readings_seq_of_nil (Expr.readings_text_of_head (hhead (by decide)) []) _
  have hnumber : numberExpr.readings p = [] := readings_number_of_head fun c hc =>
    (List.all_iff_forall_prop.1 (by decide) : ∀ c ∈ delimiters, c ≠ '-' ∧ c.isDigit = false) c (h c hc)
  have hboolean : booleanExpr.readings p = [] := Expr.readings_word_of_nil (by
    rw [Expr.readings, Expr.readings_text_of_head (hhead (by decide)), Expr.readings_text_of_head (hhead (by decide)),
      List.append_nil])
  have hnull : nullExpr.readings p = [] :=
    Expr.readings_word_of_nil (Expr.readings_text_of_head (hhead (by decide)) _)
  rw [exprs, RuleSet.firstReading?_cons_of_nil hstring, RuleSet.firstReading?_cons_of_nil hnumber,
    RuleSet.firstReading?_cons_of_nil hboolean, RuleSet.firstReading?_cons_of_nil hnull]
  rfl

/-- A literal is read as a whole. -/
theorem firstReading?_literal {label : Label} (h : Literal label cs) (hp : p.rest = cs ++ back)
    (hbefore : p.wordBefore = false) (hback : ∀ c ∈ back.head?, c ∈ delimiters) :
    RuleSet.firstReading? exprs p = some (label, p.skip cs.length) := by
  have hword : ∀ c ∈ back.head?, Unicode.isWordChar c = false := fun c hc =>
    (List.all_iff_forall_prop.1 (by decide) : ∀ c ∈ delimiters, Unicode.isWordChar c = false) c (hback c hc)
  have hhead {c d : Char} {ds : List Char} (hcs : cs = d :: ds) (hne : d ≠ c) : p.rest.head? ≠ some c := by
    rw [hp, hcs]
    exact fun h => hne (Option.some.inj h)
  have hstring {d : Char} {ds : List Char} (hcs : cs = d :: ds) (hd : d ≠ '"') : (quotedString '"').readings p = [] :=
    Expr.readings_seq_of_nil (Expr.readings_text_of_head (hhead hcs hd) []) _
  have hnumber {d : Char} {ds : List Char} (hcs : cs = d :: ds) (hd : d ≠ '-' ∧ d.isDigit = false) :
      numberExpr.readings p = [] := by
    refine readings_number_of_head ?_
    rw [hp, hcs]
    exact fun c hc => Option.some.inj hc ▸ hd
  cases h with
  | string h => exact RuleSet.firstReading?_cons_of_leads (leads_string h hp)
  | number h =>
    obtain ⟨d, ds, hcs, hd⟩ := exists_head_of_number h
    have hquote : d ≠ '"' := by
      rcases hd with rfl | hd
      · decide
      · exact ne_of_isDigit hd (by decide)
    rw [exprs, RuleSet.firstReading?_cons_of_nil (hstring hcs hquote)]
    exact RuleSet.firstReading?_cons_of_leads (leads_number h hp hback)
  | true =>
    rw [exprs, RuleSet.firstReading?_cons_of_nil (hstring rfl (by decide)),
      RuleSet.firstReading?_cons_of_nil (hnumber rfl (by decide))]
    exact RuleSet.firstReading?_cons_of_leads
      (Expr.leads_word (Expr.leads_text hp).left hp (by simp) (List.all_iff_forall_prop.1 (by decide))
        hbefore hword)
  | false =>
    have htrue := Expr.readings_text_of_head (d := 't') (hhead rfl (by decide)) ['r', 'u', 'e']
    rw [exprs, RuleSet.firstReading?_cons_of_nil (hstring rfl (by decide)),
      RuleSet.firstReading?_cons_of_nil (hnumber rfl (by decide))]
    exact RuleSet.firstReading?_cons_of_leads
      (Expr.leads_word ((Expr.leads_text hp).right htrue) hp (by simp)
        (List.all_iff_forall_prop.1 (by decide)) hbefore hword)
  | null =>
    have hboolean : booleanExpr.readings p = [] := Expr.readings_word_of_nil (by
      rw [Expr.readings, Expr.readings_text_of_head (hhead rfl (by decide)),
        Expr.readings_text_of_head (hhead rfl (by decide)), List.append_nil])
    rw [exprs, RuleSet.firstReading?_cons_of_nil (hstring rfl (by decide)),
      RuleSet.firstReading?_cons_of_nil (hnumber rfl (by decide)), RuleSet.firstReading?_cons_of_nil hboolean]
    exact RuleSet.firstReading?_cons_of_leads
      (Expr.leads_word (Expr.leads_text hp) hp (by simp) (List.all_iff_forall_prop.1 (by decide)) hbefore hword)

/-! ## Documents -/

theorem wordBefore_next {c : Char} (hp : p.rest = c :: back) (hc : c ∈ delimiters) :
    p.next.rest = back ∧ p.next.offset = p.offset + 1 ∧ p.next.wordBefore = false := by
  have hnext : p.next = ⟨p.offset + 1, some c, back⟩ := by simp [Cursor.next, hp]
  rw [hnext]
  have hdelimiters : ∀ c ∈ delimiters, Unicode.isWordChar c = false := List.all_iff_forall_prop.1 (by decide)
  exact ⟨rfl, rfl, hdelimiters c hc⟩

/-- Of lexemes of which no literals touch, the literals are found, and nothing else is. -/
theorem scans_loose {ls : List Lexeme} (h : Loose ls) (hp : p.rest = Grammar.text ls) (hbefore : p.wordBefore = false) :
    ∃ hits, Scans (RuleSet.firstReading? exprs) p hits ∧ hits.map Hit.mark = marks p.offset ls := by
  induction h generalizing p with
  | nil =>
    refine ⟨[], .last hp (firstReading?_delimiter ?_), rfl⟩
    rw [hp]
    exact nofun
  | @char c ls hc hls ih =>
    have hp : p.rest = c :: Grammar.text ls := hp
    obtain ⟨hrest, hoffset, hword⟩ := wordBefore_next hp hc
    obtain ⟨hits, hscan, hmarks⟩ := ih hrest hword
    refine ⟨hits, .skip (by rw [hp]; exact List.cons_ne_nil _ _) (firstReading?_delimiter ?_) hscan, ?_⟩
    · rw [hp]
      exact fun d hd => Option.some.inj hd ▸ hc
    · rw [hmarks, hoffset]
      rfl
  | @last label cs h =>
    have hp : p.rest = cs ++ [] := hp
    have hend := Cursor.rest_skip_append hp
    refine ⟨_, .hit (firstReading?_literal h hp hbefore nofun) (.last hend (firstReading?_delimiter ?_)), ?_⟩
    · rw [hend]
      exact nofun
    · rw [Cursor.offset_skip (by simp [hp])]
      rfl
  | @literal label cs c ls h hc hls ih =>
    have hp : p.rest = cs ++ c :: Grammar.text ls := hp
    have hend := Cursor.rest_skip_append hp
    have hdelimiter : ∀ d ∈ (c :: Grammar.text ls).head?, d ∈ delimiters := fun d hd => Option.some.inj hd ▸ hc
    obtain ⟨hrest, hoffset, hword⟩ := wordBefore_next hend hc
    obtain ⟨hits, hscan, hmarks⟩ := ih hrest hword
    refine ⟨_, .hit (firstReading?_literal h hp hbefore hdelimiter)
      (.skip (by rw [hend]; exact List.cons_ne_nil _ _) (firstReading?_delimiter (hend ▸ hdelimiter)) hscan), ?_⟩
    rw [List.map_cons, hmarks, hoffset, Cursor.offset_skip (by simp [hp])]
    rfl

end Readings

end Json

/-- In every document of JSON the literals are marked, each as a whole and with the label of its kind, and
nothing else is. -/
theorem scan_json_tokens : ∃ l, (∀ properties, json.build properties = .ok l) ∧
    ∀ (text : String) (ls : List Grammar.Lexeme), Grammar.Document ls → text.toList = Grammar.text ls →
      l.scan text = .ok (Grammar.marks 0 ls) := by
  obtain ⟨l, hl⟩ := sound_json.builds
  refine ⟨l, hl, fun text ls hdocument htext => ?_⟩
  obtain ⟨hits, hscan, hmarks⟩ := RuleSet.exists_scans (hl .none) rfl (List.cons_ne_nil _ _) (by decide +kernel)
    Json.exprs_eq (by decide +kernel) text
  obtain ⟨hits', hscan', hmarks'⟩ := Json.scans_loose hdocument.loose (p := .start text.toList) htext rfl
  rw [hmarks, hscan.unique hscan', hmarks']
  rfl

/-- A key with a quotation mark and a number in it, a number of every form at once and a literal name. -/
theorem scan_json_tokens_nested :
    let key := ['"', '\\', '"', '1', '"']
    let number := ['-', '0', '.', '5', 'e', '+', '1']
    let ls : List Grammar.Lexeme := [.char '\x7B', .literal "string" key, .char ':', .char ' ', .char '[',
      .literal "number" number, .char ',', .char '\n', .literal "null" ['n', 'u', 'l', 'l'], .char ']', .char '\x7D']
    ∃ l, (∀ properties, json.build properties = .ok l) ∧ Grammar.Document ls ∧
      l.scan "\x7B\"\\\"1\": [-0.5e+1,\nnull]\x7D" =
        .ok [.labeled 1 6 "string", .labeled 9 16 "number", .labeled 18 22 "null"] := by
  intro key number ls
  have hblank : Grammar.Blanks [.char ' '] := by simp [Grammar.Blanks]
  have hline : Grammar.Blanks [.char '\n'] := by simp [Grammar.Blanks]
  have hnone : Grammar.Blanks [] := List.forall_mem_nil _
  have hkey : Grammar.Literal "string" key :=
    .string (.escape (c := '"') (by decide) (.plain (c := '1') (by decide) .nil))
  have hfraction : Grammar.Fraction ['.', '5'] := .some ⟨by decide, List.forall_mem_singleton.2 rfl⟩
  have hexponent : Grammar.Exponent ('e' :: (['+'] ++ ['1'])) :=
    .some (.inl rfl) (by decide) ⟨by decide, List.forall_mem_singleton.2 rfl⟩
  have hnumber : Grammar.Number (['-'] ++ (['0'] ++ (['.', '5'] ++ ('e' :: (['+'] ++ ['1']))))) :=
    .mk (by decide) .zero hfraction hexponent
  have hitems : Grammar.Items [.literal "number" number, .char ',', .char '\n', .literal "null" ['n', 'u', 'l', 'l']] :=
    .cons (.literal (.number hnumber)) (.mk hnone hline) (.single (.literal .null))
  have harray : Grammar.Value [.char '[', .literal "number" number, .char ',', .char '\n',
      .literal "null" ['n', 'u', 'l', 'l'], .char ']'] :=
    .array (.mk hnone hnone) hitems (.mk hnone hnone)
  have hobject : Grammar.Value ls :=
    .object (.mk hnone hnone) (.single hkey (.mk hnone hblank) harray) (.mk hnone hnone)
  have hdocument : Grammar.Document ([] ++ (ls ++ [])) := .mk hnone hobject hnone
  obtain ⟨l, hl, hscan⟩ := scan_json_tokens
  exact ⟨l, hl, hdocument, hscan _ ls hdocument (by decide +kernel)⟩

end Highlight.Builtin
