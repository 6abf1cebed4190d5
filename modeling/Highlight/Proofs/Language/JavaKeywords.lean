import Highlight.Proofs.Language.Builtin
import Highlight.Proofs.Language.Scanning
import Highlight.Proofs.Pattern.Words
import Mathlib.Data.Bool.AllAny

/-!
# The reserved words of Java

In a text of Java a reserved word is marked if it is a whole word and nothing that may hold words, a comment,
a string, a character or an annotation, holds it (`Builtin.scan_java_keywords`). Where the scan comes by it is
read as a whole, and not as a shorter word that it begins with: no other rule reads anything from a letter on
(`Java.firstReading?_keyword`), and a shorter word does not end at a boundary (`Expr.leads_word_iff`). So it
remains to see that nothing that was found lies across its beginning (`Java.not_across`): no rule stops within
a word of small letters (`Java.not_small_behind`), and of what may not hold words at most the last character is
a small letter (`Java.smallLast_of_mem`).
-/

namespace Highlight.Builtin

open Pattern
open Unicode (isWordChar)

namespace Java

/-! ## The rules -/

/-- The reserved words, character by character. -/
def keywords : List (List Char) := javaKeywords.map String.toList

def lineExpr : Expr := .seq (.text ['/', '/']) (.star (.one .notNewline))

def blockExpr : Expr := .seq (.text ['/', '*']) (.seq (.loop 0 none false (.one .any)) (.text ['*', '/']))

def charExpr : Expr := .seq (.text ['\'']) (.seq (quotedChar '\'') (.text ['\'']))

def keywordExpr : Expr := .word (.ofBranches (keywords.map .text))

def annotationExpr : Expr := .seq (.text ['@']) (.seq (.one .letters) (.star (.one .identifierChars)))

/-- The digits of a number. -/
def digits : CharSet := .ofRanges [(0x30, 0x39)]

/-- The letter that a number may end with. -/
def suffixExpr : Expr := .optional (.one (.ofChars ['D', 'F', 'L', 'd', 'f', 'l']))

def fractionExpr : Expr := .optional (.seq (.text ['.']) (.plus (.one digits)))

def numberExpr : Expr :=
  .seq (.check .wordBoundary) (.seq (.plus (.one digits)) (.seq fractionExpr (.seq suffixExpr (.check .wordBoundary))))

/-- The expressions of the rules. -/
def exprs : List (Label × Expr) :=
  [("comment", .alt lineExpr blockExpr), ("string", quotedString '"'), ("char", charExpr), ("keyword", keywordExpr),
    ("annotation", annotationExpr), ("number", numberExpr), ("paren", .one (.ofChars ['(', ')'])),
    ("brace", .one (.ofChars ['\x7B', '\x7D'])), ("bracket", .one (.ofChars ['[', ']'])), ("semicolon", .text [';'])]

/-- The labels of what may hold words. -/
def covers : List Label := ["comment", "string", "char", "annotation"]

theorem labels_eq : java.rules.map (·.label) = exprs.map (·.1) := by decide

theorem exprs_eq : java.rules.map (fun rule => (rule.label, RuleSet.exprOf? rule.pattern.toList)) =
    exprs.map fun x => (x.1, some x.2) := by
  have htexts : javaTexts.map RuleSet.exprOf? = exprs.map fun x => some x.2 := by decide +kernel
  have hzip := congrArg₂ List.zip labels_eq htexts
  rwa [← map_toList_java, List.map_map, List.zip_map', List.zip_map'] at hzip

theorem readsPlainly_java : ∀ rule ∈ java.rules, readsPlainly .none rule.pattern := by
  have htexts : ∀ text ∈ javaTexts, Parser.initial.staysPlain .none text.length text := by decide +kernel
  rw [← map_toList_java] at htexts
  exact List.forall_mem_map.1 htexts

theorem sure_of_mem : ∀ x ∈ exprs, RuleSet.sure x.2 := by decide +kernel

/-! ## Reserved words -/

theorem keywords_small : ∀ word ∈ keywords, 2 ≤ word.length ∧ ∀ c ∈ word, c.isLower := by
  have hall : ∀ word ∈ keywords, 2 ≤ word.length ∧ word.all Char.isLower := by decide +kernel
  simpa only [List.all_eq_true] using hall

theorem isIdentifierChar_of_isLower {c : Char} (h : c.isLower) : isIdentifierChar c := by
  unfold isIdentifierChar Char.isAlphanum Char.isAlpha
  rw [h, Bool.or_true, Bool.true_or, Bool.true_or]

theorem isWordChar_of_isLower {c : Char} (h : c.isLower) : isWordChar c :=
  isWordChar_of_isIdentifierChar (isIdentifierChar_of_isLower h)

section

variable {text word : List Char} {a n : Nat} {p q : Cursor}

/-- Where a whole word is reserved it is read as a keyword, and nothing else is. -/
theorem leads_keyword_iff (hn : n ≤ text.length) : keywordExpr.Leads ((Cursor.start text).skip n) q ↔
    ∃ word ∈ keywords, WholeWord text n word ∧ q = (Cursor.start text).skip (n + word.length) := by
  refine Expr.leads_word_iff (fun p q => ?_) (fun word hword => ?_) hn
  · rw [Expr.readings_ofBranches, List.flatMap_map, List.mem_flatMap]
    exact exists_congr fun word => and_congr_right fun _ => Expr.mem_readings_text
  · obtain ⟨hlength, hsmall⟩ := keywords_small word hword
    exact ⟨List.length_pos_iff.1 (by omega), fun c hc => isWordChar_of_isLower (hsmall c hc)⟩

theorem exists_word_of_leads (hn : a + n ≤ text.length)
    (h : keywordExpr.Leads ((Cursor.start text).skip a) ((Cursor.start text).skip (a + n))) :
    ∃ word ∈ keywords, WholeWord text a word ∧ a + n = a + word.length := by
  obtain ⟨word, hword, hwhole, hstop⟩ := (leads_keyword_iff (Nat.le_of_add_right_le hn)).1 h
  exact ⟨word, hword, hwhole, Cursor.skip_inj hn hwhole.add_le hstop⟩

/-- No rule that is tried before reads anything from a letter on. -/
theorem firstReading?_keyword (h : WholeWord text a word) (hword : word ∈ keywords) :
    RuleSet.firstReading? exprs ((Cursor.start text).skip a) =
      some ("keyword", (Cursor.start text).skip (a + word.length)) := by
  obtain ⟨hlength, hsmall⟩ := keywords_small word hword
  obtain ⟨back, hrest, -, -⟩ := h.cursor
  have hhead {c : Char} (hc : c.isLower = false) : ((Cursor.start text).skip a).rest.head? ≠ some c := by
    obtain ⟨d, word, rfl⟩ := List.exists_cons_of_length_pos (Nat.lt_of_lt_of_le Nat.zero_lt_two hlength)
    rw [hrest]
    rintro ⟨⟩
    cases hc.symm.trans (hsmall c List.mem_cons_self)
  have hnone {c : Char} (hc : c.isLower = false) (cs : List Char) (rest : Expr) :
      (Expr.seq (.text (c :: cs)) rest).readings ((Cursor.start text).skip a) = [] :=
    Expr.readings_seq_of_nil (Expr.readings_text_of_head (hhead hc) cs) rest
  have hcomment : (Expr.alt lineExpr blockExpr).readings ((Cursor.start text).skip a) = [] := by
    rw [Expr.readings, lineExpr, blockExpr, hnone (by decide), hnone (by decide), List.append_nil]
  have hstring : (quotedString '"').readings ((Cursor.start text).skip a) = [] := hnone (by decide) [] _
  have hchar : charExpr.readings ((Cursor.start text).skip a) = [] := hnone (by decide) [] _
  rw [exprs, RuleSet.firstReading?_cons_of_nil hcomment, RuleSet.firstReading?_cons_of_nil hstring,
    RuleSet.firstReading?_cons_of_nil hchar]
  refine RuleSet.firstReading?_cons_of_leads ((leads_keyword_iff ?_).2 ⟨word, hword, h, rfl⟩)
  exact Nat.le_of_add_right_le h.add_le

/-! ## Where rules stop -/

theorem isLower_eq_false_of_boundary (h : Condition.wordBoundary.holds q) (hbefore : q.wordBefore) {c : Char}
    (hc : q.rest.head? = some c) : c.isLower = false := by
  refine Bool.eq_false_iff.2 fun hlower => ?_
  have hafter : q.wordAfter := by rw [Cursor.wordAfter, hc]; exact isWordChar_of_isLower hlower
  simp [Condition.holds, hbefore, hafter] at h

/-- A rule that ends with no word character. -/
theorem isLower_eq_false_of_endsIn {e : Expr} (he : e.EndsIn fun c => isWordChar c = false) (h : e.Leads p q)
    (hbefore : q.wordBefore) {c : Char} : c.isLower = false := by
  cases (he.wordBefore_eq_false (List.mem_of_head? h)).symm.trans hbefore

/-- A comment ends with its line or with a slash. -/
theorem isLower_eq_false_of_comment (h : (Expr.alt lineExpr blockExpr).Leads p q) (hbefore : q.wordBefore) {c : Char}
    (hc : q.rest.head? = some c) : c.isLower = false := by
  rcases h.of_alt with h | h
  · obtain ⟨r, -, hr⟩ := h.exists_of_seq (Expr.length_readings_text_le _ p)
    obtain rfl : r.past CharSet.notNewline.contains = q :=
      Option.some.inj ((Expr.leads_star_one _ (by decide) r).symm.trans hr)
    have hline := Cursor.eq_false_of_past hc
    rw [CharSet.contains_notNewline, bne_eq_false_iff_eq] at hline
    rw [hline]
    rfl
  · exact isLower_eq_false_of_endsIn (Expr.endsIn_text rfl (by decide)).seq.seq h hbefore

/-- An annotation ends where no character of identifiers comes. -/
theorem isLower_eq_false_of_annotation (h : annotationExpr.Leads p q) {c : Char} (hc : q.rest.head? = some c) :
    c.isLower = false := by
  obtain ⟨r, -, hr⟩ := h.exists_of_seq (Expr.length_readings_text_le _ p)
  obtain ⟨r, -, hr⟩ := hr.exists_of_seq (Expr.length_readings_one_le _ r)
  obtain rfl : r.past CharSet.identifierChars.contains = q :=
    Option.some.inj ((Expr.leads_star_one _ (by decide) r).symm.trans hr)
  have hident := Cursor.eq_false_of_past hc
  rw [CharSet.contains_identifierChars] at hident
  exact Bool.eq_false_iff.2 fun hlower => by cases hident.symm.trans (isIdentifierChar_of_isLower hlower)

theorem holds_of_number (h : q ∈ numberExpr.readings p) : Condition.wordBoundary.holds q := by
  obtain ⟨_, -, h⟩ := List.mem_flatMap.1 h
  obtain ⟨_, -, h⟩ := List.mem_flatMap.1 h
  obtain ⟨_, -, h⟩ := List.mem_flatMap.1 h
  obtain ⟨_, -, h⟩ := List.mem_flatMap.1 h
  exact (Expr.mem_readings_check.1 h).2

/-- No rule stops between a word character and a small letter. -/
theorem not_small_behind {x : Label × Expr} (hx : x ∈ exprs) (h : x.2.Leads p q) (hbefore : q.wordBefore) {c : Char}
    (hc : q.rest.head? = some c) : c.isLower = false := by
  have hset {cs : List Char} (hcs : cs.all fun c => isWordChar c = false) (c : Char)
      (hc : (CharSet.ofChars cs).contains c) : isWordChar c = false :=
    List.all_iff_forall_prop.1 hcs c (by simpa [CharSet.contains_ofChars] using hc)
  simp only [exprs, List.mem_cons, List.not_mem_nil, or_false] at hx
  rcases hx with rfl | rfl | rfl | rfl | rfl | rfl | rfl | rfl | rfl | rfl
  · exact isLower_eq_false_of_comment h hbefore hc
  · exact isLower_eq_false_of_endsIn (Expr.endsIn_text rfl (by decide)).seq.seq h hbefore
  · exact isLower_eq_false_of_endsIn (Expr.endsIn_text rfl (by decide)).seq.seq h hbefore
  · exact isLower_eq_false_of_boundary (Expr.mem_readings_word.1 (List.mem_of_head? h)).2.2 hbefore hc
  · exact isLower_eq_false_of_annotation h hc
  · exact isLower_eq_false_of_boundary (holds_of_number (List.mem_of_head? h)) hbefore hc
  · exact isLower_eq_false_of_endsIn (Expr.endsIn_one (hset (by decide))) h hbefore
  · exact isLower_eq_false_of_endsIn (Expr.endsIn_one (hset (by decide))) h hbefore
  · exact isLower_eq_false_of_endsIn (Expr.endsIn_one (hset (by decide))) h hbefore
  · exact isLower_eq_false_of_endsIn (Expr.endsIn_text rfl (by decide)) h hbefore

/-! ## What lies across a position -/

/-- All characters but the last are no small letters. -/
def SmallLast (cs : List Char) : Prop :=
  ∃ body tail, cs = body ++ tail ∧ tail.length ≤ 1 ∧ ∀ c ∈ body, c.isLower = false

theorem smallLast_of_length_le {cs : List Char} (h : cs.length ≤ 1) : SmallLast cs :=
  ⟨[], cs, rfl, h, List.forall_mem_nil _⟩

theorem SmallLast.isLower_eq_false {cs : List Char} (h : SmallLast cs) {k : Nat} (hk : k + 1 < cs.length) {c : Char}
    (hc : cs[k]? = some c) : c.isLower = false := by
  obtain ⟨body, tail, rfl, htail, hbody⟩ := h
  rw [List.length_append] at hk
  rw [List.getElem?_append_left (by omega)] at hc
  exact hbody c (List.mem_of_getElem? hc)

/-- Only the last character of a number may be a letter. -/
theorem smallLast_of_number {cs : List Char} (h : cs ∈ numberExpr.language) : SmallLast cs := by
  have hdigits : (Expr.plus (.one digits)).Within fun c => c.isLower = false := by
    refine (Expr.within_one fun c hc => ?_).loop
    rw [digits, CharSet.contains_ofRanges] at hc
    simp only [List.any_cons, List.any_nil, Bool.or_false, Bool.and_eq_true, decide_eq_true_eq] at hc
    unfold Char.isLower
    simp only [UInt32.le_iff_toNat_le, Bool.and_eq_false_iff, decide_eq_false_iff_not]
    refine .inl (Nat.not_le.2 ?_)
    show c.toNat < 0x61
    omega
  have hpoint : (Expr.text ['.']).Within fun c => c.isLower = false :=
    Expr.within_text (List.forall_mem_singleton.2 (by decide))
  have hfraction : fractionExpr.Within fun c => c.isLower = false := (hpoint.seq hdigits).loop
  obtain ⟨_, rfl, _, ⟨whole, hwhole, _, ⟨fraction, hfrac, _, ⟨suffix, hsuffix, _, rfl, rfl⟩, rfl⟩, rfl⟩, rfl⟩ := h
  rw [suffixExpr, Expr.language_optional] at hsuffix
  refine ⟨whole ++ fraction, suffix, by simp, ?_,
    List.forall_mem_append.2 ⟨hdigits whole hwhole, hfraction fraction hfrac⟩⟩
  rcases hsuffix with rfl | ⟨c, -, rfl⟩
  · exact Nat.zero_le 1
  · exact Nat.le_refl 1

/-- What is read as anything else than a word or what may hold words has at most one small letter, and that at
its end. -/
theorem smallLast_of_mem {x : Label × Expr} (hx : x ∈ exprs) (hcovers : x.1 ∉ covers) (hkeyword : x.1 ≠ "keyword")
    {cs : List Char} (hcs : cs ∈ x.2.language) : SmallLast cs := by
  have hone {set : CharSet} (h : cs ∈ (Expr.one set).language) : SmallLast cs := by
    obtain ⟨c, -, rfl⟩ := h
    exact smallLast_of_length_le (Nat.le_refl 1)
  simp only [exprs, List.mem_cons, List.not_mem_nil, or_false] at hx
  rcases hx with rfl | rfl | rfl | rfl | rfl | rfl | rfl | rfl | rfl | rfl
  · exact absurd (by decide) hcovers
  · exact absurd (by decide) hcovers
  · exact absurd (by decide) hcovers
  · exact absurd rfl hkeyword
  · exact absurd (by decide) hcovers
  · exact smallLast_of_number hcs
  · exact hone hcs
  · exact hone hcs
  · exact hone hcs
  · obtain rfl := hcs
    exact smallLast_of_length_le (Nat.le_refl 1)

/-- Nothing that is read lies across the beginning of a reserved word, unless it may hold words and holds
the word. -/
theorem not_across (h : WholeWord text a word) (hword : word ∈ keywords) {label : Label} {e : Expr}
    (hx : (label, e) ∈ exprs) {start n : Nat} (hn : start + n ≤ text.length)
    (hleads : e.Leads ((Cursor.start text).skip start) ((Cursor.start text).skip (start + n))) (hlt : start < a)
    (hcovers : label ∈ covers → ¬a + word.length ≤ start + n) : start + n ≤ a := by
  obtain ⟨hlength, hsmall⟩ := keywords_small word hword
  refine Nat.le_of_not_lt fun hacross => ?_
  by_cases hinside : start + n < a + word.length
  · obtain ⟨hbefore, c, hc, hhead, -⟩ := h.inside hacross hinside
    cases (hsmall c hc).symm.trans (not_small_behind hx hleads hbefore hhead)
  · have hholds : a + word.length ≤ start + n := Nat.le_of_not_lt hinside
    have hlabel : label ∉ covers := fun hlabel => hcovers hlabel hholds
    by_cases hkeyword : label = "keyword"
    · obtain rfl : e = keywordExpr := by simpa [exprs, hkeyword] using hx
      obtain ⟨word', -, hword', hstop⟩ := exists_word_of_leads hn hleads
      have := hword'.not_within h hlt
      omega
    · obtain ⟨cs, hcs, hreads⟩ := Expr.exists_reads (List.mem_of_head? hleads)
      have hsize := hreads.offset
      rw [Cursor.offset_skip (p := .start text) hn,
        Cursor.offset_skip (p := .start text) (Nat.le_of_add_right_le hn)] at hsize
      have hrest : text.drop start = cs ++ ((Cursor.start text).skip (start + n)).rest :=
        (Cursor.rest_skip (.start text) start).symm.trans hreads.rest
      -- The word begins before the last character that is read.
      obtain ⟨c, hc, hfirst, -⟩ := h.exists_at (Nat.le_refl a) (by omega)
      have hat : cs[a - start]? = some c := calc
        cs[a - start]? = (text.drop start)[a - start]? := by rw [hrest, List.getElem?_append_left (by omega)]
        _ = text[a]? := by rw [List.getElem?_drop, Nat.add_sub_cancel' (Nat.le_of_lt hlt)]
        _ = some c := hfirst
      cases (hsmall c hc).symm.trans ((smallLast_of_mem hx hlabel hkeyword hcs).isLower_eq_false (by omega) hat)

end

/-! ## Marks -/

section

variable {text : String} {hits : List (Hit Label)}
  (hscan : Scans (RuleSet.firstReading? exprs) (.start text.toList) hits)

include hscan

/-- What was found as a keyword is a whole word that is reserved. -/
theorem exists_word_of_mem {start stop : Nat} (h : ⟨"keyword", start, stop⟩ ∈ hits) :
    ∃ word ∈ keywords, WholeWord text.toList start word ∧ stop = start + word.length := by
  obtain ⟨n, e, hn, hstop, he, hleads⟩ := RuleSet.exists_leads_of_mem sure_of_mem hscan h
  obtain rfl : e = keywordExpr := by simpa [exprs] using he
  obtain ⟨word, hword, hwhole, hsame⟩ := exists_word_of_leads hn hleads
  exact ⟨word, hword, hwhole, hstop.trans hsame⟩

/-- A reserved word that nothing holds is found. -/
theorem mem_of_word {start : Nat} {word : List Char} (h : WholeWord text.toList start word) (hword : word ∈ keywords)
    (hcovers : ∀ y ∈ hits, y.what ∈ covers → y.start ≤ start → ¬start + word.length ≤ y.stop) :
    ⟨"keyword", start, start + word.length⟩ ∈ hits := by
  refine hscan.mem_of_find_start (RuleSet.forward_firstReading? sure_of_mem) h.add_le
    (firstReading?_keyword h hword) fun y hy hlt => ?_
  obtain ⟨n, e, hn, hstop, he, hleads⟩ := RuleSet.exists_leads_of_mem sure_of_mem hscan hy
  rw [hstop]
  exact not_across h hword he hn hleads hlt fun hlabel => hstop ▸ hcovers y hy hlabel (Nat.le_of_lt hlt)

theorem mem_iff {start stop : Nat} : ⟨"keyword", start, stop⟩ ∈ hits ↔
    (∃ word ∈ keywords, WholeWord text.toList start word ∧ stop = start + word.length) ∧
      ∀ y ∈ hits, y.what ∈ covers → ¬(y.start ≤ start ∧ stop ≤ y.stop) := by
  constructor
  · intro h
    have hforward := RuleSet.forward_firstReading? sure_of_mem
    refine ⟨exists_word_of_mem hscan h, fun y hy hlabel ⟨hstart, hstop⟩ => ?_⟩
    have hlt : start < stop := (hscan.sorted hforward).1 _ h
    rcases hscan.eq_or_apart hforward h hy with rfl | happart | happart
    · exact absurd hlabel (by decide : "keyword" ∉ covers)
    · exact absurd (Nat.le_trans happart hstart) (Nat.not_le.2 hlt)
    · exact absurd (Nat.le_trans hstop happart) (Nat.not_le.2 hlt)
  · rintro ⟨⟨word, hword, hwhole, rfl⟩, hcovers⟩
    exact mem_of_word hscan hwhole hword fun y hy hlabel hstart hstop => hcovers y hy hlabel ⟨hstart, hstop⟩

end

end Java

/-- In every text of Java the marks with the label of keywords are the reserved words that are whole words and
lie in no mark of a comment, a string, a character or an annotation. -/
theorem scan_java_keywords : ∃ l, (∀ properties, java.build properties = .ok l) ∧
    ∀ text : String, ∃ marks, l.scan text = .ok marks ∧
      (∀ m ∈ marks, ∃ rule ∈ java.rules, m = .labeled m.start m.stop rule.label) ∧
      ∀ start stop, .labeled start stop "keyword" ∈ marks ↔
        (∃ word ∈ javaKeywords, WholeWord text.toList start word.toList ∧ stop = start + word.length) ∧
        ∀ label ∈ ["comment", "string", "char", "annotation"], ∀ first last, .labeled first last label ∈ marks →
          ¬(first ≤ start ∧ stop ≤ last) := by
  obtain ⟨l, hl⟩ := sound_java.builds
  refine ⟨l, hl, fun text => ?_⟩
  obtain ⟨hits, hscan, hmarks⟩ := RuleSet.exists_scans (hl .none) rfl (List.cons_ne_nil _ _) Java.readsPlainly_java
    Java.exprs_eq Java.sure_of_mem text
  have hmem {start stop : Nat} {label : Label} :
      Mark.labeled start stop label ∈ hits.map Hit.mark ↔ ⟨label, start, stop⟩ ∈ hits :=
    List.mem_map_of_injective Hit.mark_injective (a := ⟨label, start, stop⟩)
  refine ⟨_, hmarks, List.forall_mem_map.2 fun y hy => ?_, fun start stop => ?_⟩
  · obtain ⟨n, e, -, -, he, -⟩ := RuleSet.exists_leads_of_mem Java.sure_of_mem hscan hy
    have hlabel : y.what ∈ java.rules.map (·.label) := Java.labels_eq ▸ List.mem_map_of_mem (f := (·.1)) he
    obtain ⟨rule, hrule, hwhat⟩ := List.mem_map.1 hlabel
    exact ⟨rule, hrule, by rw [hwhat]; rfl⟩
  · have hwords : (∃ word ∈ Java.keywords, WholeWord text.toList start word ∧ stop = start + word.length) ↔
        ∃ word ∈ javaKeywords, WholeWord text.toList start word.toList ∧ stop = start + word.length := by
      simp [Java.keywords, String.length_toList]
    rw [hmem, Java.mem_iff hscan, hwords]
    simp only [hmem]
    exact and_congr_right fun _ => ⟨fun h label hlabel first last hin => h ⟨label, first, last⟩ hin hlabel,
      fun h y hy hlabel => h y.what hlabel y.start y.stop hy⟩

example : (RuleSet.firstReading? Java.exprs (.start "double x".toList)).map (fun x => (x.1, x.2.offset)) =
    some ("keyword", 6) := by
  decide +kernel

end Highlight.Builtin
