import Highlight.Proofs.Language.Builtin
import Highlight.Proofs.Language.Scanning

/-!
# INI files are marked line by line

Lines end at line feeds only. At most one piece of a line is marked, and it begins with the line
(`Ini.lineMark?`): what it is depends on the first character that is no space or tab, and on where the first
closing bracket or equals sign stands. So each line of a text is marked as if it were alone
(`Builtin.scan_ini_lines`). All rules begin at the beginning of a line and then pass over spaces and tabs
(`Ini.indented`), and what comes next cannot begin with one of these, so nothing is tried at the blanks
themselves (`Ini.readings_indented`).
-/

namespace Highlight

/-- The same mark in a text with `n` more characters in front. -/
def Mark.shift (n : Nat) (m : Mark) : Mark := { m with start := m.start + n, stop := m.stop + n }

namespace Builtin

open Pattern

namespace Ini

/-! ## What is marked in a line -/

/-- A space or a tab. -/
def isBlank (c : Char) : Bool := c == ' ' || c == '\t'

/-- The label of a line and the number of characters marked, from its beginning. -/
def lineMark? (line : List Char) : Option (Label × Nat) :=
  let indent := (line.takeWhile isBlank).length
  match line.dropWhile isBlank with
  | [] => none
  | c :: rest =>
    if c = '[' then
      let name := (rest.takeWhile (· != ']')).length
      if 0 < name ∧ name < rest.length then some ("section", indent + 1 + name + 1) else none
    else if c = ';' ∨ c = '#' then some ("comment", line.length)
    else if c = '=' ∨ Unicode.isSpace c then none
    else
      let key := (rest.takeWhile (· != '=')).length
      if key < rest.length then some ("key", indent + 1 + key + 1) else none

/-- The marks of some lines, the first of which begins at an offset. -/
def lineMarks (offset : Nat) : List (List Char) → List Mark
  | [] => []
  | line :: lines =>
    ((lineMark? line).map fun (label, n) => .labeled offset (offset + n) label).toList ++
      lineMarks (offset + line.length + 1) lines

theorem lineMarks_append (offset : Nat) (lines more : List (List Char)) :
    lineMarks offset (lines ++ more) =
      lineMarks offset lines ++ lineMarks (offset + (lines.flatten.length + lines.length)) more := by
  induction lines generalizing offset with
  | nil => rfl
  | cons line lines ih =>
    have hoffset : offset + line.length + 1 + (lines.flatten.length + lines.length) =
        offset + ((line :: lines).flatten.length + (line :: lines).length) := by
      rw [List.flatten_cons, List.length_append, List.length_cons]
      omega
    rw [List.cons_append, lineMarks, ih, hoffset, lineMarks, List.append_assoc]

theorem lineMarks_shift (n offset : Nat) (lines : List (List Char)) :
    lineMarks (offset + n) lines = (lineMarks offset lines).map (·.shift n) := by
  induction lines generalizing offset with
  | nil => rfl
  | cons line lines ih =>
    have hoffset : offset + n + line.length + 1 = offset + line.length + 1 + n := by omega
    rw [lineMarks, hoffset, ih, lineMarks, List.map_append]
    cases lineMark? line with
    | none => rfl
    | some x => simp [Mark.shift, Mark.labeled, Nat.add_right_comm]

/-- Lines are as long as the text, with the end of the last one. -/
theorem length_flatten_splitOn (text : List Char) :
    (text.splitOn '\n').flatten.length + (text.splitOn '\n').length = text.length + 1 := by
  induction text with
  | nil => simp
  | cons c text ih =>
    rw [List.splitOn_cons_eq_if_modifyHead]
    split
    · rw [List.flatten_cons, List.nil_append, List.length_cons, List.length_cons]
      omega
    · obtain ⟨line, lines, hsplit⟩ := List.exists_cons_of_ne_nil (List.splitOn_ne_nil '\n' text)
      rw [hsplit, List.flatten_cons, List.length_append, List.length_cons] at ih
      rw [hsplit, List.modifyHead_cons, List.flatten_cons, List.length_append, List.length_cons, List.length_cons,
        List.length_cons]
      omega

theorem lineMark?_le {line : List Char} {label : Label} {n : Nat} (h : lineMark? line = some (label, n)) :
    0 < n ∧ n ≤ line.length := by
  have hlength : line.length = (line.takeWhile isBlank).length + (line.dropWhile isBlank).length := by
    rw [← List.length_append, List.takeWhile_append_dropWhile]
  unfold lineMark? at h
  split at h
  · cases h
  · rename_i hrest
    rw [hrest, List.length_cons] at hlength
    dsimp only at h
    split_ifs at h <;> obtain ⟨-, rfl⟩ := Prod.mk.inj (Option.some.inj h) <;> omega

/-! ## The rules -/

/-- Spaces and tabs. -/
def blanks : CharSet := .ofChars [' ', '\t']

/-- What begins a line, after spaces and tabs. -/
def indented (tail : Expr) : Expr := .seq (.check .lineStart) (.seq (.star (.one blanks)) tail)

/-- All characters but a closing bracket and the end of a line. -/
def inBrackets : CharSet := (CharSet.ofChars [']', '\n']).compl

/-- What a comment begins with. -/
def commentStart : CharSet := .ofChars [';', '#']

/-- What a key begins with. -/
def keyStart : CharSet := (CharSet.space.union (.ofChars ['=', ';', '#', '['])).compl

/-- All characters but the equals sign and the end of a line. -/
def inKey : CharSet := (CharSet.ofChars ['=', '\n']).compl

/-- A name in brackets. -/
def sectionTail : Expr := .seq (.text ['[']) (.seq (.plus (.one inBrackets)) (.text [']']))

/-- A semicolon or a number sign, and all of the line. -/
def commentTail : Expr := .seq (.one commentStart) (.star (.one .notNewline))

/-- A key and the equals sign. -/
def keyTail : Expr := .seq (.one keyStart) (.seq (.star (.one inKey)) (.text ['=']))

/-- The expressions of the rules behind the blanks. -/
def tails : List (Label × Expr) :=
  [("section", sectionTail), ("comment", commentTail), ("key", keyTail)]

/-- The expressions of the rules. -/
def exprs : List (Label × Expr) := tails.map fun x => (x.1, indented x.2)

theorem exprs_eq : ini.rules.map (fun rule => (rule.label, RuleSet.exprOf? rule.pattern.toList)) =
    exprs.map fun x => (x.1, some x.2) := by
  decide +kernel

/-! ## The sets -/

@[simp]
theorem contains_blanks (c : Char) : blanks.contains c = isBlank c := by
  simp [blanks, CharSet.contains_ofChars, isBlank, beq_eq_decide]

@[simp]
theorem contains_inBrackets (c : Char) : inBrackets.contains c = (c != ']' && c != '\n') := by
  simp [inBrackets, CharSet.contains_compl, CharSet.contains_ofChars, bne, beq_eq_decide]

@[simp]
theorem contains_commentStart (c : Char) : commentStart.contains c = (c == ';' || c == '#') := by
  simp [commentStart, CharSet.contains_ofChars, beq_eq_decide]

@[simp]
theorem contains_inKey (c : Char) : inKey.contains c = (c != '=' && c != '\n') := by
  simp [inKey, CharSet.contains_compl, CharSet.contains_ofChars, bne, beq_eq_decide]

@[simp]
theorem contains_keyStart (c : Char) :
    keyStart.contains c = !(Unicode.isSpace c || c == '=' || c == ';' || c == '#' || c == '[') := by
  simp [keyStart, CharSet.contains_compl, CharSet.contains_union, CharSet.contains_space,
    CharSet.contains_ofChars, Bool.and_assoc, beq_eq_decide]

/-! ## Readings -/

section Readings

variable {p q : Cursor} {c : Char} {line rest back : List Char}

/-- Nothing is tried at the blanks a line begins with, for what follows cannot begin with one. -/
theorem readings_indented {tail : Expr}
    (htail : ∀ q c, q.rest.head? = some c → isBlank c → tail.readings q = []) (p : Cursor) :
    (indented tail).readings p =
      if Condition.lineStart.holds p then tail.readings (p.past isBlank) else [] := by
  have hset : blanks.contains = isBlank := funext contains_blanks
  have htail' := Expr.flatMap_star_one blanks (p := p) (f := tail.readings) (by decide) fun _ q c _ _ hq hc =>
    htail q c hq (contains_blanks c ▸ hc)
  rw [indented, Expr.readings, Expr.readings]
  split
  · rw [List.flatMap_singleton, ← hset]
    exact htail'
  · rfl

/-- A text up to a character, if that stands in it. -/
theorem takeWhile_ne_cases (c : Char) (text : List Char) :
    (c ∉ text ∧ text.takeWhile (· != c) = text) ∨
      ∃ front more, text = front ++ c :: more ∧ c ∉ front ∧ text.takeWhile (· != c) = front := by
  have hall {front : List Char} (hfront : c ∉ front) : ∀ d ∈ front, (d != c) = true := fun d hd =>
    bne_iff_ne.2 (ne_of_mem_of_not_mem hd hfront)
  by_cases hc : c ∈ text
  · obtain ⟨front, more, rfl, hfront⟩ := List.eq_append_cons_of_mem hc
    refine .inr ⟨front, more, rfl, hfront, ?_⟩
    rw [List.takeWhile_append_of_pos (hall hfront)]
    simp
  · exact .inl ⟨hc, List.takeWhile_eq_self_iff.2 (hall hc)⟩

/-- A piece without some character `stop` in it, up to the character or the end of the line. -/
theorem readings_to_char {stop : Char} {set : CharSet} (hset : ∀ c, set.contains c = (c != stop && c != '\n'))
    (hstop : stop ≠ '\n') (hq : q.rest = rest ++ back) (hrest : '\n' ∉ rest) (hback : ∀ c ∈ back.head?, c = '\n') :
    (Expr.text [stop]).readings (q.past set.contains) =
      if (rest.takeWhile (· != stop)).length < rest.length then
        [q.skip ((rest.takeWhile (· != stop)).length + 1)]
      else [] := by
  rcases takeWhile_ne_cases stop rest with ⟨hnone, htake⟩ | ⟨front, more, rfl, hfront, htake⟩
  · have hpast : q.past set.contains = q.skip rest.length := Cursor.past_eq hq
      (fun c hc => by
        have := ne_of_mem_of_not_mem hc hnone
        have := ne_of_mem_of_not_mem hc hrest
        simp [*])
      (fun c hc => by simp [hset, hback c hc])
    have hhead : back.head? ≠ some stop := fun h => hstop (hback stop h)
    rw [htake, if_neg (Nat.lt_irrefl _), hpast, Expr.readings_char, Cursor.rest_skip_append hq, if_neg hhead]
  · have hfrontline : '\n' ∉ front := fun h => hrest (List.mem_append_left _ h)
    have hq' : q.rest = front ++ stop :: (more ++ back) := by rw [hq, List.append_assoc, List.cons_append]
    have hpast : q.past set.contains = q.skip front.length := Cursor.past_eq hq'
      (fun c hc => by
        have := ne_of_mem_of_not_mem hc hfront
        have := ne_of_mem_of_not_mem hc hfrontline
        simp [*])
      (fun c hc => by
        obtain rfl : stop = c := by simpa using hc
        simp [hset])
    rw [htake, if_pos (by simp), hpast, Expr.readings_char, Cursor.rest_skip_append hq', List.head?_cons,
      if_pos rfl, Cursor.skip_succ]

variable (hrest : '\n' ∉ rest) (hback : ∀ c ∈ back.head?, c = '\n')

theorem skip_one_add (q : Cursor) (n : Nat) : q.skip (1 + n + 1) = q.next.skip (n + 1) := by
  rw [Nat.add_assoc, Nat.add_comm 1, Cursor.skip]

theorem readings_section_of_head (h : ∀ c ∈ q.rest.head?, c ≠ '[') :
    sectionTail.readings q = [] := by
  exact Expr.readings_seq_of_nil (Expr.readings_text_of_head (fun hq => h _ hq rfl) []) _

include hrest hback in
theorem readings_section (hq : q.rest = '[' :: (rest ++ back)) :
    sectionTail.readings q =
      let name := (rest.takeWhile (· != ']')).length
      if 0 < name ∧ name < rest.length then [q.skip (1 + name + 1)] else [] := by
  have hnext : q.next.rest = rest ++ back := by simp [Cursor.next, hq]
  have hplus := Expr.flatMap_plus_one inBrackets (p := q.next) (f := (Expr.text [']']).readings) (by decide)
    fun r c hr hc => by
      have hne : c ≠ ']' := fun h => by simp [h] at hc
      rw [Expr.readings_char, hr, if_neg (by simpa using hne)]
  have hname : (rest ++ back).head?.any inBrackets.contains ↔ 0 < (rest.takeWhile (· != ']')).length := by
    cases rest with
    | nil =>
      cases back with
      | nil => simp
      | cons c back => simp [hback c rfl]
    | cons c rest =>
      have hc : c ≠ '\n' := fun h => hrest (h ▸ List.mem_cons_self)
      by_cases hstop : c = ']' <;> simp [hstop, hc]
  rw [sectionTail, Expr.readings, Expr.readings_char, hq, List.head?_cons, if_pos rfl, List.flatMap_singleton,
    Expr.readings, hplus, readings_to_char contains_inBrackets (by decide) hnext hrest hback, hnext]
  simp only [hname, ite_and, skip_one_add]

theorem readings_comment_of_head (h : ∀ c ∈ q.rest.head?, c ≠ ';' ∧ c ≠ '#') :
    commentTail.readings q = [] := by
  refine Expr.readings_seq_of_nil (Expr.readings_one_of_head fun c hc => ?_) _
  simpa using h c hc

include hrest hback in
theorem leads_comment (hc : c = ';' ∨ c = '#') (hq : q.rest = c :: (rest ++ back)) :
    commentTail.Leads q (q.skip (1 + rest.length)) := by
  have hnext : q.next.rest = rest ++ back := by simp [Cursor.next, hq]
  have hpast : q.next.past CharSet.notNewline.contains = q.next.skip rest.length := Cursor.past_eq hnext
    (fun d hd => by
      have := ne_of_mem_of_not_mem hd hrest
      simpa [CharSet.contains_notNewline] using this)
    (fun d hd => by simp [CharSet.contains_notNewline, hback d hd])
  have hstar := Expr.leads_star_one .notNewline (by decide) q.next
  rw [hpast] at hstar
  rw [Nat.add_comm, Cursor.skip]
  exact (Expr.leads_one hq (by simpa using hc)).seq hstar

theorem readings_key_of_head (h : ∀ c ∈ q.rest.head?, keyStart.contains c = false) :
    keyTail.readings q = [] := by
  exact Expr.readings_seq_of_nil (Expr.readings_one_of_head h) _

include hrest hback in
theorem readings_key (hc : keyStart.contains c) (hq : q.rest = c :: (rest ++ back)) :
    keyTail.readings q =
      let key := (rest.takeWhile (· != '=')).length
      if key < rest.length then [q.skip (1 + key + 1)] else [] := by
  have hnext : q.next.rest = rest ++ back := by simp [Cursor.next, hq]
  have hstar := Expr.flatMap_star_one inKey (p := q.next) (f := (Expr.text ['=']).readings) (by decide)
    fun _ r c _ _ hr hc => by
      have hne : c ≠ '=' := fun h => by simp [h] at hc
      rw [Expr.readings_char, hr, if_neg (by simpa using hne)]
  rw [keyTail, Expr.readings, Expr.readings_one_of_cons hq, if_pos hc, List.flatMap_singleton, Expr.readings, hstar,
    readings_to_char contains_inKey (by decide) hnext hrest hback]
  simp only [skip_one_add]

/-- Nothing is read where none of the pieces can begin. -/
theorem firstReading?_of_head (hsection : ∀ c ∈ q.rest.head?, c ≠ '[')
    (hcomment : ∀ c ∈ q.rest.head?, c ≠ ';' ∧ c ≠ '#')
    (hkey : ∀ c ∈ q.rest.head?, keyStart.contains c = false) :
    RuleSet.firstReading? tails q = none := by
  rw [tails, RuleSet.firstReading?_cons_of_nil (readings_section_of_head hsection),
    RuleSet.firstReading?_cons_of_nil (readings_comment_of_head hcomment),
    RuleSet.firstReading?_cons_of_nil (readings_key_of_head hkey)]
  rfl

section Pieces

include hrest hback

theorem firstReading?_section (hq : q.rest = '[' :: (rest ++ back)) :
    RuleSet.firstReading? tails q =
      let name := (rest.takeWhile (· != ']')).length
      if 0 < name ∧ name < rest.length then some ("section", q.skip (1 + name + 1)) else none := by
  have hcomment := readings_comment_of_head (q := q) (by simp [hq])
  have hkey := readings_key_of_head (q := q) (by simp [hq])
  rw [tails, RuleSet.firstReading?_cons, readings_section hrest hback hq,
    RuleSet.firstReading?_cons_of_nil hcomment, RuleSet.firstReading?_cons_of_nil hkey]
  dsimp only
  split_ifs <;> rfl

theorem firstReading?_comment (hc : c = ';' ∨ c = '#') (hq : q.rest = c :: (rest ++ back)) :
    RuleSet.firstReading? tails q = some ("comment", q.skip (1 + rest.length)) := by
  have hsection := readings_section_of_head (q := q) (by rcases hc with rfl | rfl <;> simp [hq])
  rw [tails, RuleSet.firstReading?_cons_of_nil hsection,
    RuleSet.firstReading?_cons_of_leads (leads_comment hrest hback hc hq)]

theorem firstReading?_key (hc : keyStart.contains c) (hq : q.rest = c :: (rest ++ back)) :
    RuleSet.firstReading? tails q =
      let key := (rest.takeWhile (· != '=')).length
      if key < rest.length then some ("key", q.skip (1 + key + 1)) else none := by
  have hstart : ((c ≠ ';' ∧ c ≠ '#') ∧ c ≠ '[') := by
    simp only [contains_keyStart, Bool.not_eq_true', Bool.or_eq_false_iff, beq_eq_false_iff_ne] at hc
    exact ⟨⟨hc.1.1.2, hc.1.2⟩, hc.2⟩
  have hsection := readings_section_of_head (q := q) (by simpa [hq] using hstart.2)
  have hcomment := readings_comment_of_head (q := q) (by simpa [hq] using hstart.1)
  rw [tails, RuleSet.firstReading?_cons_of_nil hsection, RuleSet.firstReading?_cons_of_nil hcomment,
    RuleSet.firstReading?_cons, readings_key hrest hback hc hq]
  dsimp only
  split_ifs <;> rfl

end Pieces

include hback in
/-- What is read at the beginning of a line is what is marked in it. -/
theorem firstReading?_tails (hline : '\n' ∉ line) (hp : p.rest = line ++ back) :
    RuleSet.firstReading? tails (p.past isBlank) = (lineMark? line).map fun x => (x.1, p.skip x.2) := by
  have hbackblank : ∀ c ∈ back.head?, isBlank c = false := fun c hc => by rw [hback c hc]; rfl
  obtain ⟨hpast, hrest⟩ := Cursor.past_append hp hbackblank
  have hlength : line.length = (line.takeWhile isBlank).length + (line.dropWhile isBlank).length := by
    rw [← List.length_append, List.takeWhile_append_dropWhile]
  have hskip (n : Nat) : (p.past isBlank).skip n = p.skip ((line.takeWhile isBlank).length + n) := by
    rw [hpast, Cursor.skip_add]
  have hsub : ∀ c ∈ line.dropWhile isBlank, c ≠ '\n' := fun c hc =>
    ne_of_mem_of_not_mem ((List.dropWhile_sublist _).subset hc) hline
  unfold lineMark?
  cases hdrop : line.dropWhile isBlank with
  | nil =>
    have hhead : ∀ c ∈ (p.past isBlank).rest.head?, c = '\n' := by rwa [hrest, hdrop, List.nil_append]
    exact firstReading?_of_head (fun c h => by rw [hhead c h]; decide)
      (fun c h => by rw [hhead c h]; decide) (fun c h => by rw [hhead c h]; decide)
  | cons c rest =>
    rw [hdrop, List.cons_append] at hrest
    rw [hdrop, List.length_cons] at hlength
    rw [hdrop] at hsub
    have hnot : '\n' ∉ rest := fun h => hsub _ (List.mem_cons_of_mem c h) rfl
    dsimp only
    by_cases hsection : c = '['
    · subst hsection
      rw [if_pos rfl, firstReading?_section hnot hback hrest]
      dsimp only
      split_ifs <;> simp [hskip, Nat.add_assoc]
    by_cases hcomment : c = ';' ∨ c = '#'
    · rw [if_neg hsection, if_pos hcomment, firstReading?_comment hnot hback hcomment hrest, hskip,
        Nat.add_comm 1, ← hlength]
      rfl
    rw [if_neg hsection, if_neg hcomment]
    by_cases hkey : c = '=' ∨ Unicode.isSpace c
    · have hnone : keyStart.contains c = false := by
        rcases hkey with rfl | hspace
        · decide
        · simp [hspace]
      rw [if_pos hkey, firstReading?_of_head (by simpa [hrest] using hsection)
        (by simpa [hrest, not_or] using hcomment) (by simpa [hrest] using hnone)]
      rfl
    · obtain ⟨hequals, hspace⟩ := not_or.1 hkey
      have hstart : keyStart.contains c := by
        simp [hequals, hspace, not_or.1 hcomment, hsection]
      rw [if_neg hkey, firstReading?_key hnot hback hstart hrest]
      dsimp only
      split_ifs <;> simp [hskip, Nat.add_assoc]

end Readings

/-! ## Scanning -/

theorem readings_tail_of_blank : ∀ x ∈ tails, ∀ (q : Cursor) c, q.rest.head? = some c → isBlank c →
    x.2.readings q = [] := by
  have hblank {c : Char} (hc : isBlank c) : c = ' ' ∨ c = '\t' := by simpa [isBlank] using hc
  refine List.forall_mem_cons.2 ⟨fun q c hq hc => ?_, List.forall_mem_cons.2 ⟨fun q c hq hc => ?_,
    List.forall_mem_singleton.2 fun q c hq hc => ?_⟩⟩
  · exact readings_section_of_head (by rcases hblank hc with rfl | rfl <;> simp [hq])
  · exact readings_comment_of_head (by rcases hblank hc with rfl | rfl <;> simp [hq])
  · exact readings_key_of_head (by rcases hblank hc with rfl | rfl <;> simp [hq] <;> decide)

/-- Something is read at the beginning of a line only. -/
theorem firstReading?_exprs (p : Cursor) :
    RuleSet.firstReading? exprs p =
      if Condition.lineStart.holds p then RuleSet.firstReading? tails (p.past isBlank) else none := by
  rw [exprs, RuleSet.firstReading?, List.findSome?_map, List.findSome?_congr fun x hx => by
    rw [Function.comp_apply, readings_indented (readings_tail_of_blank x hx)]]
  split
  · rfl
  · exact List.findSome?_eq_none_iff.2 fun _ _ => rfl

/-- A position within a line. -/
theorem not_lineStart {p : Cursor} {line back : List Char} (hp : p.rest = line ++ back) (hline : '\n' ∉ line)
    {n : Nat} (hpos : 0 < n) (hn : n ≤ line.length) : Condition.lineStart.holds (p.skip n) = false := by
  have hsplit : p.rest = line.take n ++ (line.drop n ++ back) := by
    rw [← List.append_assoc, List.take_append_drop, hp]
  have hlength : (line.take n).length = n := by rw [List.length_take, Nat.min_eq_left hn]
  have hne : line.take n ≠ [] := List.ne_nil_of_length_pos (by omega)
  have hlast : (line.take n).getLast hne ≠ '\n' :=
    ne_of_mem_of_not_mem ((List.take_sublist n line).subset (List.getLast_mem hne)) hline
  have hbefore := Cursor.before_skip hsplit
  rw [hlength, List.getLast?_eq_some_getLast hne, Option.some_or] at hbefore
  simp [Condition.holds, hbefore, hlast]

variable {p : Cursor} {line back : List Char}

/-- A line is scanned up to its end, and what is found is what is marked in it. -/
theorem scans_line (hstart : Condition.lineStart.holds p) (hp : p.rest = line ++ back) (hline : '\n' ∉ line)
    (hback : ∀ c ∈ back.head?, c = '\n') {hits : List (Hit Label)}
    (hmore : RuleSet.firstReading? exprs (p.skip line.length) = none →
      Scans (RuleSet.firstReading? exprs) (p.skip line.length) hits) :
    Scans (RuleSet.firstReading? exprs) p
      (((lineMark? line).map fun x => ⟨x.1, p.offset, p.offset + x.2⟩).toList ++ hits) := by
  have hfirst : RuleSet.firstReading? exprs p = (lineMark? line).map fun x => (x.1, p.skip x.2) := by
    rw [firstReading?_exprs, if_pos hstart, firstReading?_tails hback hline hp]
  have hrest {n : Nat} (hpos : 0 < n) (hn : n ≤ line.length) :
      RuleSet.firstReading? exprs (p.skip n) = none := by
    rw [firstReading?_exprs, not_lineStart hp hline hpos hn]
    rfl
  have hlength : line.length ≤ p.rest.length := by
    rw [hp, List.length_append]
    exact Nat.le_add_right ..
  cases hmark : lineMark? line with
  | none =>
    rw [hmark] at hfirst
    have hnone {n : Nat} (hn : n ≤ line.length) : RuleSet.firstReading? exprs (p.skip n) = none := by
      rcases Nat.eq_zero_or_pos n with rfl | hpos
      · exact hfirst
      · exact hrest hpos hn
    exact .of_skip hlength (fun n hn => hnone (Nat.le_of_lt hn)) (hmore (hnone (Nat.le_refl _)))
  | some x =>
    obtain ⟨label, n⟩ := x
    obtain ⟨hpos, hn⟩ := lineMark?_le hmark
    rw [hmark, Option.map_some] at hfirst
    have hskip (m : Nat) : (p.skip n).skip m = p.skip (n + m) := (Cursor.skip_add p n m).symm
    show Scans _ p (⟨label, p.offset, p.offset + n⟩ :: hits)
    rw [← Cursor.offset_skip (Nat.le_trans hn hlength)]
    refine .hit hfirst (.of_skip (n := line.length - n) ?_ (fun m hm => ?_) ?_)
    · rw [Cursor.length_rest_skip]
      omega
    · rw [hskip]
      exact hrest (by omega) (by omega)
    · rw [hskip, Nat.add_sub_cancel' hn]
      exact hmore (hrest (by omega) (Nat.le_refl _))

theorem map_mark_append (offset : Nat) (line : List Char) (lines : List (List Char)) :
    ((lineMark? line).map fun x => ⟨x.1, offset, offset + x.2⟩).toList.map Hit.mark ++
      lineMarks (offset + line.length + 1) lines = lineMarks offset (line :: lines) := by
  rw [lineMarks]
  cases lineMark? line <;> rfl

/-- What is found from the beginning of a line on is what is marked in this line and those behind it. -/
theorem scans_lines (hstart : Condition.lineStart.holds p) :
    ∃ hits, Scans (RuleSet.firstReading? exprs) p hits ∧
      hits.map Hit.mark = lineMarks p.offset (p.rest.splitOn '\n') := by
  induction hn : p.rest.length using Nat.strong_induction_on generalizing p with
  | h n ih =>
    subst hn
    by_cases hmem : '\n' ∈ p.rest
    · obtain ⟨line, more, hp, hline⟩ := List.eq_append_cons_of_mem hmem
      have hend : (p.skip line.length).rest = '\n' :: more := Cursor.rest_skip_append hp
      have hnext : (p.skip line.length).next.rest = more := by simp [Cursor.next, hend]
      have hoffset : (p.skip line.length).next.offset = p.offset + line.length + 1 := by
        have hle : line.length ≤ p.rest.length := by simp [hp]
        simp [Cursor.next, hend, Cursor.offset_skip hle]
      have hless : more.length < p.rest.length := by
        rw [hp, List.length_append, List.length_cons]
        omega
      obtain ⟨hits, hscan, hhits⟩ := ih more.length hless (p := (p.skip line.length).next)
        (by simp [Cursor.next, hend, Condition.holds]) (by rw [hnext])
      refine ⟨_, scans_line hstart hp hline (by simp) fun hnone => .skip (by simp [hend]) hnone hscan, ?_⟩
      rw [List.map_append, hhits, hnext, hoffset, map_mark_append, hp, List.splitOn_append_cons_self,
        List.splitOn_eq_singleton hline, List.singleton_append]
    · have hp : p.rest = p.rest ++ [] := (List.append_nil _).symm
      refine ⟨_, scans_line hstart hp hmem (by simp) fun hnone => .last ?_ hnone, ?_⟩
      · exact Cursor.rest_skip_append hp
      · rw [List.append_nil, List.splitOn_eq_singleton hmem, ← map_mark_append]
        exact (List.append_nil _).symm

end Ini

/-- The marks of an INI file are those of its lines, each as if it were alone. -/
theorem exists_scan_ini : ∃ l, (∀ properties, ini.build properties = .ok l) ∧
    ∀ text : String, l.scan text = .ok (Ini.lineMarks 0 (text.toList.splitOn '\n')) := by
  obtain ⟨l, hl⟩ := sound_ini.builds
  refine ⟨l, hl, fun text => ?_⟩
  obtain ⟨hits, hscan, hmarks⟩ := RuleSet.exists_scans (hl .none) rfl (List.cons_ne_nil _ _) (by decide +kernel)
    Ini.exprs_eq (by decide +kernel) text
  obtain ⟨hits', hscan', hmarks'⟩ := Ini.scans_lines (p := .start text.toList) rfl
  rw [hmarks, hscan.unique hscan', hmarks']
  rfl

/-- Every line of an INI file is marked by itself, in one piece at most that begins with the line, whatever
stands before it and behind it. So the marks of two texts with a line feed between them are those of the first
text and those of the second one, moved behind the first text and the line feed. -/
theorem scan_ini_lines : ∃ l, (∀ properties, ini.build properties = .ok l) ∧
    (∀ text : String, l.scan text = .ok (Ini.lineMarks 0 (text.toList.splitOn '\n'))) ∧
    ∀ a b : String, ∃ as bs, l.scan a = .ok as ∧ l.scan b = .ok bs ∧
      l.scan (a ++ "\n" ++ b) = .ok (as ++ bs.map (·.shift (a.length + 1))) := by
  obtain ⟨l, hl, hscan⟩ := exists_scan_ini
  refine ⟨l, hl, hscan, fun a b => ⟨_, _, hscan a, hscan b, ?_⟩⟩
  have hlines : (a ++ "\n" ++ b).toList.splitOn '\n' = a.toList.splitOn '\n' ++ b.toList.splitOn '\n' := by
    have htext : (a ++ "\n" ++ b).toList = a.toList ++ '\n' :: b.toList := by simp
    rw [htext, List.splitOn_append_cons_self]
  rw [hscan, hlines, Ini.lineMarks_append, Ini.length_flatten_splitOn, String.length_toList, Ini.lineMarks_shift]

/-- Brackets without a name are no section and no key either, and a carriage return or another blank of the
Unicode standard is no indent. -/
example : ["\t[a]b] ; c=d", "[]a]=b", " a;b=c=d", "\ra=b", "\u00A0a=b", " =b"].map (Ini.lineMark? ·.toList) =
    [some ("section", 4), none, some ("key", 5), none, none, none] := by
  decide +kernel

end Builtin

end Highlight
