import Mathlib.Data.Bool.AllAny
import Mathlib.Data.List.TakeWhile
import Highlight.Contributor.OccurrenceScan
import Highlight.Proofs.Language.ByteScan
import Highlight.Proofs.Pattern.Properties
import Highlight.Proofs.Pattern.Words
import Highlight.Proofs.Spans.Marks

/-!
# Which words are occurrences

An identifier is a whole word in the sense of the Unicode standard that consists of Latin letters, digits and
low lines and begins with no digit (`Identifier`). The expression that looks for identifiers finds all of them
and nothing else (`Word.mem_all_iff`): next to a letter of another script it goes back without an end at a
boundary, and so reads nothing (`Word.readings_expr`). A scan by bytes, with the words as labels for the time
being, contributes the same (`scanOccurrences_eq`). One identifier at most is at the caret, and its occurrences
are labelled (`caretOccurrences_marks`).
-/

namespace Highlight

open Pattern
open Unicode (isWordChar)

/-- An identifier of a text, and where it begins. -/
structure Identifier (text : List Char) (start : Nat) (word : List Char) : Prop where
  whole : WholeWord text start word
  chars : ∀ c ∈ word, isIdentifierChar c
  head : ∀ c ∈ word.head?, c.isDigit = false

namespace Word

/-! ## The expression -/

theorem expr_eq : expr = .seq (.check .wordBoundary) (.seq (.one .letters)
    (.seq (.star (.one .identifierChars)) (.check .wordBoundary))) := rfl

/-- The expression is what the text of the pattern is read as, whatever properties are known. -/
theorem expr_of_parse (properties : Properties) :
    (Pattern.parse properties pattern.source).toOption.map (·.expr) = some pattern.expr := by
  have hread : (Pattern.parse .none pattern.source).toOption.map (·.expr) = some pattern.expr := by
    decide +kernel
  cases hp : Pattern.parse .none pattern.source with
  | error e => rw [hp] at hread; cases hread
  | ok p => rwa [parse_mono (Properties.none_le properties) hp, ← hp]

/-- What is read is all of the characters of identifiers that there are, if that is a whole word. -/
theorem readings_expr (p : Cursor) :
    expr.readings p =
      if p.rest.head?.any CharSet.letters.contains ∧ p.wordBefore = false ∧
          (p.past isIdentifierChar).wordAfter = false then
        [p.past isIdentifierChar]
      else [] := by
  have hset : CharSet.identifierChars.contains = isIdentifierChar := funext CharSet.contains_identifierChars
  rw [expr_eq, Expr.readings_check_seq]
  by_cases hhead : p.rest.head?.any CharSet.letters.contains
  · obtain ⟨c, hfirst, hc⟩ := (Option.any_eq_true _ _).1 hhead
    obtain ⟨rest, hp⟩ := List.head?_eq_some_iff.1 hfirst
    have hchar := (CharSet.contains_letters_iff.1 hc).1
    have hword := isWordChar_of_isIdentifierChar hchar
    have hboundary : Condition.wordBoundary.holds p = !p.wordBefore := by
      simp [Condition.holds, Cursor.wordAfter, hp, hword]
    have hreads := Cursor.reads_next hp
    -- Within the characters of identifiers there is no boundary.
    have hstar := Expr.flatMap_star_one .identifierChars (p := p.next)
      (f := (Expr.check .wordBoundary).readings) (by decide) fun cs q d hcs hall hd hident => by
        rw [CharSet.contains_identifierChars] at hident
        have hbefore : q.wordBefore := (hreads.trans hcs).wordBefore (List.cons_ne_nil _ _)
          (List.forall_mem_cons.2 ⟨hword, fun x hx =>
            isWordChar_of_isIdentifierChar (CharSet.contains_identifierChars x ▸ hall x hx)⟩)
        have hafter : q.wordAfter := by simp [Cursor.wordAfter, hd, isWordChar_of_isIdentifierChar hident]
        simp [Expr.readings, Condition.holds, hbefore, hafter]
    have hlast : (p.past isIdentifierChar).wordBefore := by
      refine (p.reads_past isIdentifierChar).wordBefore ?_ fun d hd =>
        isWordChar_of_isIdentifierChar (List.mem_takeWhile_imp hd)
      rw [hp, List.takeWhile_cons_of_pos hchar]
      exact List.cons_ne_nil _ _
    rw [hset, ← Cursor.past_next hp hchar] at hstar
    rw [hboundary, Expr.readings, Expr.readings_one_of_cons hp, if_pos hc, List.flatMap_singleton, Expr.readings, hstar,
      Expr.readings]
    cases p.wordBefore <;> simp [Condition.holds, hlast, hhead]
  · have hnone : (Expr.one .letters).readings p = [] := by simp [Expr.readings, Cursor.read?, hhead]
    rw [Expr.readings_seq_of_nil hnone, ite_self, if_neg fun h => hhead h.1]

/-- What the expression reads from a position of a text on is the identifier there. -/
theorem find_expr_iff {text : List Char} {n : Nat} (hn : n ≤ text.length) {t : String} {q : Cursor} :
    expr.find ((Cursor.start text).skip n) = some (t, q) ↔
      ∃ word, Identifier text n word ∧ t = .ofList word ∧ q = (Cursor.start text).skip (n + word.length) := by
  generalize hp : (Cursor.start text).skip n = p
  have hlength : p.rest.length + n = text.length := by
    rw [← hp, Cursor.length_rest_skip]
    exact Nat.sub_add_cancel hn
  have hstop {word : List Char} : (Cursor.start text).skip (n + word.length) = p.skip word.length := by
    rw [Cursor.skip_add, hp]
  have htext {word : List Char} {q : Cursor} (h : p.Reads word q) : p.textTo q = .ofList word := by
    rw [Cursor.textTo, h.offset, Nat.add_sub_cancel_left, h.take]
  rw [Expr.find, readings_expr]
  constructor
  · intro h
    split at h
    case isFalse => cases h
    case isTrue hhere =>
      obtain ⟨hhead, hbefore, hafter⟩ := hhere
      cases h
      have hreads := p.reads_past isIdentifierChar
      have hchars : ∀ c ∈ p.rest.takeWhile isIdentifierChar, isIdentifierChar c := fun c hc =>
        List.mem_takeWhile_imp hc
      obtain ⟨c, hfirst, hc⟩ := (Option.any_eq_true _ _).1 hhead
      obtain ⟨rest, hrest⟩ := List.head?_eq_some_iff.1 hfirst
      obtain ⟨hident, hdigit⟩ := CharSet.contains_letters_iff.1 hc
      have hword : p.rest.takeWhile isIdentifierChar = c :: rest.takeWhile isIdentifierChar := by
        rw [hrest, List.takeWhile_cons_of_pos hident]
      refine ⟨p.rest.takeWhile isIdentifierChar, ⟨?_, hchars, ?_⟩, htext hreads, hreads.stop.trans hstop.symm⟩
      · refine .of_cursor hn (by rw [hp]; exact hreads.rest) (hword ▸ List.cons_ne_nil _ _)
          (fun c hc => isWordChar_of_isIdentifierChar (hchars c hc)) (by rw [hp]; exact hbefore) ?_
        exact Cursor.wordAfter_eq_false_iff.1 hafter
      · rw [hword]
        rintro _ ⟨⟩
        exact hdigit
  · rintro ⟨word, ⟨hwhole, hchars, hdigit⟩, rfl, rfl⟩
    obtain ⟨back, hrest, hbefore, hback⟩ := hwhole.cursor
    rw [hp] at hrest hbefore
    have hreads := Cursor.reads_append hrest
    have hpast : p.past isIdentifierChar = p.skip word.length := Cursor.past_eq hrest hchars fun c hc =>
      Bool.eq_false_iff.2 fun hident => by cases (isWordChar_of_isIdentifierChar hident).symm.trans (hback c hc)
    have hafter : (p.skip word.length).wordAfter = false :=
      Cursor.wordAfter_eq_false_iff.2 (Cursor.rest_skip_append hrest ▸ hback)
    have hhead : p.rest.head?.any CharSet.letters.contains := by
      cases word with
      | nil => cases hwhole.length_pos
      | cons c word =>
        rw [hrest]
        exact CharSet.contains_letters_iff.2 ⟨hchars c List.mem_cons_self, hdigit c rfl⟩
    rw [hpast, if_pos ⟨hhead, hbefore, hafter⟩, hstop, ← htext hreads]
    rfl

/-! ## All identifiers -/

/-- A word as what a scan finds. -/
def hit (w : Word) : Hit String := ⟨w.text, w.start, w.stop⟩

theorem hit_injective : Function.Injective hit := by
  rintro ⟨⟩ ⟨⟩ ⟨⟩
  rfl

theorem scans_all (text : String) : Scans expr.find (.start text.toList) ((all text).map hit) := by
  rw [all, List.map_map]
  exact Expr.scans_findAll (by decide) (by decide) text

theorem forward_find_expr : Forward expr.find := Expr.forward_find (by decide)

/-- What is found is an identifier. -/
theorem exists_identifier_of_mem {text : String} {w : Word} (hw : w ∈ all text) :
    ∃ word, Identifier text.toList w.start word ∧ w.stop = w.start + word.length ∧ w.text = .ofList word := by
  obtain ⟨n, hn, hstop, hfind⟩ :=
    (scans_all text).exists_find_start forward_find_expr (List.mem_map_of_mem (f := hit) hw)
  obtain ⟨word, hword, htext, hskip⟩ := (find_expr_iff (Nat.le_of_add_right_le hn)).1 hfind
  exact ⟨word, hword, hstop.trans (Cursor.skip_inj (p := .start text.toList) hn hword.whole.add_le hskip), htext⟩

/-- All identifiers of a text are found, and they alone. -/
theorem mem_all_iff {text : String} {w : Word} : w ∈ all text ↔
    ∃ word, Identifier text.toList w.start word ∧ w.stop = w.start + word.length ∧ w.text = .ofList word := by
  refine ⟨exists_identifier_of_mem, ?_⟩
  rintro ⟨word, hword, hstop, htext⟩
  have hle := hword.whole.add_le
  have hfind := (find_expr_iff (Nat.le_of_add_right_le hle)).2 ⟨word, hword, rfl, rfl⟩
  -- No identifier lies across the beginning of another one.
  have hmem := (scans_all text).mem_of_find_start forward_find_expr hle hfind fun y hy hlt => by
    obtain ⟨v, hv, rfl⟩ := List.mem_map.1 hy
    obtain ⟨word', hword', hstop', -⟩ := exists_identifier_of_mem hv
    rw [hit, hstop']
    exact Nat.le_of_lt (hword'.whole.not_within hword.whole hlt)
  rw [← hstop, ← htext] at hmem
  exact (List.mem_map_of_injective hit_injective).1 hmem

theorem sorted_all (text : String) : (all text).Pairwise fun v w => v.start ≤ w.start := by
  obtain ⟨hlt, hsorted⟩ := (scans_all text).sorted forward_find_expr
  refine (List.pairwise_map.1 hsorted).imp_of_mem fun hv _ hle => ?_
  exact Nat.le_trans (Nat.le_of_lt (hlt _ (List.mem_map_of_mem hv))) hle

/-- A word as the mark that a scan makes of it, labelled with its own text. -/
def ownMark (w : Word) : Mark := .labeled w.start w.stop w.text

/-- A scan by bytes finds the words at the same places. -/
theorem scanBytes_found (text : String) :
    scanBytes text (fun m => .ok (some m.text)) (pattern.found text) = .ok ((all text).map ownMark) := by
  rw [pattern.scanBytes_found (fun _ m => .ok (some m.text)) text, Pattern.scan,
    marksOf_eq_ok fun m _ => ⟨some m.text, rfl⟩, all, List.map_map]
  exact congrArg Except.ok (congrFun List.filterMap_eq_map' _)

end Word

/-! ## Labels at the caret -/

section

variable {label : Label} {worker : String} {s : Snapshot} {start : Nat} {word : List Char}

/-- An identifier that the caret stands in or touches. -/
structure IdentifierAt (text : List Char) (caret start : Nat) (word : List Char) : Prop
    extends Identifier text start word where
  le : start ≤ caret
  ge : caret ≤ start + word.length

/-- Over an offset there is an occurrence of a word. -/
def Occurs (text word : List Char) (o : Nat) : Prop := ∃ b, Identifier text b word ∧ b ≤ o ∧ o < b + word.length

theorem IdentifierAt.eq {text word' : List Char} {caret start' : Nat} (h : IdentifierAt text caret start word)
    (h' : IdentifierAt text caret start' word') : start = start' ∧ word = word' := by
  have := h.le
  have := h.ge
  have := h'.le
  have := h'.ge
  rcases h.whole.eq_or_apart h'.whole with heq | hlt | hlt
  · exact heq
  · omega
  · omega

/-- The word at the caret is the one that is found to touch it. -/
theorem find?_of_identifierAt (h : IdentifierAt s.text.toList s.caret start word) :
    (Word.all s.text).find? (·.touches s.caret) = some ⟨start, start + word.length, .ofList word⟩ := by
  have hmem : (⟨start, start + word.length, .ofList word⟩ : Word) ∈ Word.all s.text :=
    Word.mem_all_iff.2 ⟨word, h.toIdentifier, rfl, rfl⟩
  have htouches : (⟨start, start + word.length, .ofList word⟩ : Word).touches s.caret := by
    simp [Word.touches, h.le, h.ge]
  obtain ⟨⟨b, e, t⟩, hw⟩ := Option.isSome_iff_exists.1
    (List.find?_isSome (p := (·.touches s.caret)).2 ⟨_, hmem, htouches⟩)
  obtain ⟨word', hword', hstop, htext⟩ := Word.mem_all_iff.1 (List.mem_of_find?_eq_some hw)
  have hcaret : b ≤ s.caret ∧ s.caret ≤ e := by simpa [Word.touches] using List.find?_some hw
  simp only at hword' hstop htext
  obtain ⟨rfl, rfl⟩ := h.eq ⟨hword', hcaret.1, hstop ▸ hcaret.2⟩
  rw [hw, hstop, htext]

theorem find?_eq_none_of_not_identifierAt (h : ∀ start word, ¬IdentifierAt s.text.toList s.caret start word) :
    (Word.all s.text).find? (·.touches s.caret) = none := by
  refine List.find?_eq_none.2 fun w hw htouches => ?_
  obtain ⟨word, hword, hstop, -⟩ := Word.mem_all_iff.1 hw
  have hcaret : w.start ≤ s.caret ∧ s.caret ≤ w.stop := by simpa [Word.touches] using htouches
  exact h _ word ⟨hword, hcaret.1, hstop ▸ hcaret.2⟩

/-- With all that may fail in it, the scan contributes the same. -/
theorem scanOccurrences_eq (label : Label) (worker : String) (s : Snapshot) :
    scanOccurrences label s (Word.pattern.found s.text) =
      .ok ((Contributor.caretOccurrences label).contribute worker s).spans := by
  have hlabels (v w : Word) : (v.ownMark.labels == w.ownMark.labels) = (v.text == w.text) := by
    rw [Bool.eq_iff_iff, beq_iff_eq, beq_iff_eq]
    simp [Word.ownMark, Mark.labeled, Labels.single]
  -- A mark touches the caret as its word does.
  have hfind : ((Word.all s.text).map Word.ownMark).find? (fun m => m.start ≤ s.caret && s.caret ≤ m.stop) =
      ((Word.all s.text).find? (·.touches s.caret)).map Word.ownMark := List.find?_map ..
  rw [scanOccurrences, Word.scanBytes_found]
  refine congrArg Except.ok ?_
  simp only [Mark.likeAtCaret, hfind, Contributor.caretOccurrences, Contributor.ofSpans, Spans.layMarks_eq_ofMarks]
  cases (Word.all s.text).find? (·.touches s.caret) with
  | none => rfl
  | some current =>
    have hequal : ((Word.all s.text).map Word.ownMark).filter (·.labels == current.ownMark.labels) =
        ((Word.all s.text).filter (·.text == current.text)).map Word.ownMark := by
      rw [List.filter_map]
      exact congrArg (List.map Word.ownMark) (List.filter_congr fun w _ => hlabels w current)
    simp only [Option.map_some, hequal, List.map_map]
    rfl

/-- The marks of the words that equal the one at the caret label its occurrences and nothing else. -/
theorem labelsAt_of_occurrences {name : String} {spans : Spans} (hname : name = .ofList word)
    (h : Spans.ofMarks (((Word.all s.text).filter (·.text == name)).map fun w => .labeled w.start w.stop label)
      s.length = .ok spans) {o : Nat} (ho : o < s.length) :
    (Occurs s.text.toList word o → spans.labelsAt o = some (.single label)) ∧
      (¬Occurs s.text.toList word o → spans.labelsAt o = some .empty) := by
  have hsorted : (((Word.all s.text).filter (·.text == name)).map fun w =>
      Mark.labeled w.start w.stop label).Pairwise fun m n => m.start ≤ n.start :=
    List.pairwise_map.2 ((Word.sorted_all s.text).filter _)
  have hover (w : Word) : (w ∈ (Word.all s.text).filter (·.text == name) ∧ w.start ≤ o ∧ o < w.stop) ↔
      Identifier s.text.toList w.start word ∧ w.stop = w.start + word.length ∧ w.text = name ∧
        w.start ≤ o ∧ o < w.start + word.length := by
    rw [List.mem_filter, Word.mem_all_iff, beq_iff_eq]
    constructor
    · rintro ⟨⟨⟨word', hword', hstop, htext⟩, heq⟩, hle, hlt⟩
      obtain rfl : word' = word := String.ofList_injective (by rw [← htext, heq, hname])
      exact ⟨hword', hstop, heq, hle, hstop ▸ hlt⟩
    · rintro ⟨hword', hstop, heq, hle, hlt⟩
      exact ⟨⟨⟨word, hword', hstop, heq.trans hname⟩, heq⟩, hle, hstop ▸ hlt⟩
  rw [Spans.labelsAt_of_ofMarks h ho, markedAt_of_sorted ho hsorted, List.find?_map]
  cases hfind : ((Word.all s.text).filter (·.text == name)).find? _ with
  | none =>
    refine ⟨fun ⟨b, hword', hle, hlt⟩ => ?_, fun _ => rfl⟩
    obtain ⟨hmem, hat⟩ := (hover ⟨b, b + word.length, name⟩).2 ⟨hword', rfl, rfl, hle, hlt⟩
    exact absurd (decide_eq_true hat) (List.find?_eq_none.1 hfind _ hmem)
  | some w =>
    have hat : w.start ≤ o ∧ o < w.stop := by simpa [Mark.labeled] using List.find?_some hfind
    obtain ⟨hword', -, -, hle, hlt⟩ := (hover w).1 ⟨List.mem_of_find?_eq_some hfind, hat⟩
    exact ⟨fun _ => rfl, fun hnone => absurd ⟨w.start, hword', hle, hlt⟩ hnone⟩

/-- One identifier at most is at the caret. The scan by bytes runs through and contributes what the words
themselves do: spans as long as the text, in which exactly the characters of the occurrences of that identifier
are labelled, in whole words only, and no character if there is no identifier at the caret. -/
theorem caretOccurrences_marks (label : Label) (worker : String) {s : Snapshot} (hmax : s.length ≤ maxLength) :
    (∀ start start' word word', IdentifierAt s.text.toList s.caret start word →
      IdentifierAt s.text.toList s.caret start' word' → start = start' ∧ word = word') ∧
    ∃ spans, scanOccurrences label s (Word.pattern.found s.text) = .ok (.ok spans) ∧
      ((Contributor.caretOccurrences label).contribute worker s).spans = .ok spans ∧
      spans.length = s.length ∧
      (∀ start word, IdentifierAt s.text.toList s.caret start word → ∀ o < s.length,
        (Occurs s.text.toList word o → spans.labelsAt o = some (.single label)) ∧
        (¬Occurs s.text.toList word o → spans.labelsAt o = some .empty)) ∧
      ((∀ start word, ¬IdentifierAt s.text.toList s.caret start word) → spans = .plain s.length) := by
  refine ⟨fun _ _ _ _ h h' => h.eq h', ?_⟩
  rw [scanOccurrences_eq label worker]
  by_cases hexists : ∃ start word, IdentifierAt s.text.toList s.caret start word
  · obtain ⟨start, word, hat⟩ := hexists
    obtain ⟨spans, hspans⟩ := Spans.exists_ofMarks (((Word.all s.text).filter (·.text == .ofList word)).map
      fun w => .labeled w.start w.stop label) hmax
    have hcontributed : ((Contributor.caretOccurrences label).contribute worker s).spans = .ok spans := by
      simp only [Contributor.caretOccurrences, Contributor.ofSpans, find?_of_identifierAt hat, hspans]
    refine ⟨spans, congrArg _ hcontributed, hcontributed, Spans.length_of_ofMarks hspans,
      fun start' word' hat' o ho => ?_, fun hnone => absurd hat (hnone start word)⟩
    obtain ⟨rfl, rfl⟩ := hat.eq hat'
    exact labelsAt_of_occurrences rfl hspans ho
  · have hnone : ∀ start word, ¬IdentifierAt s.text.toList s.caret start word := fun start word hat =>
      hexists ⟨start, word, hat⟩
    have hcontributed : ((Contributor.caretOccurrences label).contribute worker s).spans = .ok (.plain s.length) := by
      simp only [Contributor.caretOccurrences, Contributor.ofSpans, find?_eq_none_of_not_identifierAt hnone]
    exact ⟨_, congrArg _ hcontributed, hcontributed, Spans.length_plain _,
      fun start word hat => absurd hat (hnone start word), fun _ => rfl⟩

/-- The caret behind a word that stands once more in the text, once with a letter of no identifier behind it
and once with a digit. -/
theorem caretOccurrences_marks_accent :
    let s : Snapshot := ⟨"doé do do1 do", 6, none, 0⟩
    s.length ≤ maxLength ∧ IdentifierAt s.text.toList s.caret 4 ['d', 'o'] ∧
      ∃ spans, scanOccurrences "same" s (Word.pattern.found s.text) = .ok (.ok spans) ∧ spans.length = 13 ∧
        spans.labelsAt 0 = some .empty ∧ spans.labelsAt 4 = some (.single "same") ∧
        spans.labelsAt 7 = some .empty ∧ spans.labelsAt 12 = some (.single "same") := by
  intro s
  have hchars : s.text.toList = ['d', 'o', 'é', ' ', 'd', 'o', ' ', 'd', 'o', '1', ' ', 'd', 'o'] := by decide +kernel
  obtain ⟨-, spans, hscan, -, hlength, hlabels, -⟩ :=
    caretOccurrences_marks "same" "" (by decide : s.length ≤ maxLength)
  have hident : ∀ c ∈ ['d', 'o'], isIdentifierChar c := List.all_iff_forall_prop.1 (by decide)
  have hword : ∀ c ∈ ['d', 'o'], isWordChar c := fun c hc => isWordChar_of_isIdentifierChar (hident c hc)
  have hdigit : ∀ c ∈ ['d', 'o'].head?, c.isDigit = false := by
    rintro _ ⟨⟩
    rfl
  have hblank : isWordChar ' ' = false := by decide +kernel
  have hat : IdentifierAt s.text.toList 6 4 ['d', 'o'] := by
    refine ⟨⟨?_, hident, hdigit⟩, by decide, by decide⟩
    have hfront : s.text.toList = ['d', 'o', 'é', ' '] ++ (['d', 'o'] ++ [' ', 'd', 'o', '1', ' ', 'd', 'o']) := hchars
    exact .mk hfront (by decide) hword (by rintro _ ⟨⟩; exact hblank) (by rintro _ ⟨⟩; exact hblank)
  have hlast : Identifier s.text.toList 11 ['d', 'o'] := by
    refine ⟨?_, hident, hdigit⟩
    have hfront : s.text.toList = ['d', 'o', 'é', ' ', 'd', 'o', ' ', 'd', 'o', '1', ' '] ++ (['d', 'o'] ++ []) :=
      hchars
    exact .mk hfront (by decide) hword (by rintro _ ⟨⟩; exact hblank) nofun
  -- Behind the other two a word character stands.
  have hnone (o : Nat) (h : ∀ b ≤ o, o < b + 2 → s.text.toList[b]? ≠ some 'd' ∨ s.text.toList[b + 2]?.any isWordChar) :
      ¬Occurs s.text.toList ['d', 'o'] o := by
    rintro ⟨b, hword, hle, hlt⟩
    rcases h b hle hlt with hfirst | hbehind
    · exact hfirst (hword.whole.getElem? (n := 0) Nat.zero_lt_two)
    · obtain ⟨c, hc, hwordChar⟩ := (Option.any_eq_true _ _).1 hbehind
      cases hwordChar.symm.trans (hword.whole.not_behind c hc)
  refine ⟨by decide, hat, spans, hscan, hlength.trans (by decide), (hlabels 4 _ hat 0 (by decide)).2 (hnone 0 ?_),
    (hlabels 4 _ hat 4 (by decide)).1 ⟨4, hat.toIdentifier, by decide, by decide⟩,
    (hlabels 4 _ hat 7 (by decide)).2 (hnone 7 ?_),
    (hlabels 4 _ hat 12 (by decide)).1 ⟨11, hlast, by decide, by decide⟩⟩
  · rw [hchars]
    decide +kernel
  · rw [hchars]
    decide +kernel

end

end Highlight
