import Highlight.Proofs.Spans.Labels

/-!
# Earlier marks win

Marks may come in any order, overlap, be empty or reversed and reach past the end of the text. Laying
them in one pass computes only differences that there are (`Spans.Marking.lay_eq`): what is laid of a
mark begins where the mark before ended or later, and ends behind its beginning and within the text.
The first mark of the list that reaches past a character and marks any text decides about it, with
its labels if it begins there or before, and with none if it begins behind. If the marks are sorted
by their beginnings, that is the first mark over the character (`markedAt_of_sorted`).

* `Spans.layMarks_eq_ofMarks`: the pass gives the spans of the marks;
* `Spans.layMarks_earlier_wins`: their length, and their labels at every offset.
-/

namespace Highlight

/-! ## The pass -/

namespace Spans

/-- No difference is below zero where the marks laid before end within the text. -/
theorem Marking.lay_eq {total : Nat} {k : Marking} (h : k.reached ≤ total) (m : Mark) :
    lay total k m =
      if min m.stop total ≤ min (max m.start k.reached) total then .ok k
      else
        k.built.add (.plain (min (max m.start k.reached) total - k.reached)) >>= fun gap =>
          gap.add ⟨min m.stop total - min (max m.start k.reached) total, m.labels⟩ >>= fun built =>
            .ok ⟨built, min m.stop total⟩ := by
  simp only [lay]
  split
  · rfl
  · rw [lengthSub_of_le (by omega), lengthSub_of_le (by omega)]
    rfl

/-- To lay the marks that are left adds their runs to what is built. -/
theorem Marking.foldlM_lay {total : Nat} (marks : List Mark) (k : Marking) (h : k.reached ≤ total) :
    (marks.foldlM (lay total) k >>= close total) =
      (markRuns total k.reached marks).foldlM Builder.add k.built >>= fun b => .ok b.spans := by
  induction marks generalizing k with
  | nil =>
    show close total k = _
    rw [close, lengthSub_of_le h, markRuns, List.foldlM_cons, bind_assoc]
    rfl
  | cons m marks ih =>
    rw [List.foldlM_cons, lay_eq h]
    simp only [markRuns]
    split
    · exact ih k h
    · simp only [List.foldlM_cons, bind_assoc]
      refine bind_congr fun gap => bind_congr fun built => ?_
      exact ih ⟨built, min m.stop total⟩ (Nat.min_le_right ..)

theorem layMarks_eq_ofMarks (marks : List Mark) (total : Nat) :
    layMarks marks total = ofMarks marks total :=
  Marking.foldlM_lay marks .start (Nat.zero_le total)

end Spans

/-! ## Sorted marks -/

/-- Of marks that are sorted by their beginnings, the first one over a character decides about it:
one before it that reaches past the character would be over it as well. -/
theorem markedAt_of_sorted {total o : Nat} {marks : List Mark} (ho : o < total)
    (hsorted : marks.Pairwise fun m n => m.start ≤ n.start) :
    markedAt total marks o =
      match marks.find? fun m => decide (m.start ≤ o ∧ o < m.stop) with
      | some m => m.labels
      | none => .empty := by
  induction marks with
  | nil => rfl
  | cons m marks ih =>
    obtain ⟨hbehind, hsorted⟩ := List.pairwise_cons.1 hsorted
    rw [List.find?_cons]
    by_cases hover : m.start ≤ o ∧ o < m.stop
    · rw [markedAt_cons_of_pos (by omega), if_pos hover.1, decide_eq_true hover]
    · rw [decide_eq_false hover]
      by_cases hreaches : m.start < min m.stop total ∧ o < m.stop
      · -- It begins behind the character, and so do all marks after it.
        have hnone : marks.find? (fun n => decide (n.start ≤ o ∧ o < n.stop)) = none :=
          List.find?_eq_none.2 fun n hn => by
            have := hbehind n hn
            simp only [decide_eq_true_eq]
            omega
        rw [markedAt_cons_of_pos hreaches, if_neg (by omega), hnone]
      · rw [markedAt_cons_of_neg hreaches, ih hsorted]

namespace Spans

/-- Marks in any order and of any kind are laid in one pass in which no length is out of bounds. The
result is normal and as long as the text. At every offset the first mark of the list decides that
marks any text and reaches past the offset: its labels are there if it begins there or before, and
none if it begins behind, or if there is no such mark. Where the marks are sorted by their beginnings
this is to say that a character has the labels of the first mark over it. -/
theorem layMarks_earlier_wins (marks : List Mark) {total : Nat} (hmax : total ≤ maxLength) :
    ∃ s, layMarks marks total = .ok s ∧ ofMarks marks total = .ok s ∧ Normal s.runs ∧
      s.length = total ∧
      (∀ o < total, s.labelsAt o = some
        (match marks.find? fun m => decide (m.start < min m.stop total ∧ o < m.stop) with
        | some m => if m.start ≤ o then m.labels else .empty
        | none => .empty)) ∧
      (marks.Pairwise (fun m n => m.start ≤ n.start) → ∀ o < total, s.labelsAt o = some
        (match marks.find? fun m => decide (m.start ≤ o ∧ o < m.stop) with
        | some m => m.labels
        | none => .empty)) := by
  obtain ⟨s, hs⟩ := exists_ofMarks marks hmax
  refine ⟨s, (layMarks_eq_ofMarks marks total).trans hs, hs, s.normal, length_of_ofMarks hs,
    fun o ho => labelsAt_of_ofMarks hs ho, fun hsorted o ho => ?_⟩
  rw [labelsAt_of_ofMarks hs ho, markedAt_of_sorted ho hsorted]

/-- A mark that begins behind two others and comes before them, an empty one, a reversed one and one
that reaches past the end, as far as there are offsets; and sorted marks that overlap. -/
theorem layMarks_earlier_wins_unsorted :
    let marks : List Mark :=
      [.labeled 4 6 "late", .labeled 0 3 "early", .labeled 7 7 "empty", .labeled 9 1 "reversed",
        .labeled 5 maxLength "tail"]
    let sorted : List Mark := [.labeled 1 4 "first", .labeled 2 6 "second"]
    (8 ≤ maxLength ∧ ∃ s, layMarks marks 8 = .ok s ∧ s.length = 8 ∧
      s.labelsAt 0 = some .empty ∧ s.labelsAt 4 = some (.single "late") ∧
      s.labelsAt 7 = some (.single "tail")) ∧
    sorted.Pairwise (fun m n => m.start ≤ n.start) ∧ ∃ s, layMarks sorted 5 = .ok s ∧
      s.labelsAt 3 = some (.single "first") ∧ s.labelsAt 4 = some (.single "second") := by
  intro marks sorted
  have hsorted : sorted.Pairwise (fun m n => m.start ≤ n.start) := by decide
  obtain ⟨s, hs, -, -, hlength, hlabels, -⟩ := layMarks_earlier_wins marks (by decide : 8 ≤ _)
  obtain ⟨t, ht, -, -, -, -, hcovered⟩ := layMarks_earlier_wins sorted (by decide : 5 ≤ _)
  exact ⟨⟨by decide, s, hs, hlength, hlabels 0 (by decide), hlabels 4 (by decide),
    hlabels 7 (by decide)⟩, hsorted, t, ht, hcovered hsorted 3 (by decide),
    hcovered hsorted 4 (by decide)⟩

end Spans

end Highlight
