import Highlight.Proofs.Spans.Length

/-!
# Labels offset by offset

What the operations on span sets do to the labels at an offset, the only thing that a span set
says, since normal runs are determined by it (`Spans.ext_labelsAt`). Each statement about an
operation is made for lists of runs first, by the recursion of the operation:

* `Spans.labelsAt_of_build`: building changes no labels;
* `Spans.labelsAt_of_merge`: an overlay has the labels of both sets at every offset;
* `Spans.labelsAt_of_ofMarks`: the marks of a list that are before the others decide.
-/

namespace Highlight

/-! ## Runs one after the other -/

theorem labelsAt_cons_of_lt {n o : Nat} (h : o < n) (labels : Labels) (runs : List Run) :
    labelsAt (⟨n, labels⟩ :: runs) o = some labels := if_pos h

theorem labelsAt_cons_of_le {n o : Nat} (h : n ≤ o) (labels : Labels) (runs : List Run) :
    labelsAt (⟨n, labels⟩ :: runs) o = labelsAt runs (o - n) := if_neg (Nat.not_lt.2 h)

theorem labelsAt_eq_none_iff {runs : List Run} {o : Nat} :
    labelsAt runs o = none ↔ totalLength runs ≤ o := by
  induction runs generalizing o with
  | nil => simp [labelsAt, totalLength]
  | cons r runs ih =>
    rw [totalLength]
    by_cases ho : o < r.length
    · rw [labelsAt_cons_of_lt ho]
      simp only [reduceCtorEq, false_iff]
      omega
    · rw [labelsAt_cons_of_le (by omega), ih]
      omega

/-- Every offset up to the end has labels. -/
theorem exists_labelsAt {runs : List Run} {o : Nat} (h : o < totalLength runs) :
    ∃ labels, labelsAt runs o = some labels := by
  cases hl : labelsAt runs o with
  | some labels => exact ⟨labels, rfl⟩
  | none => exact absurd (labelsAt_eq_none_iff.1 hl) (Nat.not_le_of_lt h)

theorem labelsAt_append_of_lt {a : List Run} {o : Nat} (h : o < totalLength a) (b : List Run) :
    labelsAt (a ++ b) o = labelsAt a o := by
  induction a generalizing o with
  | nil => exact absurd h (Nat.not_lt_zero o)
  | cons r a ih =>
    rw [totalLength] at h
    rw [List.cons_append]
    by_cases ho : o < r.length
    · rw [labelsAt_cons_of_lt ho, labelsAt_cons_of_lt ho]
    · rw [labelsAt_cons_of_le (by omega), labelsAt_cons_of_le (by omega), ih (by omega)]

theorem labelsAt_append_of_le {a : List Run} {o : Nat} (h : totalLength a ≤ o) (b : List Run) :
    labelsAt (a ++ b) o = labelsAt b (o - totalLength a) := by
  induction a generalizing o with
  | nil => rfl
  | cons r a ih =>
    rw [totalLength] at h ⊢
    rw [List.cons_append, labelsAt_cons_of_le (by omega), ih (by omega), Nat.sub_sub]

/-- What stands behind lists of runs that say the same says the same. -/
theorem labelsAt_append_congr {a a' : List Run} (h : ∀ o, labelsAt a o = labelsAt a' o)
    (hlen : totalLength a = totalLength a') (b : List Run) (o : Nat) :
    labelsAt (a ++ b) o = labelsAt (a' ++ b) o := by
  by_cases ho : o < totalLength a
  · rw [labelsAt_append_of_lt ho, labelsAt_append_of_lt (hlen ▸ ho), h]
  · rw [labelsAt_append_of_le (by omega), labelsAt_append_of_le (by omega), hlen]

/-- An empty run at the end says nothing. -/
theorem labelsAt_append_of_length_eq_zero (runs : List Run) {r : Run} (h : r.length = 0) (o : Nat) :
    labelsAt (runs ++ [r]) o = labelsAt runs o := by
  by_cases ho : o < totalLength runs
  · exact labelsAt_append_of_lt ho [r]
  · have hnone : labelsAt runs o = none := labelsAt_eq_none_iff.2 (by omega)
    rw [labelsAt_append_of_le (by omega), labelsAt_cons_of_le (by omega), hnone]
    rfl

/-! ## Normal lists -/

/-- The labels behind a run of a normal list are others. -/
theorem Normal.labelsAt_length_ne {r : Run} {runs : List Run} (h : Normal (r :: runs)) :
    labelsAt (r :: runs) r.length ≠ some r.labels := by
  rw [labelsAt_cons_of_le (Nat.le_refl _), Nat.sub_self]
  match runs, h with
  | [], _ => exact nofun
  | s :: runs, h =>
    rw [labelsAt_cons_of_lt h.2.2.length_pos]
    exact fun he => h.2.1 (Option.some.inj he).symm

/-- The first run of a normal list reaches as far as the labels are the same. -/
theorem Normal.length_le_of_labelsAt {r s : Run} {a b : List Run} (ha : Normal (r :: a))
    (h : ∀ o, labelsAt (r :: a) o = labelsAt (s :: b) o) (hl : s.labels = r.labels) :
    s.length ≤ r.length := by
  refine Nat.le_of_not_lt fun hlt => ha.labelsAt_length_ne ?_
  rw [h, labelsAt_cons_of_lt hlt, hl]

/-- The labels at every offset determine the runs of a normal list. -/
theorem Normal.ext {a b : List Run} (ha : Normal a) (hb : Normal b)
    (h : ∀ o, labelsAt a o = labelsAt b o) : a = b := by
  induction a generalizing b with
  | nil =>
    cases b with
    | nil => rfl
    | cons s b =>
      have h₀ := h 0
      rw [labelsAt_cons_of_lt hb.length_pos] at h₀
      cases h₀
  | cons r a ih =>
    cases b with
    | nil =>
      have h₀ := h 0
      rw [labelsAt_cons_of_lt ha.length_pos] at h₀
      cases h₀
    | cons s b =>
      have hlabels : r.labels = s.labels := by
        have h₀ := h 0
        rw [labelsAt_cons_of_lt ha.length_pos, labelsAt_cons_of_lt hb.length_pos] at h₀
        exact Option.some.inj h₀
      have hlength : r.length = s.length :=
        Nat.le_antisymm (hb.length_le_of_labelsAt (fun o => (h o).symm) hlabels)
          (ha.length_le_of_labelsAt h hlabels.symm)
      have hrs : r = s := by
        cases r
        cases s
        simp only at hlabels hlength
        rw [hlabels, hlength]
      subst hrs
      rw [ih ha.tail hb.tail fun o => ?_]
      have ho := h (r.length + o)
      rwa [labelsAt_cons_of_le (by omega), labelsAt_cons_of_le (by omega),
        Nat.add_sub_cancel_left] at ho

namespace Spans

theorem ext_labelsAt {a b : Spans} (h : ∀ o, a.labelsAt o = b.labelsAt o) : a = b := by
  obtain ⟨ra, ha⟩ := a
  obtain ⟨rb, hb⟩ := b
  cases ha.ext hb h
  rfl

theorem labelsAt_eq_none_of_le {s : Spans} {o : Nat} (h : s.length ≤ o) : s.labelsAt o = none :=
  labelsAt_eq_none_iff.2 h

/-- The character at an offset carries a label. -/
def Has (s : Spans) (o : Nat) (y : Label) : Prop :=
  ∃ labels, s.labelsAt o = some labels ∧ y ∈ labels

theorem has_iff_of_labelsAt {s : Spans} {o : Nat} {labels : Labels} (h : s.labelsAt o = some labels)
    {y : Label} : s.Has o y ↔ y ∈ labels := by
  simp [Has, h]

/-- Span sets of one length are equal if every character carries the same labels in both. -/
theorem ext_has {a b : Spans} (hlen : a.length = b.length) (h : ∀ o y, a.Has o y ↔ b.Has o y) :
    a = b := by
  refine ext_labelsAt fun o => ?_
  by_cases ho : o < a.length
  · obtain ⟨la, hla⟩ := exists_labelsAt ho
    obtain ⟨lb, hlb⟩ := exists_labelsAt (hlen ▸ ho : o < b.length)
    have hab : la = lb := Labels.ext fun y => by
      rw [← has_iff_of_labelsAt hla, h, has_iff_of_labelsAt hlb]
    rw [labelsAt, hla, hab, labelsAt, hlb]
  · have hout : totalLength a.runs ≤ o := Nat.not_lt.1 ho
    have hout' : totalLength b.runs ≤ o := Nat.le_trans (Nat.le_of_eq hlen.symm) hout
    rw [labelsAt, labelsAt, labelsAt_eq_none_iff.2 hout, labelsAt_eq_none_iff.2 hout']

/-! ## Building -/

/-- Two runs with the same labels are one. -/
theorem labelsAt_joined (n m : Nat) (labels : Labels) (o : Nat) :
    Highlight.labelsAt [⟨n + m, labels⟩] o = Highlight.labelsAt [⟨n, labels⟩, ⟨m, labels⟩] o := by
  by_cases hn : o < n
  · rw [labelsAt_cons_of_lt hn, labelsAt_cons_of_lt (by omega)]
  · rw [labelsAt_cons_of_le (n := n) (by omega)]
    by_cases hm : o - n < m
    · rw [labelsAt_cons_of_lt hm, labelsAt_cons_of_lt (by omega)]
    · rw [labelsAt_cons_of_le (by omega), labelsAt_cons_of_le (by omega)]
      rfl

/-- Joining a run with the last one is the same as putting it behind. -/
theorem labelsAt_reverse_extend (r : Run) (newestFirst : List Run) (o : Nat) :
    Highlight.labelsAt (extend r newestFirst).reverse o =
      Highlight.labelsAt (newestFirst.reverse ++ [r]) o := by
  match newestFirst with
  | [] => rfl
  | s :: rest =>
    simp only [extend]
    split
    · rename_i hl
      rw [List.reverse_cons, List.reverse_cons, List.append_assoc]
      by_cases ho : o < totalLength rest.reverse
      · rw [labelsAt_append_of_lt ho, labelsAt_append_of_lt ho]
      · rw [labelsAt_append_of_le (by omega), labelsAt_append_of_le (by omega), labelsAt_joined]
        obtain ⟨n, labels⟩ := r
        cases hl
        rfl
    · rw [List.reverse_cons]

theorem Builder.labelsAt_of_add {b b' : Builder} {r : Run} (h : b.add r = .ok b') (o : Nat) :
    Highlight.labelsAt b'.newestFirst.reverse o =
      Highlight.labelsAt (b.newestFirst.reverse ++ [r]) o := by
  unfold add at h
  split at h
  · split at h <;> cases h
    exact labelsAt_reverse_extend r b.newestFirst o
  · cases h
    exact (labelsAt_append_of_length_eq_zero _ (by omega) o).symm

theorem Builder.labelsAt_of_foldlM_add {runs : List Run} {b b' : Builder}
    (h : runs.foldlM add b = .ok b') (o : Nat) :
    Highlight.labelsAt b'.newestFirst.reverse o =
      Highlight.labelsAt (b.newestFirst.reverse ++ runs) o := by
  induction runs generalizing b with
  | nil =>
    cases h
    rw [List.append_nil]
  | cons r runs ih =>
    rw [List.foldlM_cons] at h
    cases hr : b.add r with
    | error fault => rw [hr] at h; cases h
    | ok b₁ =>
      rw [hr] at h
      have hlen :
          totalLength b₁.newestFirst.reverse = totalLength (b.newestFirst.reverse ++ [r]) := by
        rw [totalLength_reverse, ← b₁.length_eq, length_of_add hr, b.length_eq, totalLength_append,
          totalLength_reverse]
        rfl
      rw [ih h, labelsAt_append_congr (labelsAt_of_add hr) hlen, List.append_assoc]
      rfl

/-- The span set of some runs has the labels of the runs. -/
theorem labelsAt_of_build {runs : List Run} {s : Spans} (h : build runs = .ok s) (o : Nat) :
    s.labelsAt o = Highlight.labelsAt runs o := by
  unfold build at h
  cases hb : runs.foldlM Builder.add Builder.empty with
  | error fault => rw [hb] at h; cases h
  | ok b =>
    rw [hb] at h
    cases h
    exact Builder.labelsAt_of_foldlM_add hb o

end Spans

/-! ## Overlays -/

/-- A run laid over a list adds its labels to those of the list as far as it reaches. -/
theorem labelsAt_overlayRun_fst (labels : Labels) {n o : Nat} (h : o < n) (runs : List Run) :
    labelsAt (overlayRun labels n runs).1 o =
      (some labels).merge Labels.union (labelsAt runs o) := by
  induction runs generalizing n o with
  | nil => exact labelsAt_cons_of_lt h labels []
  | cons s runs ih =>
    simp only [overlayRun]
    split
    · rw [labelsAt_cons_of_lt h, labelsAt_cons_of_lt (n := s.length) (by omega)]
      rfl
    · simp only
      by_cases ho : o < s.length
      · rw [labelsAt_cons_of_lt ho, labelsAt_cons_of_lt ho]
        rfl
      · rw [labelsAt_cons_of_le (by omega), labelsAt_cons_of_le (by omega), ih (by omega)]

/-- What is left of a list after a run was laid over it is what lies behind the run. -/
theorem labelsAt_overlayRun_snd (labels : Labels) (n : Nat) (runs : List Run) (o : Nat) :
    labelsAt (overlayRun labels n runs).2 o = labelsAt runs (n + o) := by
  induction runs generalizing n with
  | nil => rfl
  | cons s runs ih =>
    simp only [overlayRun]
    split
    · by_cases ho : n + o < s.length
      · rw [labelsAt_cons_of_lt ho, labelsAt_cons_of_lt (by omega)]
      · rw [labelsAt_cons_of_le (n := s.length) (by omega), labelsAt_cons_of_le (by omega)]
        congr 1
        omega
    · rw [ih, labelsAt_cons_of_le (by omega)]
      congr 1
      omega

theorem labelsAt_overlay (a b : List Run) (o : Nat) :
    labelsAt (overlay a b) o = (labelsAt a o).merge Labels.union (labelsAt b o) := by
  induction a generalizing b o with
  | nil => exact (Option.merge_none_left).symm
  | cons r a ih =>
    have hlen := (totalLength_overlayRun r.labels r.length b).1
    simp only [overlay]
    by_cases ho : o < r.length
    · rw [labelsAt_append_of_lt (by omega), labelsAt_overlayRun_fst _ ho, labelsAt_cons_of_lt ho]
    · rw [labelsAt_append_of_le (by omega), ih, hlen, labelsAt_overlayRun_snd,
        labelsAt_cons_of_le (by omega), Nat.add_sub_of_le (by omega)]

theorem Spans.labelsAt_of_merge {a b s : Spans} (h : a.merge b = .ok s) (o : Nat) :
    s.labelsAt o = (a.labelsAt o).merge Labels.union (b.labelsAt o) := by
  rw [labelsAt_of_build h, labelsAt_overlay]
  rfl

/-- Sets that are not too long have one overlay, and it is known by its labels. -/
theorem Spans.merge_eq_ok {a b s : Spans} (h : max a.length b.length ≤ maxLength) :
    a.merge b = .ok s ↔
      ∀ o, s.labelsAt o = (a.labelsAt o).merge Labels.union (b.labelsAt o) := by
  refine ⟨labelsAt_of_merge, fun hs => ?_⟩
  obtain ⟨t, ht⟩ := exists_merge h
  have hts : t = s := ext_labelsAt fun o => (labelsAt_of_merge ht o).trans (hs o).symm
  rw [ht, hts]

theorem Spans.has_of_merge {a b s : Spans} (h : a.merge b = .ok s) {o : Nat} {y : Label} :
    s.Has o y ↔ a.Has o y ∨ b.Has o y := by
  simp only [Has, labelsAt_of_merge h]
  cases a.labelsAt o <;> cases b.labelsAt o <;> simp [Option.merge]

/-! ## Marks -/

/-- The labels that a list of marks gives the character at `o` of a text of `total` characters. The
first mark that reaches past `o` and marks any text decides, even if it starts behind `o`. -/
def markedAt (total : Nat) (marks : List Mark) (o : Nat) : Labels :=
  match marks.find? fun m => decide (m.start < min m.stop total ∧ o < m.stop) with
  | some m => if m.start ≤ o then m.labels else .empty
  | none => .empty

theorem markedAt_cons_of_pos {total o : Nat} {m : Mark} (h : m.start < min m.stop total ∧ o < m.stop)
    (marks : List Mark) :
    markedAt total (m :: marks) o = if m.start ≤ o then m.labels else .empty := by
  simp only [markedAt, List.find?_cons, decide_eq_true h]

theorem markedAt_cons_of_neg {total o : Nat} {m : Mark}
    (h : ¬(m.start < min m.stop total ∧ o < m.stop)) (marks : List Mark) :
    markedAt total (m :: marks) o = markedAt total marks o := by
  simp only [markedAt, List.find?_cons, decide_eq_false h]

theorem labelsAt_markRuns {total last o : Nat} (marks : List Mark) (h : last ≤ o) (ho : o < total) :
    labelsAt (markRuns total last marks) (o - last) = some (markedAt total marks o) := by
  induction marks generalizing last with
  | nil => exact labelsAt_cons_of_lt (by omega) .empty []
  | cons m marks ih =>
    simp only [markRuns, Run.plain]
    by_cases hm : m.start < min m.stop total ∧ o < m.stop
    · -- The mark decides: either it or the gap before it covers `o`.
      rw [if_neg (by omega), markedAt_cons_of_pos hm]
      by_cases hs : m.start ≤ o
      · rw [if_pos hs, labelsAt_cons_of_le (by omega), labelsAt_cons_of_lt (by omega)]
      · rw [if_neg hs, labelsAt_cons_of_lt (by omega)]
    · rw [markedAt_cons_of_neg hm]
      split
      · exact ih h
      · have hrest : labelsAt (markRuns total (min m.stop total) marks) (o - min m.stop total) =
            some (markedAt total marks o) := ih (by omega)
        rw [labelsAt_cons_of_le (by omega), labelsAt_cons_of_le (by omega), ← hrest]
        congr 1
        omega

theorem Spans.labelsAt_of_ofMarks {marks : List Mark} {total o : Nat} {s : Spans}
    (h : ofMarks marks total = .ok s) (ho : o < total) :
    s.labelsAt o = some (markedAt total marks o) := by
  rw [labelsAt_of_build h]
  exact labelsAt_markRuns marks (Nat.zero_le o) ho

/-- Marks of some text each, one behind the other up to the end of the text: the mark that covers a
character, of which there is one at most, gives it its labels. -/
theorem mem_markedAt_iff {total o : Nat} {marks : List Mark}
    (hall : ∀ m ∈ marks, m.start < m.stop ∧ m.stop ≤ total)
    (hdisjoint : marks.Pairwise fun m n => m.stop ≤ n.start) {y : Label} :
    y ∈ markedAt total marks o ↔ ∃ m ∈ marks, m.start ≤ o ∧ o < m.stop ∧ y ∈ m.labels := by
  induction marks with
  | nil => simp [markedAt]
  | cons m marks ih =>
    obtain ⟨hm, hrest⟩ := List.forall_mem_cons.1 hall
    obtain ⟨hbehind, hdisjoint⟩ := List.pairwise_cons.1 hdisjoint
    simp only [List.mem_cons, exists_eq_or_imp]
    by_cases ho : o < m.stop
    · have hlater : ¬∃ n ∈ marks, n.start ≤ o ∧ o < n.stop ∧ y ∈ n.labels := by
        rintro ⟨n, hn, hstart, -⟩
        have := hbehind n hn
        omega
      rw [markedAt_cons_of_pos (by omega), or_iff_left hlater]
      by_cases hs : m.start ≤ o
      · rw [if_pos hs]
        exact ⟨fun hy => ⟨hs, ho, hy⟩, fun hy => hy.2.2⟩
      · rw [if_neg hs]
        exact ⟨fun hy => (Labels.not_mem_empty hy).elim, fun hy => (hs hy.1).elim⟩
    · rw [markedAt_cons_of_neg (by omega), ih hrest hdisjoint, or_iff_right fun hy => ho hy.2.1]

end Highlight
