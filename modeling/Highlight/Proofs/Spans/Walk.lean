import Highlight.Proofs.Spans.Labels
import Highlight.Spans.Walk

/-!
# One pass over two span sets

The pass that goes through two run lists side by side gives the overlay of the two sets, and none of
the sums and differences it computes is out of bounds. Both cursors and what is built belong to one
offset (`Walk.At`): what either cursor has before it are the labels from there on, and what is built
are the labels of both sets up to there. A step moves the offset (`Walk.At.step`), and when there is
no further step it is the end of the longer set (`Walk.At.run`).

* `Spans.run_start`: the pass gives the overlay, for all sets that can be;
* `Spans.merge_unites`: the length and the labels of an overlay.
-/

namespace Highlight

/-! ## Cursors -/

/-- What a cursor finds at an offset of a list of runs is there: no labels from there on, or those
of the next characters. -/
def Finds (runs : List Run) (o : Nat) : Option Run → Prop
  | none => ∀ k, labelsAt runs (o + k) = none
  | some r => ∀ k < r.length, labelsAt runs (o + k) = some r.labels

/-- A cursor stands at an offset of a list of runs, which may lie behind the last run. -/
structure RunCursor.At (c : RunCursor) (runs : List Run) (o : Nat) : Prop where
  labelsAt_eq : ∀ k, labelsAt c.runs (c.used + k) = labelsAt runs (o + k)
  used_le : ∀ r ∈ c.runs.head?, c.used ≤ r.length
  fits : totalLength c.runs ≤ maxLength

namespace RunCursor.At

variable {c : RunCursor} {runs : List Run} {o : Nat}

theorem start (h : totalLength runs ≤ maxLength) : (RunCursor.start runs).At runs 0 where
  labelsAt_eq _ := rfl
  used_le _ _ := Nat.zero_le _
  fits := h

/-- The labels at a cursor can be asked for, and it can be moved on as far as they last. -/
theorem exists_current (h : c.At runs o) : ∃ x, c.current = .ok x ∧ Finds runs o x ∧
    ∀ n, (∀ r ∈ x, n ≤ r.length) → ∃ d, c.advance n = .ok d ∧ d.At runs (o + n) := by
  cases hruns : c.runs with
  | nil =>
    have hend : ∀ k, labelsAt runs (o + k) = none := fun k => by
      rw [← h.labelsAt_eq, hruns]
      rfl
    refine ⟨none, by rw [current, hruns], hend, fun n _ => ⟨c, by rw [advance, hruns], ?_, h.used_le,
      h.fits⟩⟩
    intro k
    rw [Nat.add_assoc, hend, hruns]
    rfl
  | cons r rest =>
    have hlabels : ∀ k, labelsAt (r :: rest) (c.used + k) = labelsAt runs (o + k) :=
      hruns ▸ h.labelsAt_eq
    have hused : c.used ≤ r.length := h.used_le r (by rw [hruns]; rfl)
    have hfits : r.length + totalLength rest ≤ maxLength := by
      have := h.fits
      rwa [hruns] at this
    refine ⟨_, (current_eq_ok hruns).2 ⟨hused, rfl⟩, fun k hk => ?_, fun n hn => ?_⟩
    · simp only at hk
      rw [← hlabels, labelsAt_cons_of_lt (by omega)]
    · have hn' : n ≤ r.length - c.used := hn _ rfl
      refine ⟨_, (advance_eq_ok hruns).2 ⟨by omega, rfl⟩, ?_⟩
      split
      · -- All of the run is used up; the next one starts here.
        refine ⟨fun k => ?_, fun _ _ => Nat.zero_le _, by simp only [RunCursor.start]; omega⟩
        rw [Nat.add_assoc, ← hlabels, labelsAt_cons_of_le (by omega)]
        show labelsAt rest (0 + k) = _
        congr 1
        omega
      · refine ⟨fun k => ?_, fun s hs => ?_, hfits⟩
        · rw [Nat.add_assoc, Nat.add_assoc, hlabels]
        · cases hs
          simp only
          omega

end RunCursor.At

/-! ## Steps -/

namespace Spans

theorem length_le_of_together {x y : Option Run} {r : Run} (h : together x y = some r) :
    (∀ s ∈ x, r.length ≤ s.length) ∧ ∀ s ∈ y, r.length ≤ s.length := by
  cases x with
  | none =>
    cases h
    simp
  | some s =>
    cases y with
    | none =>
      cases h
      simp
    | some t =>
      cases h
      exact ⟨fun _ hs => Option.some.inj hs ▸ Nat.min_le_left .., fun _ ht =>
        Option.some.inj ht ▸ Nat.min_le_right ..⟩

/-- The labels at two places together are those of an overlay. -/
theorem merge_of_together {a b : List Run} {o : Nat} {x y : Option Run} {r : Run}
    (hx : Finds a o x) (hy : Finds b o y) (h : together x y = some r) {k : Nat} (hk : k < r.length) :
    (Highlight.labelsAt a (o + k)).merge Labels.union (Highlight.labelsAt b (o + k)) =
      some r.labels := by
  obtain ⟨hle, hle'⟩ := length_le_of_together h
  cases x with
  | none =>
    cases h
    rw [hx k, hy k hk]
    rfl
  | some s =>
    have hs := hx k (Nat.lt_of_lt_of_le hk (hle s rfl))
    cases y with
    | none =>
      cases h
      rw [hs, hy k]
      rfl
    | some t =>
      rw [hs, hy k (Nat.lt_of_lt_of_le hk (hle' t rfl))]
      cases h
      rfl

theorem lt_of_merge_eq_some {a b : List Run} {o : Nat} {labels : Labels}
    (h : (Highlight.labelsAt a o).merge Labels.union (Highlight.labelsAt b o) = some labels) :
    o < max (totalLength a) (totalLength b) := by
  refine Nat.lt_of_not_le fun hle => ?_
  rw [labelsAt_eq_none_iff.2 (by omega), labelsAt_eq_none_iff.2 (by omega)] at h
  cases h

namespace Walk

/-- Both cursors and what is built belong to one offset. -/
structure At (w : Walk) (a b : List Run) (o : Nat) : Prop where
  left : w.left.At a o
  right : w.right.At b o
  le : o ≤ max (totalLength a) (totalLength b)
  length_built : w.built.length = o
  labelsAt_built : ∀ k < o, Highlight.labelsAt w.built.newestFirst.reverse k =
    (Highlight.labelsAt a k).merge Labels.union (Highlight.labelsAt b k)

theorem At.start {a b : Spans} (ha : a.length ≤ maxLength) (hb : b.length ≤ maxLength) :
    (start a b).At a.runs b.runs 0 where
  left := .start ha
  right := .start hb
  le := Nat.zero_le _
  length_built := rfl
  labelsAt_built k hk := absurd hk (Nat.not_lt_zero k)

variable {w v : Walk} {a b : List Run} {o : Nat}

/-- No step is a fault. The last offset is the end of the longer list. -/
theorem At.step (h : w.At a b o) (hmax : max (totalLength a) (totalLength b) ≤ maxLength) :
    (w.step = .ok none ∧ o = max (totalLength a) (totalLength b)) ∨
      ∃ v n, w.step = .ok (some v) ∧ v.At a b (o + n) := by
  obtain ⟨x, hx, hfinds, hleft⟩ := h.left.exists_current
  obtain ⟨y, hy, hfinds', hright⟩ := h.right.exists_current
  cases ht : together x y with
  | none =>
    have hend : totalLength a ≤ o ∧ totalLength b ≤ o := by
      cases x with
      | some s => cases y <;> cases ht
      | none =>
        cases ht
        exact ⟨labelsAt_eq_none_iff.1 (hfinds 0), labelsAt_eq_none_iff.1 (hfinds' 0)⟩
    have hle := h.le
    exact .inl ⟨step_eq_ok.2 ⟨x, hx, y, hy, .inl ⟨ht, rfl⟩⟩, by omega⟩
  | some r =>
    refine .inr ?_
    obtain ⟨hle, hle'⟩ := length_le_of_together ht
    obtain ⟨left, hadvance, hleft⟩ := hleft r.length hle
    obtain ⟨right, hadvance', hright⟩ := hright r.length hle'
    have hlabels := fun k => merge_of_together hfinds hfinds' ht (k := k)
    have hend : o + r.length ≤ max (totalLength a) (totalLength b) := by
      rcases Nat.eq_zero_or_pos r.length with hr | hr
      · have := h.le
        omega
      · have := lt_of_merge_eq_some (hlabels (r.length - 1) (by omega))
        omega
    have hlength := h.length_built
    obtain ⟨built, hbuilt⟩ := Builder.exists_add (b := w.built) (r := r) (by omega)
    refine ⟨⟨left, right, built⟩, r.length, ?_, ?_⟩
    · exact step_eq_ok.2 ⟨x, hx, y, hy, .inr ⟨r, ht, _, add_eq_ok.2 ⟨hbuilt, hadvance, hadvance'⟩, rfl⟩⟩
    · refine ⟨hleft, hright, hend, by rw [Builder.length_of_add hbuilt, hlength], fun k hk => ?_⟩
      have htotal : totalLength w.built.newestFirst.reverse = o := by
        rw [totalLength_reverse, ← w.built.length_eq, hlength]
      rw [Builder.labelsAt_of_add hbuilt]
      by_cases hko : k < o
      · rw [labelsAt_append_of_lt (by omega), h.labelsAt_built k hko]
      · obtain ⟨i, rfl⟩ := Nat.exists_eq_add_of_le (Nat.not_lt.1 hko)
        rw [labelsAt_append_of_le (by omega), hlabels i (by omega), htotal,
          labelsAt_cons_of_lt (by omega)]

/-- From any offset the pass ends, with the labels of both lists. -/
theorem At.run (h : w.At a b o) (hmax : max (totalLength a) (totalLength b) ≤ maxLength) :
    ∃ s, w.run = .ok s ∧ ∀ k, s.labelsAt k =
      (Highlight.labelsAt a k).merge Labels.union (Highlight.labelsAt b k) := by
  induction w using Walk.run.induct generalizing o with
  | case1 w fault hstep =>
    rcases h.step hmax with ⟨hend, -⟩ | ⟨v, n, hnext, -⟩
    · rw [hstep] at hend
      cases hend
    · rw [hstep] at hnext
      cases hnext
  | case2 w hstep =>
    rcases h.step hmax with ⟨-, ho⟩ | ⟨v, n, hnext, -⟩
    · refine ⟨_, run_of_end hstep, fun k => ?_⟩
      by_cases hk : k < o
      · exact h.labelsAt_built k hk
      · have hout : w.built.spans.labelsAt k = none := by
          rw [labelsAt, labelsAt_eq_none_iff]
          show w.built.spans.length ≤ k
          rw [Builder.length_spans, h.length_built]
          omega
        rw [hout, labelsAt_eq_none_iff.2 (by omega), labelsAt_eq_none_iff.2 (by omega)]
        rfl
    · rw [hstep] at hnext
      cases hnext
  | case3 w v hstep hlt ih =>
    rcases h.step hmax with ⟨hend, -⟩ | ⟨v', n, hnext, hv⟩
    · rw [hstep] at hend
      cases hend
    · rw [hstep] at hnext
      cases hnext
      rw [run_of_step hstep]
      exact ih hv

end Walk

/-- The pass over two sets gives their overlay. -/
theorem run_start {a b : Spans} (ha : a.length ≤ maxLength) (hb : b.length ≤ maxLength) :
    ∃ s, (Walk.start a b).run = .ok s ∧ a.merge b = .ok s := by
  have hmax : max a.length b.length ≤ maxLength := Nat.max_le.2 ⟨ha, hb⟩
  obtain ⟨s, hs, hlabels⟩ := (Walk.At.start ha hb).run hmax
  exact ⟨s, hs, (merge_eq_ok hmax).2 hlabels⟩

/-! ## Overlays -/

/-- Two span sets are put over each other in one pass, which ends and in which no length is out of
bounds. The result is normal and as long as the longer set, and has at every offset the labels of
both, those of one if the other one has ended. -/
theorem merge_unites {a b : Spans} (ha : a.length ≤ maxLength) (hb : b.length ≤ maxLength) :
    ∃ s, (Walk.start a b).run = .ok s ∧ a.merge b = .ok s ∧ Normal s.runs ∧
      s.length = max a.length b.length ∧
      ∀ o < s.length, s.labelsAt o =
        some (((a.labelsAt o).getD .empty).union ((b.labelsAt o).getD .empty)) := by
  obtain ⟨s, hrun, hs⟩ := run_start ha hb
  refine ⟨s, hrun, hs, s.normal, length_of_merge hs, fun o ho => ?_⟩
  have hlabels := labelsAt_of_merge hs o
  obtain ⟨labels, hsome⟩ := exists_labelsAt ho
  cases hla : a.labelsAt o with
  | none =>
    cases hlb : b.labelsAt o with
    | none =>
      rw [hla, hlb, labelsAt, hsome] at hlabels
      cases hlabels
    | some l =>
      rw [hlabels, hla, hlb]
      rfl
  | some l =>
    cases hlb : b.labelsAt o with
    | none =>
      rw [hlabels, hla, hlb]
      exact congrArg some (Labels.union_empty l).symm
    | some m =>
      rw [hlabels, hla, hlb]
      rfl

/-- Runs that begin and end at different offsets, in sets of different lengths. -/
theorem merge_unites_misaligned :
    let a : Spans := ⟨[.labeled 3 "keyword", .plain 2], by decide, by decide, Nat.succ_pos 1⟩
    let b : Spans := ⟨[.plain 1, .labeled 3 "string"], by decide, by decide, Nat.succ_pos 2⟩
    a.length ≤ maxLength ∧ b.length ≤ maxLength ∧
      ∃ s, (Walk.start a b).run = .ok s ∧ a.merge b = .ok s ∧ Normal s.runs ∧ s.length = 5 ∧
        s.labelsAt 0 = some (.single "keyword") ∧
        s.labelsAt 2 = some (.ofList ["keyword", "string"]) ∧
        s.labelsAt 3 = some (.single "string") ∧ s.labelsAt 4 = some .empty := by
  intro a b
  have ha : a.length ≤ maxLength := by decide
  have hb : b.length ≤ maxLength := by decide
  obtain ⟨s, hrun, hs, hnormal, hlength, hlabels⟩ := merge_unites ha hb
  have hfive : s.length = 5 := hlength
  refine ⟨ha, hb, s, hrun, hs, hnormal, hfive, ?_, ?_, ?_, ?_⟩
  · exact hlabels 0 (by omega)
  · exact hlabels 2 (by omega)
  · exact hlabels 3 (by omega)
  · exact hlabels 4 (by omega)

end Spans

end Highlight
