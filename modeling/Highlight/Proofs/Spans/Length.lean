import Highlight.Spans.Marks
import Highlight.Spans.Overlay
import Highlight.Spans.Splice

/-!
# Lengths of span sets

How many characters the operations on span sets cover, run list by run list:

* `Spans.exists_build`, `Spans.build_eq_error`, `Spans.length_of_build`: building succeeds up to
  `maxLength` and no further, and covers what the runs cover;
* `Spans.length_of_merge`: an overlay is as long as the longer set;
* `Spans.length_of_ofMarks`: marks become a set of the length asked for;
* `Spans.exists_splice`: an edit within the text has spliced spans, of the length of the new text.
-/

namespace Highlight

/-! ## Parts of run lists -/

theorem totalLength_takeRuns {n : Nat} {runs : List Run} (h : n ≤ totalLength runs) :
    totalLength (takeRuns n runs) = n := by
  induction runs generalizing n with
  | nil =>
    simp only [totalLength] at h
    simp only [takeRuns, totalLength]
    omega
  | cons r runs ih =>
    simp only [totalLength] at h
    simp only [takeRuns]
    split
    · simp [totalLength]
    · rename_i hr
      rw [totalLength, ih (by omega)]
      omega

theorem totalLength_dropRuns (n : Nat) (runs : List Run) :
    totalLength (dropRuns n runs) = totalLength runs - n := by
  induction runs generalizing n with
  | nil => simp [dropRuns, totalLength]
  | cons r runs ih =>
    simp only [dropRuns]
    split
    · simp only [totalLength]
      omega
    · rename_i hr
      rw [ih, totalLength]
      omega

/-- A run laid over a list covers its own length of it, and leaves the rest. -/
theorem totalLength_overlayRun (labels : Labels) (n : Nat) (runs : List Run) :
    totalLength (overlayRun labels n runs).1 = n ∧
      totalLength (overlayRun labels n runs).2 = totalLength runs - n := by
  induction runs generalizing n with
  | nil => simp [overlayRun, totalLength]
  | cons s runs ih =>
    simp only [overlayRun]
    split
    · simp only [totalLength]
      omega
    · rename_i hs
      obtain ⟨h₁, h₂⟩ := ih (n - s.length)
      simp only [totalLength, h₁, h₂]
      omega

theorem totalLength_overlay (a b : List Run) :
    totalLength (overlay a b) = max (totalLength a) (totalLength b) := by
  induction a generalizing b with
  | nil => simp [overlay, totalLength]
  | cons r a ih =>
    obtain ⟨h₁, h₂⟩ := totalLength_overlayRun r.labels r.length b
    simp only [overlay, totalLength_append, ih, h₁, h₂, totalLength]
    omega

/-- The runs of a text from offset `last` on cover all of it, whatever the marks are. -/
theorem totalLength_markRuns {total last : Nat} (marks : List Mark) (h : last ≤ total) :
    totalLength (markRuns total last marks) = total - last := by
  induction marks generalizing last with
  | nil => simp [markRuns, totalLength, Run.plain]
  | cons m marks ih =>
    simp only [markRuns]
    split
    · exact ih h
    · simp only [totalLength, Run.plain]
      rw [ih (by omega)]
      omega

namespace Spans

/-! ## Building -/

namespace Builder

theorem length_of_add {b b' : Builder} {r : Run} (h : b.add r = .ok b') :
    b'.length = b.length + r.length := by
  unfold add at h
  split at h
  · split at h <;> cases h
    rfl
  · cases h
    omega

/-- A run that does not lead past `maxLength` can be added. -/
theorem exists_add {b : Builder} {r : Run} (h : b.length + r.length ≤ maxLength) :
    ∃ b', b.add r = .ok b' := by
  unfold add
  split
  · exact ⟨_, rfl⟩
  · exact ⟨_, rfl⟩

theorem length_of_foldlM_add {runs : List Run} {b b' : Builder}
    (h : runs.foldlM add b = .ok b') : b'.length = b.length + totalLength runs := by
  induction runs generalizing b with
  | nil =>
    cases h
    rfl
  | cons r runs ih =>
    rw [List.foldlM_cons] at h
    cases hr : b.add r with
    | error fault => rw [hr] at h; cases h
    | ok b₁ =>
      rw [hr] at h
      rw [ih h, length_of_add hr, totalLength, Nat.add_assoc]

theorem exists_foldlM_add {runs : List Run} {b : Builder}
    (h : b.length + totalLength runs ≤ maxLength) : ∃ b', runs.foldlM add b = .ok b' := by
  induction runs generalizing b with
  | nil => exact ⟨b, rfl⟩
  | cons r runs ih =>
    rw [totalLength] at h
    obtain ⟨b₁, hr⟩ := exists_add (b := b) (r := r) (by omega)
    rw [List.foldlM_cons, hr]
    exact ih (by rw [length_of_add hr]; omega)

/-- Runs that lead past `maxLength` cannot be added. -/
theorem foldlM_add_eq_error {runs : List Run} {b : Builder} (hb : b.length ≤ maxLength)
    (h : maxLength < b.length + totalLength runs) :
    runs.foldlM add b = .error .lengthOverflow := by
  induction runs generalizing b with
  | nil =>
    rw [totalLength] at h
    omega
  | cons r runs ih =>
    rw [totalLength] at h
    rw [List.foldlM_cons]
    by_cases hr : b.length + r.length ≤ maxLength
    · obtain ⟨b₁, hb₁⟩ := exists_add hr
      have hlen : b₁.length = b.length + r.length := length_of_add hb₁
      rw [hb₁]
      exact ih (by omega) (by omega)
    · have hadd : b.add r = .error .lengthOverflow := by
        rw [add, dif_pos (by omega), if_neg hr]
      rw [hadd]
      rfl

theorem length_spans (b : Builder) : b.spans.length = b.length := by
  rw [Spans.length, spans, totalLength_reverse, b.length_eq]

end Builder

theorem length_of_build {runs : List Run} {s : Spans} (h : build runs = .ok s) :
    s.length = totalLength runs := by
  unfold build at h
  cases hb : runs.foldlM Builder.add Builder.empty with
  | error fault => rw [hb] at h; cases h
  | ok b =>
    rw [hb] at h
    cases h
    rw [Builder.length_spans, Builder.length_of_foldlM_add hb]
    exact Nat.zero_add _

theorem exists_build {runs : List Run} (h : totalLength runs ≤ maxLength) :
    ∃ s, build runs = .ok s := by
  obtain ⟨b, hb⟩ := Builder.exists_foldlM_add (b := .empty) (by rwa [Builder.empty, Nat.zero_add])
  exact ⟨b.spans, by rw [build, hb]; rfl⟩

theorem build_eq_error {runs : List Run} (h : maxLength < totalLength runs) :
    build runs = .error .lengthOverflow := by
  have hfold : runs.foldlM Builder.add Builder.empty = .error .lengthOverflow :=
    Builder.foldlM_add_eq_error (Nat.zero_le _) (by rwa [Builder.empty, Nat.zero_add])
  rw [build, hfold]
  rfl

/-! ## Operations -/

@[simp] theorem length_plain (n : Nat) : (plain n).length = n := by
  unfold plain
  split
  · simp [length, totalLength, Run.plain]
  · rename_i h
    simp only [length, empty, totalLength]
    omega

theorem length_of_merge {a b s : Spans} (h : a.merge b = .ok s) :
    s.length = max a.length b.length := by
  rw [length_of_build h, totalLength_overlay, length, length]

theorem exists_merge {a b : Spans} (h : max a.length b.length ≤ maxLength) :
    ∃ s, a.merge b = .ok s :=
  exists_build (by rwa [totalLength_overlay])

theorem length_of_ofMarks {marks : List Mark} {total : Nat} {s : Spans}
    (h : ofMarks marks total = .ok s) : s.length = total := by
  rw [length_of_build h, totalLength_markRuns marks (Nat.zero_le total), Nat.sub_zero]

theorem exists_ofMarks (marks : List Mark) {total : Nat} (h : total ≤ maxLength) :
    ∃ s, ofMarks marks total = .ok s :=
  exists_build (by rwa [totalLength_markRuns marks (Nat.zero_le total), Nat.sub_zero])

theorem totalLength_spliced {s : Spans} {start stop : Nat} (inserted : Nat) (hle : start ≤ stop)
    (hstop : stop ≤ s.length) :
    totalLength (takeRuns start s.runs ++
        ⟨inserted, s.inherited start stop⟩ :: dropRuns stop s.runs) =
      s.length - (stop - start) + inserted := by
  rw [length] at hstop ⊢
  rw [totalLength_append, totalLength, totalLength_takeRuns (by omega), totalLength_dropRuns]
  show start + (inserted + _) = _
  omega

theorem length_of_splice {s t : Spans} {start stop inserted : Nat}
    (h : s.splice start stop inserted = .ok (.ok t)) :
    t.length = s.length - (stop - start) + inserted := by
  unfold splice at h
  split at h
  · rename_i hr
    rw [length_of_build (Except.ok.inj h), totalLength_spliced inserted hr.1 hr.2]
  · cases h

/-- An edit within the text has spliced spans, if the new text is not too long. -/
theorem exists_splice {s : Spans} {start stop inserted : Nat} (hle : start ≤ stop)
    (hstop : stop ≤ s.length) (hmax : s.length - (stop - start) + inserted ≤ maxLength) :
    ∃ t, s.splice start stop inserted = .ok (.ok t) := by
  have hmax' : totalLength (takeRuns start s.runs ++
      ⟨inserted, s.inherited start stop⟩ :: dropRuns stop s.runs) ≤ maxLength := by
    rwa [totalLength_spliced inserted hle hstop]
  obtain ⟨t, ht⟩ := exists_build hmax'
  exact ⟨t, by rw [splice, if_pos ⟨hle, hstop⟩, ht]⟩

/-! ## Stretches -/

/-- The stretches of normal runs are of some text each and end where the runs do. -/
theorem within_stretchesFrom {start : Nat} {runs : List Run} (h : Normal runs) {s : Stretch}
    (hs : s ∈ stretchesFrom start runs) :
    s.start < s.stop ∧ s.stop ≤ start + totalLength runs := by
  induction runs generalizing start with
  | nil => cases hs
  | cons r runs ih =>
    have hpos := h.length_pos
    rw [totalLength]
    rcases List.mem_cons.1 hs with rfl | hs
    · exact ⟨by show start < start + r.length; omega, by show start + r.length ≤ _; omega⟩
    · obtain ⟨hlt, hle⟩ := ih h.tail hs
      exact ⟨hlt, by omega⟩

/-- Every stretch is of some text and ends within the text. -/
theorem within_stretches (styles : Spans) {s : Stretch} (hs : s ∈ styles.stretches) :
    s.start < s.stop ∧ s.stop ≤ styles.length := by
  have h := within_stretchesFrom styles.normal hs
  rwa [Nat.zero_add] at h

/-! ## Plain span sets -/

theorem labels_eq_empty {l : Labels} (h : l.isEmpty = true) : l = .empty :=
  Labels.ext fun y => by
    rw [Labels.mem_def, List.isEmpty_iff.1 h]
    exact ⟨fun hy => (List.not_mem_nil hy).elim, fun hy => (Labels.not_mem_empty hy).elim⟩

/-- A span set without labels has at most one run. -/
theorem eq_plain_of_isPlain {s : Spans} (h : s.isPlain = true) : s = plain s.length := by
  obtain ⟨runs, normal⟩ := s
  rw [isPlain, List.all_eq_true] at h
  match runs, normal with
  | [], _ => rfl
  | [r], hr =>
    obtain ⟨n, l⟩ := r
    cases labels_eq_empty (h ⟨n, l⟩ (List.mem_singleton_self _))
    have hn : 0 < n := hr
    show _ = plain (n + 0)
    rw [Nat.add_zero, plain, dif_pos hn]
    rfl
  | r :: t :: runs, hr =>
    refine absurd ?_ hr.2.1
    rw [labels_eq_empty (h r (by simp)), labels_eq_empty (h t (by simp))]

end Spans

end Highlight
