import Highlight.Language.Basic
import Highlight.Proofs.Pattern.Consecutive

/-!
# The marks of a text

A scan makes a mark of every match that is not empty and gets a label, in order (`marksOf_eq_ok`).
Since matches follow one another, so do the marks (`Pattern.Consecutive.disjoint_marks`), and a mark
covers a character if and only if its match reads it (`exists_mark_iff`).
-/

namespace Highlight

open Classical in
/-- What does not hold of all items of a list fails at some item first. -/
theorem forall_or_first {α : Type} (P : α → Prop) (items : List α) :
    (∀ item ∈ items, P item) ∨ ∃ before item after, items = before ++ item :: after ∧
      (∀ earlier ∈ before, P earlier) ∧ ¬P item := by
  cases hfind : items.find? fun item => !decide (P item) with
  | none =>
    refine .inl fun item hitem => ?_
    simpa using List.find?_eq_none.1 hfind item hitem
  | some item =>
    obtain ⟨hitem, before, after, rfl, hbefore⟩ := List.find?_eq_some_iff_append.1 hfind
    exact .inr ⟨before, item, after, rfl, by simpa using hbefore, by simpa using hitem⟩

theorem eq_error_of_not_ok {ε α : Type} {x : Except ε α} (h : ¬∃ a, x = .ok a) :
    ∃ error, x = .error error := by
  cases x with
  | error error => exact ⟨error, rfl⟩
  | ok a => exact (h ⟨a, rfl⟩).elim

namespace Pattern

/-- The mark for a match, if it gets a label. -/
def Match.mark? (label : Match → Except Fault (Option Label)) (m : Match) : Option Mark :=
  match label m with
  | .ok (some l) => some (.labeled m.start.offset m.stop.offset l)
  | _ => none

variable {label : Match → Except Fault (Option Label)} {low high : Nat} {ms : List Match}

theorem Match.mark?_eq_some {m : Match} {k : Mark} :
    m.mark? label = some k ↔
      ∃ l, label m = .ok (some l) ∧ k = .labeled m.start.offset m.stop.offset l := by
  unfold mark?
  split
  · rename_i l hl
    simp [hl, eq_comm]
  · rename_i hno
    simp only [reduceCtorEq, false_iff]
    rintro ⟨l, hl, -⟩
    exact hno l hl

/-- If every match may be asked for its label, each match with a label gets a mark. -/
theorem marksOf_eq_ok (h : ∀ m ∈ ms, ∃ l, label m = .ok l) :
    marksOf label ms = .ok (ms.filterMap (Match.mark? label)) := by
  induction ms with
  | nil => rfl
  | cons m ms ih =>
    obtain ⟨⟨l, hl⟩, hrest⟩ := List.forall_mem_cons.1 h
    rw [marksOf, hl, ih hrest]
    cases l with
    | none => rw [List.filterMap_cons_none (by rw [Match.mark?, hl])]; rfl
    | some l => rw [List.filterMap_cons_some (by rw [Match.mark?, hl])]; rfl

/-- The first match that cannot be asked for its label decides. -/
theorem marksOf_eq_error {before after : List Match} {m : Match} {fault : Fault}
    (h : ∀ n ∈ before, ∃ l, label n = .ok l) (hm : label m = .error fault) :
    marksOf label (before ++ m :: after) = .error fault := by
  induction before with
  | nil =>
    rw [List.nil_append, marksOf, hm]
    rfl
  | cons n before ih =>
    obtain ⟨⟨l, hl⟩, hbefore⟩ := List.forall_mem_cons.1 h
    rw [List.cons_append, marksOf, hl, ok_bind]
    cases l with
    | none => exact ih hbefore
    | some l =>
      rw [ih hbefore]
      rfl

/-- The marks are of some text each and lie within the text. -/
theorem Consecutive.bounds_marks (h : Consecutive low high ms) {k : Mark}
    (hk : k ∈ ms.filterMap (Match.mark? label)) : k.start < k.stop ∧ k.stop ≤ high := by
  obtain ⟨m, hm, hmk⟩ := List.mem_filterMap.1 hk
  obtain ⟨l, -, rfl⟩ := Match.mark?_eq_some.1 hmk
  exact (h.bounds m hm).2

theorem Consecutive.disjoint_marks (h : Consecutive low high ms) :
    (ms.filterMap (Match.mark? label)).Pairwise fun k k' => k.stop ≤ k'.start := by
  refine h.disjoint.filterMap _ fun m m' hmm k hk k' hk' => ?_
  obtain ⟨l, -, rfl⟩ := Match.mark?_eq_some.1 hk
  obtain ⟨l', -, rfl⟩ := Match.mark?_eq_some.1 hk'
  exact hmm

/-- The marks over a character are those of the matches that read it. -/
theorem exists_mark_iff {o : Nat} {y : Label} :
    (∃ k ∈ ms.filterMap (Match.mark? label), k.start ≤ o ∧ o < k.stop ∧ y ∈ k.labels) ↔
      ∃ m ∈ ms, m.start.offset ≤ o ∧ o < m.stop.offset ∧ label m = .ok (some y) := by
  constructor
  · rintro ⟨k, hk, hstart, hstop, hy⟩
    obtain ⟨m, hm, hmk⟩ := List.mem_filterMap.1 hk
    obtain ⟨l, hl, rfl⟩ := Match.mark?_eq_some.1 hmk
    rw [Labels.mem_single.1 hy]
    exact ⟨m, hm, hstart, hstop, hl⟩
  · rintro ⟨m, hm, hstart, hstop, hl⟩
    refine ⟨.labeled m.start.offset m.stop.offset y, List.mem_filterMap.2 ⟨m, hm, ?_⟩, hstart, hstop,
      Labels.mem_single.2 rfl⟩
    exact Match.mark?_eq_some.2 ⟨y, hl, rfl⟩

end Pattern

end Highlight
