import Highlight.Proofs.Spans.Labels

/-!
# The algebra of overlays

Overlaying is commutative, associative and idempotent, and the empty set is neutral, as are plain
ones that are not longer. An overlay unites the labels at each offset, so it has the laws of
`Labels.union`; that it then consists of the same runs is `Spans.merge_eq_ok`.

* `Spans.merge_semilattice`: all of these laws.
-/

namespace Highlight

namespace Spans

/-! ## Text without labels -/

theorem labelsAt_plain {n o : Nat} (h : o < n) : (plain n).labelsAt o = some .empty := by
  rw [plain, dif_pos (by omega)]
  exact labelsAt_cons_of_lt h .empty []

/-! ## Laws -/

variable {a b c s t u : Spans}

theorem merge_comm (hmax : max a.length b.length ≤ maxLength) (h : a.merge b = .ok s) :
    b.merge a = .ok s := by
  refine (merge_eq_ok (Nat.max_comm .. ▸ hmax)).2 fun o => ?_
  rw [labelsAt_of_merge h]
  exact Std.Commutative.comm _ _

theorem merge_assoc (hmax : max a.length (max b.length c.length) ≤ maxLength)
    (hs : a.merge b = .ok s) (ht : b.merge c = .ok t) (hu : s.merge c = .ok u) :
    a.merge t = .ok u := by
  refine (merge_eq_ok (by rwa [length_of_merge ht])).2 fun o => ?_
  rw [labelsAt_of_merge hu, labelsAt_of_merge hs, labelsAt_of_merge ht]
  exact Std.Associative.assoc _ _ _

theorem merge_self (ha : a.length ≤ maxLength) : a.merge a = .ok a :=
  (merge_eq_ok (by rwa [Nat.max_self])).2 fun _ => (Std.IdempotentOp.idempotent _).symm

/-- Text without labels changes nothing where there is text. -/
theorem merge_plain (ha : a.length ≤ maxLength) {n : Nat} (hn : n ≤ a.length) :
    a.merge (plain n) = .ok a := by
  refine (merge_eq_ok (by rwa [length_plain, Nat.max_eq_left hn])).2 fun o => ?_
  by_cases ho : o < n
  · obtain ⟨labels, hlabels⟩ := exists_labelsAt (Nat.lt_of_lt_of_le ho hn)
    rw [labelsAt_plain ho, labelsAt, hlabels]
    exact congrArg some (Labels.union_empty labels).symm
  · have hout : (plain n).labelsAt o = none :=
      labelsAt_eq_none_of_le (by rw [length_plain]; omega)
    rw [hout, Option.merge_none_right]

/-- Overlays are a semilattice with the empty set at the bottom, whatever the lengths of the sets
are: each law is an equality of runs. Plain sets that are not longer are neutral as well. -/
theorem merge_semilattice (ha : a.length ≤ maxLength) (hb : b.length ≤ maxLength)
    (hc : c.length ≤ maxLength) :
    (∃ s, a.merge b = .ok s ∧ b.merge a = .ok s) ∧
      (∃ s t u, a.merge b = .ok s ∧ b.merge c = .ok t ∧ s.merge c = .ok u ∧ a.merge t = .ok u) ∧
      a.merge a = .ok a ∧
      (a.merge .empty = .ok a ∧ Spans.empty.merge a = .ok a) ∧
      ∀ n ≤ a.length, a.merge (.plain n) = .ok a := by
  have hab : max a.length b.length ≤ maxLength := Nat.max_le.2 ⟨ha, hb⟩
  have hbc : max b.length c.length ≤ maxLength := Nat.max_le.2 ⟨hb, hc⟩
  obtain ⟨s, hs⟩ := exists_merge hab
  obtain ⟨t, ht⟩ := exists_merge hbc
  obtain ⟨u, hu⟩ : ∃ u, s.merge c = .ok u := exists_merge (by rw [length_of_merge hs]; omega)
  have hempty : a.merge .empty = .ok a := merge_plain ha (Nat.zero_le _)
  refine ⟨⟨s, hs, merge_comm hab hs⟩,
    ⟨s, t, u, hs, ht, hu, merge_assoc (Nat.max_le.2 ⟨ha, hbc⟩) hs ht hu⟩, merge_self ha,
    ⟨hempty, merge_comm ?_ hempty⟩, fun n hn => merge_plain ha hn⟩
  exact Nat.max_le.2 ⟨ha, Nat.zero_le _⟩

/-- Three sets of different lengths whose runs end at different offsets. -/
theorem merge_semilattice_misaligned :
    let a : Spans := ⟨[.labeled 3 "keyword", .plain 2], by decide, by decide, Nat.succ_pos 1⟩
    let b : Spans := ⟨[.plain 1, .labeled 3 "string"], by decide, by decide, Nat.succ_pos 2⟩
    let c : Spans := .labeled 2 "comment"
    a.length ≤ maxLength ∧ b.length ≤ maxLength ∧ c.length ≤ maxLength ∧
      (∃ s, a.merge b = .ok s ∧ b.merge a = .ok s) ∧
      (∃ s t u, a.merge b = .ok s ∧ b.merge c = .ok t ∧ s.merge c = .ok u ∧ a.merge t = .ok u) ∧
      a.merge a = .ok a ∧ (a.merge .empty = .ok a ∧ Spans.empty.merge a = .ok a) ∧
      a.merge (.plain 4) = .ok a := by
  intro a b c
  have ha : a.length ≤ maxLength := by decide
  have hb : b.length ≤ maxLength := by decide
  have hc : c.length ≤ maxLength := by decide
  obtain ⟨hcomm, hassoc, hself, hempty, hplain⟩ := merge_semilattice ha hb hc
  exact ⟨ha, hb, hc, hcomm, hassoc, hself, hempty, hplain 4 (by decide)⟩

end Spans

end Highlight
