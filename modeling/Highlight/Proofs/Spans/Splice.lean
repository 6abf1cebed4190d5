import Highlight.Proofs.Spans.Labels

/-!
# Span sets follow edits

What an edit does to the labels, and how edits one after the other add up. The new text lies between
two characters, or at an end of the text, and carries what the labels on its two sides agree on
(`agreed`), which does not change if that is put between them. All statements are made offset by
offset; from there equal runs follow.

* `Spans.splice_outcome`: which edits are refused, which would be too long, and the labels after all
  others;
* `Spans.splice_composes`: replacing is deleting and inserting, typing is pasting, an insertion can be
  taken back, and deletions in one place add up.
-/

namespace Highlight

/-! ## Parts of run lists -/

theorem labelsAt_takeRuns {n o : Nat} (h : o < n) (runs : List Run) :
    labelsAt (takeRuns n runs) o = labelsAt runs o := by
  induction runs generalizing n o with
  | nil => rfl
  | cons r runs ih =>
    simp only [takeRuns]
    split
    · rw [labelsAt_cons_of_lt h, labelsAt_cons_of_lt (by omega)]
    · by_cases ho : o < r.length
      · rw [labelsAt_cons_of_lt ho, labelsAt_cons_of_lt ho]
      · rw [labelsAt_cons_of_le (by omega), labelsAt_cons_of_le (by omega), ih (by omega)]

theorem labelsAt_dropRuns (n : Nat) (runs : List Run) (o : Nat) :
    labelsAt (dropRuns n runs) o = labelsAt runs (n + o) := by
  induction runs generalizing n with
  | nil => rfl
  | cons r runs ih =>
    simp only [dropRuns]
    split
    · by_cases ho : n + o < r.length
      · rw [labelsAt_cons_of_lt ho, labelsAt_cons_of_lt (by omega)]
      · rw [labelsAt_cons_of_le (n := r.length) (by omega), labelsAt_cons_of_le (by omega)]
        congr 1
        omega
    · rw [ih, labelsAt_cons_of_le (by omega)]
      congr 1
      omega

/-! ## What two sides agree on -/

/-- The labels that the characters on two sides have in common, if there are characters on both
sides and all their labels agree. -/
def agreed (left right : Option Labels) : Labels :=
  match left, right with
  | some l, some r => if l = r then l else .empty
  | _, _ => .empty

theorem agreed_self (l : Labels) : agreed (some l) (some l) = l := if_pos rfl

theorem agreed_some_empty (left : Option Labels) : agreed left (some .empty) = .empty := by
  cases left with
  | none => rfl
  | some l =>
    show (if l = .empty then l else .empty) = .empty
    split
    · assumption
    · rfl

/-- What two sides agree on agrees with the left side as they do. -/
theorem agreed_agreed_right (left right : Option Labels) :
    agreed left (some (agreed left right)) = agreed left right := by
  match left, right with
  | none, _ => rfl
  | some l, none => exact agreed_some_empty (some l)
  | some l, some r =>
    by_cases h : l = r
    · subst h
      rw [agreed_self, agreed_self]
    · have hempty : agreed (some l) (some r) = .empty := if_neg h
      rw [hempty, agreed_some_empty]

theorem agreed_comm (left right : Option Labels) : agreed left right = agreed right left := by
  match left, right with
  | none, none | none, some _ | some _, none => rfl
  | some l, some r =>
    simp only [agreed]
    split <;> split <;> simp_all

theorem agreed_agreed_left (left right : Option Labels) :
    agreed (some (agreed left right)) right = agreed left right := by
  rw [agreed_comm, agreed_comm left, agreed_agreed_right]

namespace Spans

/-- The labels of the character before an offset, if there is one. -/
def labelsBefore (s : Spans) (o : Nat) : Option Labels := if o = 0 then none else s.labelsAt (o - 1)

theorem inherited_eq_agreed (s : Spans) (start stop : Nat) :
    s.inherited start stop = agreed (s.labelsBefore start) (s.labelsAt stop) := by
  cases start with
  | zero => rfl
  | succ before =>
    show _ = agreed (s.labelsAt before) (s.labelsAt stop)
    simp only [inherited]
    cases s.labelsAt before <;> cases s.labelsAt stop <;> rfl

/-- The labels inherited by new text, told by offsets. -/
theorem inherited_eq {s : Spans} {start stop : Nat} (h : start ≤ stop) :
    s.inherited start stop =
      if 0 < start ∧ stop < s.length ∧ s.labelsAt (start - 1) = s.labelsAt stop then
        (s.labelsAt stop).getD .empty
      else .empty := by
  cases start with
  | zero => rfl
  | succ before =>
    rw [inherited_eq_agreed]
    show agreed (s.labelsAt before) (s.labelsAt stop) = _
    by_cases hstop : stop < s.length
    · -- Both offsets are covered.
      have hbefore : before < s.length := by omega
      obtain ⟨left, hleft⟩ := exists_labelsAt hbefore
      obtain ⟨right, hright⟩ := exists_labelsAt hstop
      simp only [labelsAt, Nat.add_sub_cancel, hleft, hright, agreed, hstop, Nat.succ_pos, true_and,
        Option.some.injEq, Option.getD_some]
      split
      · assumption
      · rfl
    · have hend : s.labelsAt stop = none := labelsAt_eq_none_iff.2 (Nat.not_lt.1 hstop)
      rw [if_neg fun h => hstop h.2.1, hend, agreed_comm]
      rfl

/-! ## One edit -/

theorem splice_eq_build {s : Spans} {start stop : Nat} (h : start ≤ stop ∧ stop ≤ s.length)
    (inserted : Nat) :
    s.splice start stop inserted =
      .ok (build (takeRuns start s.runs ++
        ⟨inserted, s.inherited start stop⟩ :: dropRuns stop s.runs)) := if_pos h

/-- An edit that was made is within the text. -/
theorem le_of_splice {s t : Spans} {start stop inserted : Nat}
    (h : s.splice start stop inserted = .ok (.ok t)) : start ≤ stop ∧ stop ≤ s.length := by
  unfold splice at h
  split at h
  · assumption
  · cases h

section Spliced

variable {s t : Spans} {start stop inserted o : Nat}

theorem labelsAt_of_splice (h : s.splice start stop inserted = .ok (.ok t)) :
    t.labelsAt o = Highlight.labelsAt (takeRuns start s.runs ++
      ⟨inserted, s.inherited start stop⟩ :: dropRuns stop s.runs) o := by
  rw [splice_eq_build (le_of_splice h)] at h
  exact labelsAt_of_build (Except.ok.inj h) o

/-- The text before an edit keeps its labels. -/
theorem labelsAt_of_splice_of_lt (h : s.splice start stop inserted = .ok (.ok t)) (ho : o < start) :
    t.labelsAt o = s.labelsAt o := by
  obtain ⟨hle, hstop⟩ := le_of_splice h
  have htake : totalLength (takeRuns start s.runs) = start :=
    totalLength_takeRuns (Nat.le_trans hle hstop)
  rw [labelsAt_of_splice h, labelsAt_append_of_lt (by omega), labelsAt_takeRuns ho]
  rfl

/-- The new text carries what it inherits. -/
theorem labelsAt_of_splice_of_inserted (h : s.splice start stop inserted = .ok (.ok t))
    (hle : start ≤ o) (ho : o < start + inserted) :
    t.labelsAt o = some (s.inherited start stop) := by
  obtain ⟨hstart, hstop⟩ := le_of_splice h
  have htake : totalLength (takeRuns start s.runs) = start :=
    totalLength_takeRuns (Nat.le_trans hstart hstop)
  rw [labelsAt_of_splice h, labelsAt_append_of_le (by omega), labelsAt_cons_of_lt (by omega)]

/-- The text behind an edit keeps its labels, at other offsets. -/
theorem labelsAt_of_splice_of_le (h : s.splice start stop inserted = .ok (.ok t)) {k : Nat}
    (ho : o = start + inserted + k) : t.labelsAt o = s.labelsAt (stop + k) := by
  obtain ⟨hstart, hstop⟩ := le_of_splice h
  have htake : totalLength (takeRuns start s.runs) = start :=
    totalLength_takeRuns (Nat.le_trans hstart hstop)
  rw [labelsAt_of_splice h, labelsAt_append_of_le (by omega), labelsAt_cons_of_le (by omega),
    labelsAt_dropRuns, labelsAt]
  congr 1
  omega

end Spliced

/-- The span set in use after an edit was tried: the one there was if the edit is refused. -/
def afterSplice (s : Spans) (start stop inserted : Nat) : Except Fault Spans :=
  match s.splice start stop inserted with
  | .ok spliced => spliced
  | .error _ => .ok s

/-- What becomes of any edit. One that is reversed or reaches past the end is refused, and the span
set stays as it was. One after which the text would be longer than `maxLength` is a fault. All
others give the set of the new text: what lies before and behind the range keeps its labels, and the
new text carries the labels of the characters on its two sides if there are such and they agree. -/
theorem splice_outcome (s : Spans) (start stop inserted : Nat) :
    if start ≤ stop ∧ stop ≤ s.length then
      if s.length - (stop - start) + inserted ≤ maxLength then
        ∃ t, s.splice start stop inserted = .ok (.ok t) ∧
          s.afterSplice start stop inserted = .ok t ∧
          Normal t.runs ∧
          t.length = s.length - (stop - start) + inserted ∧
          (∀ o < start, t.labelsAt o = s.labelsAt o) ∧
          (∀ k, t.labelsAt (start + inserted + k) = s.labelsAt (stop + k)) ∧
          ∀ o, start ≤ o → o < start + inserted →
            t.labelsAt o = some
              (if 0 < start ∧ stop < s.length ∧ s.labelsAt (start - 1) = s.labelsAt stop then
                (s.labelsAt stop).getD .empty
              else .empty)
      else
        s.splice start stop inserted = .ok (.error .lengthOverflow) ∧
          s.afterSplice start stop inserted = .error .lengthOverflow
    else
      s.splice start stop inserted = .error (.outOfRange start stop s.length) ∧
        s.afterSplice start stop inserted = .ok s := by
  split
  · rename_i hrange
    split
    · rename_i hmax
      obtain ⟨t, ht⟩ := exists_splice hrange.1 hrange.2 hmax
      refine ⟨t, ht, by rw [afterSplice, ht], t.normal, length_of_splice ht,
        fun o ho => labelsAt_of_splice_of_lt ht ho, fun k => labelsAt_of_splice_of_le ht rfl,
        fun o hle ho => ?_⟩
      rw [labelsAt_of_splice_of_inserted ht hle ho, inherited_eq hrange.1]
    · rename_i hmax
      have hlong : s.splice start stop inserted = .ok (.error .lengthOverflow) := by
        rw [splice_eq_build hrange, build_eq_error]
        rw [totalLength_spliced inserted hrange.1 hrange.2]
        omega
      exact ⟨hlong, by rw [afterSplice, hlong]⟩
  · rename_i hrange
    have hrefused : s.splice start stop inserted = .error (.outOfRange start stop s.length) :=
      if_neg hrange
    exact ⟨hrefused, by rw [afterSplice, hrefused]⟩

/-! ## One edit after the other -/

section Composed

variable {s t u v : Spans} {a b c n m o p : Nat}

/-- Where an edit starts, the text before is the same afterwards. -/
theorem labelsBefore_of_splice (h : s.splice a b n = .ok (.ok t)) :
    t.labelsBefore a = s.labelsBefore a := by
  cases a with
  | zero => rfl
  | succ before => exact labelsAt_of_splice_of_lt h (Nat.lt_succ_self before)

/-- After a deletion new text inherits the same at its place as before it. -/
theorem inherited_of_deletion (h : s.splice a b 0 = .ok (.ok t)) :
    t.inherited a a = s.inherited a b := by
  have hright : t.labelsAt a = s.labelsAt b := labelsAt_of_splice_of_le (k := 0) h rfl
  rw [inherited_eq_agreed, inherited_eq_agreed, labelsBefore_of_splice h, hright]

/-- Anywhere in inserted text, its two ends included, new text inherits the same as it did. -/
theorem inherited_of_insertion (h : s.splice a a n = .ok (.ok t)) (hap : a ≤ p) (hpn : p ≤ a + n) :
    t.inherited p p = s.inherited a a := by
  have hinside : ∀ o, a ≤ o → o < a + n → t.labelsAt o = some (s.inherited a a) :=
    fun o hle ho => labelsAt_of_splice_of_inserted h hle ho
  have hleft : p ≠ a → t.labelsBefore p = some (s.inherited a a) := fun hp => by
    rw [labelsBefore, if_neg (by omega), hinside (p - 1) (by omega) (by omega)]
  have hright : p = a + n → t.labelsAt p = s.labelsAt a := fun hp =>
    labelsAt_of_splice_of_le (k := 0) h hp
  rw [inherited_eq_agreed t]
  by_cases hp : p = a
  · subst hp
    rw [labelsBefore_of_splice h]
    by_cases hn : n = 0
    · rw [hright (by omega), ← inherited_eq_agreed]
    · rw [hinside p (by omega) (by omega), inherited_eq_agreed, agreed_agreed_right]
  · rw [hleft hp]
    by_cases hend : p = a + n
    · rw [hright hend, inherited_eq_agreed, agreed_agreed_left]
    · rw [hinside p (by omega) (by omega), agreed_self]

/-- Replacing is deleting and then inserting. -/
theorem splice_eq_delete_insert (hab : a ≤ b) (hb : b ≤ s.length)
    (hn : s.length - (b - a) + n ≤ maxLength) :
    ∃ t u, s.splice a b 0 = .ok (.ok t) ∧ t.splice a a n = .ok (.ok u) ∧
      s.splice a b n = .ok (.ok u) := by
  obtain ⟨t, ht⟩ : ∃ t, s.splice a b 0 = .ok (.ok t) := exists_splice hab hb (by omega)
  have hlen := length_of_splice ht
  obtain ⟨u, hu⟩ : ∃ u, t.splice a a n = .ok (.ok u) :=
    exists_splice (Nat.le_refl a) (by omega) (by omega)
  obtain ⟨v, hv⟩ : ∃ v, s.splice a b n = .ok (.ok v) := exists_splice hab hb hn
  have huv : u = v := ext_labelsAt fun o => by
    by_cases hlt : o < a
    · rw [labelsAt_of_splice_of_lt hu hlt, labelsAt_of_splice_of_lt ht hlt,
        labelsAt_of_splice_of_lt hv hlt]
    by_cases hin : o < a + n
    · rw [labelsAt_of_splice_of_inserted hu (by omega) hin, inherited_of_deletion ht,
        labelsAt_of_splice_of_inserted hv (by omega) hin]
    obtain ⟨k, hk⟩ := Nat.exists_eq_add_of_le (Nat.not_lt.1 hin)
    rw [labelsAt_of_splice_of_le hu hk, labelsAt_of_splice_of_le (k := k) ht (by omega),
      labelsAt_of_splice_of_le hv hk]
  exact ⟨t, u, ht, hu, huv ▸ hv⟩

/-- Typing is pasting: text inserted anywhere in inserted text might as well have come with it. -/
theorem splice_insert_insert (ha : a ≤ s.length) (hap : a ≤ p) (hpn : p ≤ a + n)
    (hmax : s.length + n + m ≤ maxLength) :
    ∃ t u, s.splice a a n = .ok (.ok t) ∧ t.splice p p m = .ok (.ok u) ∧
      s.splice a a (n + m) = .ok (.ok u) := by
  obtain ⟨t, ht⟩ : ∃ t, s.splice a a n = .ok (.ok t) :=
    exists_splice (Nat.le_refl a) ha (by omega)
  have hlen := length_of_splice ht
  obtain ⟨u, hu⟩ : ∃ u, t.splice p p m = .ok (.ok u) :=
    exists_splice (Nat.le_refl p) (by omega) (by omega)
  obtain ⟨v, hv⟩ : ∃ v, s.splice a a (n + m) = .ok (.ok v) :=
    exists_splice (Nat.le_refl a) ha (by omega)
  have huv : u = v := ext_labelsAt fun o => by
    by_cases hlt : o < a
    · rw [labelsAt_of_splice_of_lt hu (by omega), labelsAt_of_splice_of_lt ht hlt,
        labelsAt_of_splice_of_lt hv hlt]
    by_cases hin : o < a + (n + m)
    · -- All of the new text carries the same, wherever the second part was put.
      rw [labelsAt_of_splice_of_inserted hv (by omega) hin]
      by_cases hp : o < p
      · rw [labelsAt_of_splice_of_lt hu hp, labelsAt_of_splice_of_inserted ht (by omega) (by omega)]
      by_cases hm : o < p + m
      · rw [labelsAt_of_splice_of_inserted hu (by omega) hm, inherited_of_insertion ht hap hpn]
      obtain ⟨k, hk⟩ := Nat.exists_eq_add_of_le (Nat.not_lt.1 hm)
      rw [labelsAt_of_splice_of_le hu hk,
        labelsAt_of_splice_of_inserted ht (by omega) (by omega)]
    obtain ⟨k, hk⟩ := Nat.exists_eq_add_of_le (Nat.not_lt.1 hin)
    rw [labelsAt_of_splice_of_le hv hk,
      labelsAt_of_splice_of_le (k := a + n - p + k) hu (by omega),
      labelsAt_of_splice_of_le (k := k) ht (by omega)]
  exact ⟨t, u, ht, hu, huv ▸ hv⟩

/-- Deleting what was inserted takes the insertion back. -/
theorem splice_insert_delete (ha : a ≤ s.length) (hmax : s.length + n ≤ maxLength) :
    ∃ t, s.splice a a n = .ok (.ok t) ∧ t.splice a (a + n) 0 = .ok (.ok s) := by
  obtain ⟨t, ht⟩ : ∃ t, s.splice a a n = .ok (.ok t) :=
    exists_splice (Nat.le_refl a) ha (by omega)
  have hlen := length_of_splice ht
  obtain ⟨u, hu⟩ : ∃ u, t.splice a (a + n) 0 = .ok (.ok u) :=
    exists_splice (Nat.le_add_right a n) (by omega) (by omega)
  have hus : u = s := ext_labelsAt fun o => by
    by_cases hlt : o < a
    · rw [labelsAt_of_splice_of_lt hu hlt, labelsAt_of_splice_of_lt ht hlt]
    obtain ⟨k, hk⟩ := Nat.exists_eq_add_of_le (Nat.not_lt.1 hlt)
    rw [labelsAt_of_splice_of_le hu hk, labelsAt_of_splice_of_le ht rfl, hk]
  exact ⟨t, ht, hus ▸ hu⟩

/-- Deletions in one place add up. -/
theorem splice_delete_delete (hab : a ≤ b) (hb : b ≤ s.length) (hac : a ≤ c)
    (hc : c ≤ s.length - (b - a)) (hmax : s.length ≤ maxLength) :
    ∃ t u, s.splice a b 0 = .ok (.ok t) ∧ t.splice a c 0 = .ok (.ok u) ∧
      s.splice a (b + (c - a)) 0 = .ok (.ok u) := by
  obtain ⟨t, ht⟩ : ∃ t, s.splice a b 0 = .ok (.ok t) := exists_splice hab hb (by omega)
  have hlen := length_of_splice ht
  obtain ⟨u, hu⟩ : ∃ u, t.splice a c 0 = .ok (.ok u) := exists_splice hac (by omega) (by omega)
  obtain ⟨v, hv⟩ : ∃ v, s.splice a (b + (c - a)) 0 = .ok (.ok v) :=
    exists_splice (by omega) (by omega) (by omega)
  have huv : u = v := ext_labelsAt fun o => by
    by_cases hlt : o < a
    · rw [labelsAt_of_splice_of_lt hu hlt, labelsAt_of_splice_of_lt ht hlt,
        labelsAt_of_splice_of_lt hv hlt]
    obtain ⟨k, hk⟩ := Nat.exists_eq_add_of_le (Nat.not_lt.1 hlt)
    rw [labelsAt_of_splice_of_le hu hk, labelsAt_of_splice_of_le hv hk,
      labelsAt_of_splice_of_le (k := c - a + k) ht (by omega), Nat.add_assoc]
  exact ⟨t, u, ht, hu, huv ▸ hv⟩

end Composed

/-- Edits compose as what they do to a text does. Within the bounds of the text and of `maxLength`:
replacing is deleting and then inserting; to insert into inserted text, at either of its ends or
anywhere between, is to insert all of it at once; deleting what was inserted gives back the set
there was; and a deletion and a second one at the same place are one. Both sides are equal as sets
of runs. -/
theorem splice_composes {s : Spans} (hs : s.length ≤ maxLength) :
    (∀ a b n, a ≤ b → b ≤ s.length → s.length - (b - a) + n ≤ maxLength →
      ∃ t u, s.splice a b 0 = .ok (.ok t) ∧ t.splice a a n = .ok (.ok u) ∧
        s.splice a b n = .ok (.ok u)) ∧
    (∀ a n p m, a ≤ s.length → a ≤ p → p ≤ a + n → s.length + n + m ≤ maxLength →
      ∃ t u, s.splice a a n = .ok (.ok t) ∧ t.splice p p m = .ok (.ok u) ∧
        s.splice a a (n + m) = .ok (.ok u)) ∧
    (∀ a n, a ≤ s.length → s.length + n ≤ maxLength →
      ∃ t, s.splice a a n = .ok (.ok t) ∧ t.splice a (a + n) 0 = .ok (.ok s)) ∧
    ∀ a b c, a ≤ b → b ≤ s.length → a ≤ c → c ≤ s.length - (b - a) →
      ∃ t u, s.splice a b 0 = .ok (.ok t) ∧ t.splice a c 0 = .ok (.ok u) ∧
        s.splice a (b + (c - a)) 0 = .ok (.ok u) :=
  ⟨fun _ _ _ hab hb hn => splice_eq_delete_insert hab hb hn,
    fun _ _ _ _ ha hap hpn hmax => splice_insert_insert ha hap hpn hmax,
    fun _ _ ha hmax => splice_insert_delete ha hmax,
    fun _ _ _ hab hb hac hc => splice_delete_delete hab hb hac hc hs⟩

/-- A keyword, a gap and a string. A replacement across the first boundary, typing on the second,
an insertion into the keyword that is taken back, and two deletions from inside the keyword to
inside the string. -/
theorem splice_composes_three_runs :
    let s : Spans :=
      ⟨[.labeled 4 "keyword", .plain 3, .labeled 2 "string"], by decide, by decide, by decide,
        by decide, Nat.succ_pos 1⟩
    s.length ≤ maxLength ∧
      (∃ t u, s.splice 2 6 0 = .ok (.ok t) ∧ t.splice 2 2 5 = .ok (.ok u) ∧
        s.splice 2 6 5 = .ok (.ok u)) ∧
      (∃ t u, s.splice 7 7 1 = .ok (.ok t) ∧ t.splice 8 8 1 = .ok (.ok u) ∧
        s.splice 7 7 2 = .ok (.ok u)) ∧
      (∃ t, s.splice 3 3 2 = .ok (.ok t) ∧ t.splice 3 5 0 = .ok (.ok s)) ∧
      ∃ t u, s.splice 3 5 0 = .ok (.ok t) ∧ t.splice 3 6 0 = .ok (.ok u) ∧
        s.splice 3 8 0 = .ok (.ok u) := by
  intro s
  have hs : s.length ≤ maxLength := by decide
  obtain ⟨replacing, typing, undoing, deleting⟩ := splice_composes hs
  exact ⟨hs, replacing 2 6 5 (by decide) (by decide) (by decide),
    typing 7 1 8 1 (by decide) (by decide) (by decide) (by decide),
    undoing 3 2 (by decide) (by decide),
    deleting 3 5 6 (by decide) (by decide) (by decide) (by decide)⟩

end Spans

end Highlight
