import Highlight.Contributor.BracketScan
import Highlight.Proofs.Spans.Marks

/-!
# Brackets and their partners

From one bracket to another of its kind the text is balanced if, reading on from the first of them,
there are never more brackets of the kind closed than opened, and as many in the end (`Balanced`). The
partner of an opening bracket is the nearest position behind it up to which the text is balanced, and
that of a closing one the nearest position before it (`Partners`).

The scan is followed by the height of the text over an offset (`height`): of the brackets before it,
how many more are opened than closed. An opening bracket and its partner are the ends of a stretch of
text that comes back to the height it began at, and is higher all the way between (`Encloses`). Read
backwards, with the brackets exchanged, such a stretch is one again, which is why a scan from its one
end stops at the other (`partner?_eq_some_iff`).

* `Partners.symm`: each of two partners is the other's;
* `scanPartner_eq`: the scan never fails;
* `bracketMatch_pairs`: what the scan finds and what is labelled.
-/

namespace Highlight

/-- The characters from `first` up to `last`, both included. -/
def between (chars : List Char) (first last : Nat) : List Char := (chars.take (last + 1)).drop first

/-- From `first` up to `last`, both included, the brackets of a kind are balanced. -/
structure Balanced (kind : Char × Char) (chars : List Char) (first last : Nat) : Prop where
  even : (between chars first last).count kind.2 = (between chars first last).count kind.1
  nested : ∀ k, first ≤ k → k ≤ last →
    (between chars first k).count kind.2 ≤ (between chars first k).count kind.1

/-- There is a bracket at `p`, and `q` is the nearest position, behind an opening bracket and before
a closing one, so that from one to the other the brackets of its kind are balanced. -/
inductive Partners (chars : List Char) (p q : Nat) : Prop where
  | opening {kind : Char × Char} (hkind : kind ∈ bracketPairs) (hp : chars[p]? = some kind.1)
      (hlt : p < q) (hq : q < chars.length) (hbalanced : Balanced kind chars p q)
      (hnearest : ∀ k, p < k → k < q → ¬Balanced kind chars p k)
  | closing {kind : Char × Char} (hkind : kind ∈ bracketPairs) (hp : chars[p]? = some kind.2)
      (hlt : q < p) (hbalanced : Balanced kind chars q p)
      (hnearest : ∀ k, q < k → k < p → ¬Balanced kind chars k p)

/-- The pair of brackets that belongs to a caret: that of the bracket at the caret or, if this one has
no partner, that of the bracket just before it. -/
def PairAt (chars : List Char) (caret p q : Nat) : Prop :=
  Partners chars p q ∧ (p = caret ∨ p + 1 = caret ∧ ∀ r, ¬Partners chars caret r)

variable {chars : List Char} {kind : Char × Char} {c : Char} {p q n : Nat}

/-! ## Kinds of brackets -/

/-- No character is a bracket of two kinds, or both opens and closes. -/
theorem find?_of_mem (hkind : kind ∈ bracketPairs) :
    kind.1 ≠ kind.2 ∧ bracketPairs.find? (·.1 == kind.1) = some kind ∧
      bracketPairs.find? (·.1 == kind.2) = none ∧
      bracketPairs.find? (·.2 == kind.2) = some kind := by
  revert kind
  decide

theorem ne_of_mem (hkind : kind ∈ bracketPairs) : kind.1 ≠ kind.2 := (find?_of_mem hkind).1

/-- A character is a bracket that opens, one that closes, or none. -/
theorem bracket_cases (c : Char) :
    (∃ kind ∈ bracketPairs, c = kind.1) ∨ (∃ kind ∈ bracketPairs, c = kind.2) ∨
      bracketPairs.find? (·.1 == c) = none ∧ bracketPairs.find? (·.2 == c) = none := by
  cases hopen : bracketPairs.find? (·.1 == c) with
  | some kind =>
    exact .inl ⟨kind, List.mem_of_find?_eq_some hopen,
      (beq_iff_eq.1 (List.find?_some hopen :)).symm⟩
  | none =>
    cases hclose : bracketPairs.find? (·.2 == c) with
    | some kind =>
      exact .inr (.inl ⟨kind, List.mem_of_find?_eq_some hclose,
        (beq_iff_eq.1 (List.find?_some hclose :)).symm⟩)
    | none => exact .inr (.inr ⟨rfl, rfl⟩)

/-! ## Heights -/

/-- How many more brackets of a kind are opened than closed before an offset. -/
def height (kind : Char × Char) (chars : List Char) (n : Nat) : Int :=
  (chars.take n).count kind.1 - (chars.take n).count kind.2

/-- By how much a character changes the height. -/
def rise (kind : Char × Char) (c : Char) : Int :=
  (if c = kind.1 then 1 else 0) - if c = kind.2 then 1 else 0

@[simp]
theorem height_zero (kind : Char × Char) (chars : List Char) : height kind chars 0 = 0 := rfl

theorem height_cons (kind : Char × Char) (c : Char) (cs : List Char) (n : Nat) :
    height kind (c :: cs) (n + 1) = rise kind c + height kind cs n := by
  simp only [height, rise, List.take_succ_cons, List.count_cons, beq_iff_eq]
  split <;> split <;> omega

theorem rise_opening (hne : kind.1 ≠ kind.2) : rise kind kind.1 = 1 := by simp [rise, hne]

theorem rise_closing (hne : kind.1 ≠ kind.2) : rise kind kind.2 = -1 := by simp [rise, hne.symm]

theorem height_succ (kind : Char × Char) (h : chars[n]? = some c) :
    height kind chars (n + 1) = height kind chars n + rise kind c := by
  simp only [height, rise, List.take_add_one, h, Option.toList_some, List.count_append,
    List.count_singleton, beq_iff_eq]
  split <;> split <;> omega

/-- Behind the end nothing is opened or closed. -/
theorem height_succ_of_none (h : chars[n]? = none) :
    height kind chars (n + 1) = height kind chars n := by
  simp only [height, List.take_add_one, h, Option.toList_none, List.append_nil]

theorem opening_of_height_lt (h : height kind chars n < height kind chars (n + 1)) :
    chars[n]? = some kind.1 := by
  cases hc : chars[n]? with
  | none =>
    rw [height_succ_of_none hc] at h
    omega
  | some c =>
    rw [height_succ kind hc, rise] at h
    split at h
    · next heq => rw [heq]
    · split at h <;> omega

theorem closing_of_lt_height (h : height kind chars (n + 1) < height kind chars n) :
    chars[n]? = some kind.2 := by
  cases hc : chars[n]? with
  | none =>
    rw [height_succ_of_none hc] at h
    omega
  | some c =>
    rw [height_succ kind hc, rise] at h
    split at h
    · split at h <;> omega
    · split at h
      · next heq => rw [heq]
      · omega

/-- From an offset on the heights are those of the rest of the text, raised by the height there. -/
theorem height_drop (kind : Char × Char) (chars : List Char) (p n : Nat) :
    height kind (chars.drop p) n = height kind chars (p + n) - height kind chars p := by
  simp only [height, List.take_add, List.count_append]
  omega

/-- Read backwards, with the brackets exchanged, the heights are the same but for a constant. -/
theorem height_reverse (kind : Char × Char) (hp : p ≤ chars.length) :
    height kind.swap (chars.take p).reverse n =
      height kind chars (p - n) - height kind chars p := by
  have hsplit := List.take_append_drop (p - n) (chars.take p)
  rw [List.take_take, Nat.min_eq_left (Nat.sub_le p n)] at hsplit
  have hcount : ∀ c, ((chars.take p).reverse.take n).count c + (chars.take (p - n)).count c =
      (chars.take p).count c := fun c => by
    rw [List.take_reverse, List.count_reverse, List.length_take, Nat.min_eq_left hp, Nat.add_comm,
      ← List.count_append, hsplit]
  simp only [height, ← hcount, Prod.fst_swap, Prod.snd_swap]
  omega

/-- Balance in terms of heights. -/
theorem balanced_iff {first last : Nat} (h : first ≤ last) :
    Balanced kind chars first last ↔
      height kind chars (last + 1) = height kind chars first ∧
        ∀ k, first ≤ k → k ≤ last → height kind chars first ≤ height kind chars (k + 1) := by
  have hcount : ∀ c k, first ≤ k → (between chars first k).count c + (chars.take first).count c =
      (chars.take (k + 1)).count c := fun c k hk => by
    have hsplit := List.take_append_drop first (chars.take (k + 1))
    rw [List.take_take, Nat.min_eq_left (Nat.le_succ_of_le hk)] at hsplit
    rw [between, Nat.add_comm, ← List.count_append, hsplit]
  have hheight : ∀ k, first ≤ k → height kind chars (k + 1) =
      height kind chars first + (between chars first k).count kind.1 -
        (between chars first k).count kind.2 := fun k hk => by
    simp only [height, ← hcount _ k hk]
    omega
  constructor
  · rintro ⟨heven, hnested⟩
    refine ⟨?_, fun k hfirst hlast => ?_⟩
    · rw [hheight last h, heven]
      omega
    · rw [hheight k hfirst]
      have := hnested k hfirst hlast
      omega
  · rintro ⟨heven, hnested⟩
    refine ⟨?_, fun k hfirst hlast => ?_⟩
    · rw [hheight last h] at heven
      omega
    · have := hnested k hfirst hlast
      rw [hheight k hfirst] at this
      omega

/-! ## The end of a scan -/

/-- One character more: the scan stops if it is at depth zero, and goes on from its depth if not. -/
theorem closingDistance_cons (hne : kind.1 ≠ kind.2) {depth : Nat} (cs : List Char)
    (hd : 0 < depth ∨ c = kind.1) : ∃ depth' : Nat, (depth' : Int) = depth + rise kind c ∧
      closingDistance kind.1 kind.2 depth (c :: cs) =
        if depth' = 0 then some 0 else (closingDistance kind.1 kind.2 depth' cs).map (· + 1) := by
  rw [closingDistance]
  by_cases hopen : c = kind.1
  · refine ⟨depth + 1, ?_, by rw [if_pos hopen, if_neg (Nat.succ_ne_zero depth)]⟩
    rw [hopen, rise_opening hne]
    omega
  · have hd : 0 < depth := hd.resolve_right hopen
    rw [if_neg hopen]
    by_cases hclose : c = kind.2
    · refine ⟨depth - 1, ?_, by simp only [if_pos hclose, Nat.sub_eq_zero_iff_le]⟩
      rw [hclose, rise_closing hne]
      omega
    · refine ⟨depth, ?_, by rw [if_neg hclose, if_neg (Nat.ne_of_gt hd)]⟩
      simp [rise, hopen, hclose]

/-- With a bracket open, or at one that opens, the scan stops at the character behind which it is at
depth zero for the first time. -/
theorem closingDistance_eq_some_iff (hne : kind.1 ≠ kind.2) {cs : List Char} {depth : Nat}
    (hd : 0 < depth ∨ cs.head? = some kind.1) :
    closingDistance kind.1 kind.2 depth cs = some n ↔
      n < cs.length ∧ depth + height kind cs (n + 1) = 0 ∧
        ∀ k, 0 < k → k ≤ n → 0 < depth + height kind cs k := by
  induction cs generalizing depth n with
  | nil => simp [closingDistance]
  | cons c cs ih =>
    obtain ⟨depth', hdepth, hscan⟩ :=
      closingDistance_cons (c := c) hne cs (hd.imp_right Option.some.inj)
    have hheight : ∀ k, depth + height kind (c :: cs) (k + 1) = depth' + height kind cs k :=
      fun k => by rw [height_cons, hdepth, Int.add_assoc]
    rw [hscan, hheight]
    by_cases hzero : depth' = 0
    · rw [if_pos hzero, Option.some.injEq]
      constructor
      · rintro rfl
        exact ⟨Nat.succ_pos _, by simp [hzero], fun k hk hle => by omega⟩
      · rintro ⟨-, -, hpos⟩
        -- Behind the first character the depth is zero, so the scan is not past it.
        refine (Nat.eq_zero_of_not_pos fun hn => ?_).symm
        have := hpos 1 Nat.one_pos hn
        rw [hheight, hzero] at this
        exact absurd this (Int.lt_irrefl 0)
    · have hpositive : 0 < depth' := Nat.pos_of_ne_zero hzero
      rw [if_neg hzero, Option.map_eq_some_iff]
      constructor
      · rintro ⟨m, hm, rfl⟩
        obtain ⟨hlength, hend, hpos⟩ := (ih (.inl hpositive)).1 hm
        refine ⟨Nat.succ_lt_succ hlength, hend, fun k hk hle => ?_⟩
        obtain ⟨j, rfl⟩ := Nat.exists_eq_succ_of_ne_zero (Nat.ne_of_gt hk)
        rw [hheight]
        cases j with
        | zero => simpa using hpositive
        | succ j => exact hpos (j + 1) (Nat.succ_pos j) (Nat.le_of_succ_le_succ hle)
      · rintro ⟨hlength, hend, hpos⟩
        cases n with
        | zero =>
          rw [height_zero] at hend
          omega
        | succ m =>
          refine ⟨m, (ih (.inl hpositive)).2
            ⟨Nat.lt_of_succ_lt_succ hlength, hend, fun k hk hle => ?_⟩, rfl⟩
          rw [← hheight]
          exact hpos (k + 1) (Nat.succ_pos k) (Nat.succ_le_succ hle)

/-! ## Partners -/

/-- A stretch of text that comes back to the height it began at and is higher all the way between. -/
structure Encloses (kind : Char × Char) (chars : List Char) (first last : Nat) : Prop where
  lt : first < last
  level : height kind chars (last + 1) = height kind chars first
  above : ∀ k, first < k → k ≤ last → height kind chars first < height kind chars k

theorem Encloses.opening (h : Encloses kind chars p q) : chars[p]? = some kind.1 :=
  opening_of_height_lt (h.above (p + 1) (Nat.lt_succ_self p) h.lt)

theorem Encloses.closing (h : Encloses kind chars p q) : chars[q]? = some kind.2 :=
  closing_of_lt_height (h.level ▸ h.above q h.lt (Nat.le_refl q))

/-- Back from a position, the characters up to it begin with the one there. -/
theorem head?_take_reverse (hp : chars[p]? = some c) :
    (chars.take (p + 1)).reverse.head? = some c := by
  rw [List.take_add_one, hp, Option.toList_some, List.reverse_concat, List.head?_cons]

theorem length_take_succ (hp : chars[p]? = some c) : (chars.take (p + 1)).length = p + 1 := by
  rw [List.length_take, Nat.min_eq_left (List.getElem?_eq_some_iff.1 hp).1]

theorem partner?_opening (hkind : kind ∈ bracketPairs) (hp : chars[p]? = some kind.1) :
    partner? chars p = some q ↔ Encloses kind chars p q := by
  have hne := ne_of_mem hkind
  have hheight := height_succ kind hp
  rw [rise_opening hne] at hheight
  rw [partner?, hp]
  simp only [(find?_of_mem hkind).2.1]
  rw [Option.map_eq_some_iff]
  simp only [closingDistance_eq_some_iff hne (.inr (List.head?_drop.trans hp)), height_drop,
    List.length_drop, ← Nat.add_assoc]
  constructor
  · rintro ⟨n, ⟨hlength, hend, hpos⟩, rfl⟩
    have hn : n ≠ 0 := by
      rintro rfl
      rw [Nat.add_zero] at hend
      omega
    refine ⟨by omega, by omega, fun k hk hle => ?_⟩
    have := hpos (k - p) (by omega) (by omega)
    rw [Nat.add_sub_cancel' (Nat.le_of_lt hk)] at this
    omega
  · intro h
    have hq := (List.getElem?_eq_some_iff.1 h.closing).1
    have hlt := h.lt
    refine ⟨q - p, ⟨by omega, ?_, fun k hk hle => ?_⟩, Nat.add_sub_cancel' (Nat.le_of_lt hlt)⟩
    · rw [Nat.add_sub_cancel' (Nat.le_of_lt hlt), h.level]
      omega
    · have := h.above (p + k) (by omega) (by omega)
      omega

theorem partner?_closing (hkind : kind ∈ bracketPairs) (hp : chars[p]? = some kind.2) :
    partner? chars p = some q ↔ Encloses kind chars q p := by
  have hne := ne_of_mem hkind
  obtain ⟨-, -, hnone, hsome⟩ := find?_of_mem hkind
  have hlt : p + 1 ≤ chars.length := (List.getElem?_eq_some_iff.1 hp).1
  have hheight := height_succ kind hp
  rw [rise_closing hne] at hheight
  rw [partner?, hp]
  simp only [hnone, hsome]
  have hscan : ∀ n, closingDistance kind.2 kind.1 0 (chars.take (p + 1)).reverse = some n ↔ _ :=
    fun n => closingDistance_eq_some_iff (show kind.swap.1 ≠ kind.swap.2 from hne.symm)
      (.inr (head?_take_reverse hp))
  simp only [Option.map_eq_some_iff, hscan, height_reverse kind hlt, List.length_reverse,
    length_take_succ hp, Nat.add_sub_add_right]
  constructor
  · rintro ⟨n, ⟨hlength, hend, hpos⟩, rfl⟩
    have hn : n ≠ 0 := by
      rintro rfl
      rw [Nat.sub_zero] at hend
      omega
    refine ⟨by omega, by omega, fun k hk hle => ?_⟩
    have := hpos (p + 1 - k) (by omega) (by omega)
    rw [Nat.sub_sub_self (by omega)] at this
    omega
  · intro h
    have hqp := h.lt
    have hlevel := h.level
    refine ⟨p - q, ⟨by omega, ?_, fun k hk hle => ?_⟩, Nat.sub_sub_self (Nat.le_of_lt hqp)⟩
    · rw [Nat.sub_sub_self (Nat.le_of_lt hqp)]
      omega
    · have := h.above (p + 1 - k) (by omega) (by omega)
      omega

/-- The partner that is found is at the other end of such a stretch. -/
theorem partner?_eq_some_iff_encloses :
    partner? chars p = some q ↔
      ∃ kind ∈ bracketPairs, Encloses kind chars p q ∨ Encloses kind chars q p := by
  constructor
  · intro h
    cases hp : chars[p]? with
    | none => simp [partner?, hp] at h
    | some c =>
      rcases bracket_cases c with ⟨kind, hkind, rfl⟩ | ⟨kind, hkind, rfl⟩ | ⟨hopen, hclose⟩
      · exact ⟨kind, hkind, .inl ((partner?_opening hkind hp).1 h)⟩
      · exact ⟨kind, hkind, .inr ((partner?_closing hkind hp).1 h)⟩
      · simp [partner?, hp, hopen, hclose] at h
  · rintro ⟨kind, hkind, h | h⟩
    · exact (partner?_opening hkind h.opening).2 h
    · exact (partner?_closing hkind h.closing).2 h

/-- An opening bracket and the nearest position up to which the text is balanced. -/
theorem encloses_iff_opening (hne : kind.1 ≠ kind.2) :
    Encloses kind chars p q ↔
      chars[p]? = some kind.1 ∧ p < q ∧ q < chars.length ∧ Balanced kind chars p q ∧
        ∀ k, p < k → k < q → ¬Balanced kind chars p k := by
  constructor
  · intro h
    have hlevel := h.level
    refine ⟨h.opening, h.lt, (List.getElem?_eq_some_iff.1 h.closing).1,
      (balanced_iff (Nat.le_of_lt h.lt)).2 ⟨hlevel, fun k hk hle => ?_⟩, fun k hk hlt hbal => ?_⟩
    · rcases Nat.lt_or_eq_of_le hle with hlt | rfl
      · exact Int.le_of_lt (h.above (k + 1) (by omega) hlt)
      · exact Int.le_of_eq hlevel.symm
    · have := h.above (k + 1) (by omega) hlt
      have := ((balanced_iff (Nat.le_of_lt hk)).1 hbal).1
      omega
  · rintro ⟨hp, hlt, hq, hbal, hnearest⟩
    obtain ⟨heven, hnested⟩ := (balanced_iff (Nat.le_of_lt hlt)).1 hbal
    refine ⟨hlt, heven, fun k hk hle => Int.lt_iff_le_and_ne.2 ⟨?_, fun heq => ?_⟩⟩
    · have := hnested (k - 1) (by omega) (by omega)
      rwa [Nat.sub_add_cancel (by omega)] at this
    · -- It would be balanced up to the character before already.
      have hrise := height_succ kind hp
      rw [rise_opening hne] at hrise
      have hk₁ : k ≠ p + 1 := by
        rintro rfl
        omega
      refine hnearest (k - 1) (by omega) (by omega)
        ((balanced_iff (by omega)).2 ⟨?_, fun j hj hle => hnested j hj (by omega)⟩)
      rw [Nat.sub_add_cancel (by omega), heq]

/-- A closing bracket and the nearest position down to which the text is balanced. -/
theorem encloses_iff_closing (hne : kind.1 ≠ kind.2) :
    Encloses kind chars q p ↔
      chars[p]? = some kind.2 ∧ q < p ∧ Balanced kind chars q p ∧
        ∀ k, q < k → k < p → ¬Balanced kind chars k p := by
  constructor
  · intro h
    obtain ⟨-, -, -, hbal, -⟩ := (encloses_iff_opening hne).1 h
    refine ⟨h.closing, h.lt, hbal, fun k hk hlt hbal => ?_⟩
    have := h.above k hk (Nat.le_of_lt hlt)
    have := ((balanced_iff (Nat.le_of_lt hlt)).1 hbal).1
    have := h.level
    omega
  · rintro ⟨hp, hlt, hbal, hnearest⟩
    obtain ⟨heven, hnested⟩ := (balanced_iff (Nat.le_of_lt hlt)).1 hbal
    refine ⟨hlt, heven, fun k hk hle => Int.lt_iff_le_and_ne.2 ⟨?_, fun heq => ?_⟩⟩
    · have := hnested (k - 1) (by omega) (by omega)
      rwa [Nat.sub_add_cancel (by omega)] at this
    · -- It would be balanced from there on already.
      have hrise := height_succ kind hp
      rw [rise_closing hne] at hrise
      have hkp : k ≠ p := by
        rintro rfl
        omega
      exact hnearest k hk (by omega) ((balanced_iff hle).2
        ⟨heven.trans heq, fun j hj hle => heq ▸ hnested j (by omega) hle⟩)

/-- The partner that is found is the nearest position of that kind. -/
theorem partner?_eq_some_iff : partner? chars p = some q ↔ Partners chars p q := by
  rw [partner?_eq_some_iff_encloses]
  constructor
  · rintro ⟨kind, hkind, h | h⟩
    · obtain ⟨hp, hlt, hq, hbalanced, hnearest⟩ := (encloses_iff_opening (ne_of_mem hkind)).1 h
      exact .opening hkind hp hlt hq hbalanced hnearest
    · obtain ⟨hp, hlt, hbalanced, hnearest⟩ := (encloses_iff_closing (ne_of_mem hkind)).1 h
      exact .closing hkind hp hlt hbalanced hnearest
  · rintro (⟨hkind, hp, hlt, hq, hbalanced, hnearest⟩ | ⟨hkind, hp, hlt, hbalanced, hnearest⟩)
    · exact ⟨_, hkind, .inl
        ((encloses_iff_opening (ne_of_mem hkind)).2 ⟨hp, hlt, hq, hbalanced, hnearest⟩)⟩
    · exact ⟨_, hkind, .inr
        ((encloses_iff_closing (ne_of_mem hkind)).2 ⟨hp, hlt, hbalanced, hnearest⟩)⟩

/-- Each of two partners is the other's. -/
theorem Partners.symm (h : Partners chars p q) : Partners chars q p := by
  rw [← partner?_eq_some_iff, partner?_eq_some_iff_encloses] at h ⊢
  obtain ⟨kind, hkind, h⟩ := h
  exact ⟨kind, hkind, h.symm⟩

/-! ## The scan with its failures -/

/-- A scan along offsets of the text, with a bracket open or at one that opens, never fails. -/
theorem scanOffsets_eq (enter leave : Char) {depth : Nat} {cs : List Char} (offset : Nat → Nat)
    (hread : ∀ n < cs.length, chars[offset n]? = cs[n]?)
    (hd : 0 < depth ∨ cs.head? = some enter) :
    scanOffsets chars enter leave depth ((List.range cs.length).map offset) =
      .ok ((closingDistance enter leave depth cs).map offset) := by
  induction cs generalizing depth offset with
  | nil => rfl
  | cons c cs ih =>
    have hc : chars[offset 0]? = some c := hread 0 (Nat.succ_pos _)
    replace ih : ∀ {depth : Nat}, 0 < depth →
        scanOffsets chars enter leave depth ((List.range cs.length).map (offset ∘ Nat.succ)) =
          .ok (((closingDistance enter leave depth cs).map (· + 1)).map offset) := fun hd => by
      rw [Option.map_map]
      exact ih (offset ∘ Nat.succ) (fun n hn => hread (n + 1) (Nat.succ_lt_succ hn)) (.inl hd)
    rw [List.length_cons, List.range_succ_eq_map, List.map_cons, List.map_map]
    simp only [scanOffsets, closingDistance, hc]
    by_cases hopen : c = enter
    · rw [if_pos hopen, if_pos hopen, ih (Nat.succ_pos depth)]
    · have hd : 0 < depth := hd.resolve_right fun h => hopen (Option.some.inj h)
      rw [if_neg hopen, if_neg hopen]
      by_cases hclose : c = leave
      · rw [if_pos hclose, if_pos hclose]
        match depth, hd with
        | 1, _ => rfl
        | rest + 2, _ => exact ih (Nat.succ_pos rest)
      · rw [if_neg hclose, if_neg hclose, ih hd]

theorem scanPartner_eq (chars : List Char) (p : Nat) :
    scanPartner chars p = .ok (partner? chars p) := by
  rw [scanPartner, partner?]
  cases hp : chars[p]? with
  | none => rfl
  | some c =>
    simp only
    rcases bracket_cases c with ⟨kind, hkind, rfl⟩ | ⟨kind, hkind, rfl⟩ | ⟨hopen, hclose⟩
    · simp only [(find?_of_mem hkind).2.1]
      rw [List.range'_eq_map_range, ← List.length_drop]
      exact scanOffsets_eq kind.1 kind.2 (p + ·) (fun n _ => List.getElem?_drop.symm)
        (.inr (List.head?_drop.trans hp))
    · obtain ⟨-, -, hnone, hsome⟩ := find?_of_mem hkind
      have hlength := length_take_succ hp
      have hback : (List.range (p + 1)).reverse =
          (List.range (chars.take (p + 1)).reverse.length).map (p - ·) := by
        rw [List.length_reverse, hlength, List.range_eq_range', List.reverse_range',
          List.range_eq_range', Nat.zero_add, Nat.add_sub_cancel]
      simp only [hnone, hsome, hback]
      refine scanOffsets_eq kind.2 kind.1 (p - ·) (fun n hn => ?_) (.inr (head?_take_reverse hp))
      rw [List.length_reverse] at hn
      rw [List.getElem?_reverse hn, hlength, Nat.add_sub_cancel, List.getElem?_take_of_lt (by omega)]
    · simp only [hopen, hclose]

/-! ## The pair at the caret -/

theorem bracketPair?_of_partners (h : Partners chars p q) :
    bracketPair? chars p = some (min p q, max p q) := by
  rw [bracketPair?, partner?_eq_some_iff.2 h, Option.map_some]

theorem bracketPair?_eq_none (h : ∀ q, ¬Partners chars p q) : bracketPair? chars p = none := by
  rw [bracketPair?, Option.map_eq_none_iff]
  exact Option.eq_none_iff_forall_ne_some.2 fun q hq => h q (partner?_eq_some_iff.1 hq)

variable {s : Snapshot}

/-- The marks of a pair, in the order of the text. -/
theorem contribute_of_pairAt (label : Label) (worker : String)
    (h : PairAt s.text.toList s.caret p q) :
    ((Contributor.bracketMatch label).contribute worker s).spans =
      Spans.ofMarks [.labeled (min p q) (min p q + 1) label,
        .labeled (max p q) (max p q + 1) label] s.length := by
  obtain ⟨hpartners, rfl | ⟨hcaret, hnone⟩⟩ := h
  · simp only [Contributor.bracketMatch, Contributor.ofSpans, bracketPair?_of_partners hpartners,
      Option.some_or]
  · rw [← hcaret] at hnone
    simp only [Contributor.bracketMatch, Contributor.ofSpans, ← hcaret, bracketPair?_eq_none hnone,
      Option.none_or, if_neg (Nat.succ_ne_zero p), Nat.add_sub_cancel,
      bracketPair?_of_partners hpartners]

theorem contribute_of_not_pairAt (label : Label) (worker : String)
    (h : ∀ p q, ¬PairAt s.text.toList s.caret p q) :
    ((Contributor.bracketMatch label).contribute worker s).spans = .ok (.plain s.length) := by
  have hat : ∀ r, ¬Partners s.text.toList s.caret r := fun r hr => h _ r ⟨hr, .inl rfl⟩
  have hbefore : (if s.caret = 0 then none else bracketPair? s.text.toList (s.caret - 1)) = none := by
    split
    · rfl
    · next hcaret =>
      exact bracketPair?_eq_none fun r hr => h _ r ⟨hr, .inr ⟨by omega, hat⟩⟩
  simp only [Contributor.bracketMatch, Contributor.ofSpans, bracketPair?_eq_none hat, hbefore,
    Option.none_or]

/-- With all that may fail in it, the scan contributes the same. -/
theorem scanBrackets_eq (label : Label) (worker : String) (s : Snapshot) :
    scanBrackets label s = .ok ((Contributor.bracketMatch label).contribute worker s).spans := by
  simp only [scanBrackets, scanPair, scanPartner_eq, Contributor.bracketMatch, Contributor.ofSpans,
    bracketPair?, Spans.layMarks_eq_ofMarks]
  cases partner? s.text.toList s.caret with
  | some q => rfl
  | none =>
    by_cases hcaret : s.caret = 0
    · simp only [if_pos hcaret]
      rfl
    · simp only [if_neg hcaret]
      cases partner? s.text.toList (s.caret - 1) <;> rfl

/-- The marks of a pair label its two brackets and nothing else. -/
theorem labelsAt_of_pair {label : Label} {total : Nat} {spans : Spans} (hpq : p < q)
    (h : Spans.ofMarks [.labeled p (p + 1) label, .labeled q (q + 1) label] total = .ok spans)
    {o : Nat} (ho : o < total) :
    spans.labelsAt o = some (if o = p ∨ o = q then .single label else .empty) := by
  have hover : ∀ n, decide (n ≤ o ∧ o < n + 1) = decide (o = n) := fun n =>
    decide_eq_decide.2 (by omega)
  rw [Spans.labelsAt_of_ofMarks h ho,
    markedAt_of_sorted ho (by simpa [Mark.labeled] using Nat.le_of_lt hpq)]
  simp only [List.find?_cons, List.find?_nil, Mark.labeled, hover]
  by_cases hp : o = p
  · simp [hp]
  · by_cases hq : o = q
    · simp [hq, Nat.ne_of_gt hpq]
    · simp [hp, hq]

theorem Partners.ne (h : Partners chars p q) : p ≠ q := by
  cases h <;> omega

/-- The scan from any position of any text runs through: it reads characters of the text only, and
counts off no bracket where none is open. What it finds is a partner, each of two partners is the
other's, and on either of the two a caret has the same spans. For every caret the spans are as long as
the text, and exactly the two brackets of the pair that belongs to the caret are labelled, if there is
one. -/
theorem bracketMatch_pairs (label : Label) (worker : String) {s : Snapshot}
    (hmax : s.length ≤ maxLength) :
    (∀ chars p, ∃ partner, scanPartner chars p = .ok partner ∧
      ∀ q, partner = some q ↔ Partners chars p q) ∧
    (∀ chars p q, Partners chars p q → Partners chars q p) ∧
    (∀ p q, Partners s.text.toList p q →
      ((Contributor.bracketMatch label).contribute worker { s with caret := p }).spans =
        ((Contributor.bracketMatch label).contribute worker { s with caret := q }).spans) ∧
    ∃ spans, scanBrackets label s = .ok (.ok spans) ∧
      ((Contributor.bracketMatch label).contribute worker s).spans = .ok spans ∧
      spans.length = s.length ∧
      (∀ p q, PairAt s.text.toList s.caret p q → ∀ o < s.length,
        spans.labelsAt o = some (if o = p ∨ o = q then .single label else .empty)) ∧
      ((∀ p q, ¬PairAt s.text.toList s.caret p q) → spans = .plain s.length) := by
  refine ⟨fun chars p => ⟨partner? chars p, scanPartner_eq chars p, fun q => partner?_eq_some_iff⟩,
    fun chars p q => Partners.symm, fun p q h => ?_, ?_⟩
  · rw [contribute_of_pairAt (s := { s with caret := p }) label worker ⟨h, .inl rfl⟩,
      contribute_of_pairAt (s := { s with caret := q }) label worker ⟨h.symm, .inl rfl⟩,
      Nat.min_comm, Nat.max_comm]
    rfl
  · rw [scanBrackets_eq label worker]
    by_cases hexists : ∃ p q, PairAt s.text.toList s.caret p q
    · obtain ⟨p, q, hpair⟩ := hexists
      obtain ⟨spans, hspans⟩ := Spans.exists_ofMarks [.labeled (min p q) (min p q + 1) label,
        .labeled (max p q) (max p q + 1) label] hmax
      have hcontributed := (contribute_of_pairAt label worker hpair).trans hspans
      refine ⟨spans, congrArg _ hcontributed, hcontributed, Spans.length_of_ofMarks hspans,
        fun p q hpair o ho => ?_, fun hnone => absurd hpair (hnone p q)⟩
      have hne := hpair.1.ne
      have hends : (o = min p q ∨ o = max p q) ↔ (o = p ∨ o = q) := by omega
      rw [labelsAt_of_pair (by omega)
        ((contribute_of_pairAt label worker hpair).symm.trans hcontributed) ho]
      simp only [hends]
    · have hnone : ∀ p q, ¬PairAt s.text.toList s.caret p q := fun p q hpair =>
        hexists ⟨p, q, hpair⟩
      have hcontributed := contribute_of_not_pairAt label worker hnone
      exact ⟨_, congrArg _ hcontributed, hcontributed, Spans.length_plain _,
        fun p q hpair => absurd hpair (hnone p q), fun _ => rfl⟩

/-- Two kinds that are interleaved, and the caret at a bracket that nothing closes: labelled is the
pair of the bracket before it. -/
theorem bracketMatch_pairs_interleaved :
    let s : Snapshot := ⟨"([)(]", 3, none, 0⟩
    s.length ≤ maxLength ∧ Partners s.text.toList 0 2 ∧ Partners s.text.toList 1 4 ∧
      (∀ q, ¬Partners s.text.toList 3 q) ∧
      ∃ spans, scanBrackets "pair" s = .ok (.ok spans) ∧ spans.length = 5 ∧
        (List.range 5).map spans.labelsAt = [some (.single "pair"), some .empty,
          some (.single "pair"), some .empty, some .empty] := by
  intro s
  have hchars : "([)(]".toList = ['(', '[', ')', '(', ']'] := by rfl
  obtain ⟨hscan, hsymm, -, spans, hspans, -, hlength, hpair, -⟩ :=
    bracketMatch_pairs "pair" "" (by decide : s.length ≤ maxLength)
  simp only [s, hchars] at hpair ⊢
  have hpartner : ∀ p partner, scanPartner ['(', '[', ')', '(', ']'] p = .ok partner →
      ∀ q, partner = some q ↔ Partners ['(', '[', ')', '(', ']'] p q := fun p partner h => by
    obtain ⟨_, hfound, hpartners⟩ := hscan ['(', '[', ')', '(', ']'] p
    cases hfound.symm.trans h
    exact hpartners
  have hopening := (hpartner 0 (some 2) rfl 2).1 rfl
  have hnone : ∀ q, ¬Partners ['(', '[', ')', '(', ']'] 3 q := fun q hq => by
    cases (hpartner 3 none rfl q).2 hq
  have hlabels := hpair 2 0 ⟨hsymm _ _ _ hopening, .inr ⟨rfl, hnone⟩⟩
  refine ⟨by decide, hopening, (hpartner 1 (some 4) rfl 4).1 rfl, hnone, spans, hspans,
    hlength.trans (by decide), ?_⟩
  show [_, _, _, _, _] = _
  rw [hlabels 0 (by decide), hlabels 1 (by decide), hlabels 2 (by decide), hlabels 3 (by decide),
    hlabels 4 (by decide)]
  rfl

end Highlight
