import Highlight.Proofs.Pattern.Readings
import Mathlib.Data.List.Pairwise

/-!
# Scanning from left to right

A scan tries to find something at every position of a text, from left to right. Where it finds something
it goes on behind it, and one character further where it does not (`Scans`). What is found is given by a
function of the position alone, so nothing is left of searches and threads: a search that goes to the
first position where something is found makes the same steps at once (`Scans.of_search`).

All that is known of a scan later is said here once:

* `Scans.sorted`: what it finds are pieces of the text that follow one another;
* `Scans.exists_find`: a piece was found at the position where it begins;
* `Scans.mem_of_find`: what can be found at a position is found, if the scan comes by, that is, if no piece
  lies across the position.
-/

namespace Highlight.Pattern

/-! ## Positions further on -/

namespace Cursor

theorem skip_add (p : Cursor) (m n : Nat) : p.skip (m + n) = (p.skip m).skip n := by
  induction m generalizing p with
  | zero => rw [Nat.zero_add, skip]
  | succ m ih => rw [Nat.add_right_comm, skip, skip, ih]

theorem skip_succ (p : Cursor) (n : Nat) : p.skip (n + 1) = (p.skip n).next := skip_add p n 1

theorem offset_skip {p : Cursor} {n : Nat} (hn : n ≤ p.rest.length) : (p.skip n).offset = p.offset + n := by
  induction n generalizing p with
  | zero => rfl
  | succ n ih =>
    obtain ⟨offset, before, rest⟩ := p
    cases rest with
    | nil => cases hn
    | cons c rest =>
      rw [skip, ih (p := Cursor.next ⟨offset, before, c :: rest⟩) (Nat.le_of_succ_le_succ hn)]
      show offset + 1 + n = offset + (n + 1)
      omega

theorem skip_inj {p : Cursor} {m n : Nat} (hm : m ≤ p.rest.length) (hn : n ≤ p.rest.length)
    (h : p.skip m = p.skip n) : m = n := by
  have hoffset := congrArg offset h
  rw [offset_skip hm, offset_skip hn] at hoffset
  exact Nat.add_left_cancel hoffset

theorem before_skip {p : Cursor} {cs back : List Char} (hp : p.rest = cs ++ back) :
    (p.skip cs.length).before = cs.getLast?.or p.before := by
  induction cs generalizing p with
  | nil => rfl
  | cons c cs ih =>
    have hrest : p.next.rest = cs ++ back := by simp [next, hp]
    have hbefore : p.next.before = some c := by simp [next, hp]
    rw [List.length_cons, skip, ih hrest, hbefore, List.getLast?_cons]
    cases cs.getLast? <;> rfl

theorem rest_skip_append {p : Cursor} {cs back : List Char} (hp : p.rest = cs ++ back) :
    (p.skip cs.length).rest = back := by
  rw [rest_skip, hp, List.drop_left]

theorem length_rest_skip (p : Cursor) (n : Nat) : (p.skip n).rest.length = p.rest.length - n := by
  rw [rest_skip, List.length_drop]

end Cursor

/-! ## What is found -/

/-- A piece of a text that was found, and what it was found as. -/
structure Hit (α : Type) where
  what : α
  start : Nat
  stop : Nat
deriving DecidableEq, Repr

variable {α : Type}

/-- What a scan finds from a position on. At a position `find` says what is there, and where it ends. -/
inductive Scans (find : Cursor → Option (α × Cursor)) : Cursor → List (Hit α) → Prop
  /-- The text ends. -/
  | last {p : Cursor} (hp : p.rest = []) (hnone : find p = none) : Scans find p []
  /-- Nothing is found here, and the scan goes one character further. -/
  | skip {p : Cursor} {hits : List (Hit α)} (hp : p.rest ≠ []) (hnone : find p = none)
      (hmore : Scans find p.next hits) : Scans find p hits
  /-- Something is found, and the scan goes on behind it. -/
  | hit {p q : Cursor} {x : α} {hits : List (Hit α)} (hsome : find p = some (x, q))
      (hmore : Scans find q hits) : Scans find p (⟨x, p.offset, q.offset⟩ :: hits)

/-- What is found is some text from the position on. -/
def Forward (find : Cursor → Option (α × Cursor)) : Prop :=
  ∀ p x q, find p = some (x, q) → ∃ n, 0 < n ∧ n ≤ p.rest.length ∧ q = p.skip n

/-! ## Searches -/

section Search

variable {find : Cursor → Option (α × Cursor)} {search : Cursor → Option (Cursor × α × Cursor)}
  (hsearch : ∀ p, search p = ((find p).map (p, ·)).or (if p.rest = [] then none else search p.next))

include hsearch

/-- A search takes the steps of a scan up to the first position where something is found. -/
theorem Scans.of_search {p : Cursor} {hits : List (Hit α)}
    (h : match search p with
      | none => hits = []
      | some (q, x, r) => ∃ more, Scans find r more ∧ hits = ⟨x, q.offset, r.offset⟩ :: more) :
    Scans find p hits := by
  induction p using Cursor.induction with
  | last p hp =>
    rw [hsearch, if_pos hp] at h
    cases hfind : find p with
    | none =>
      simp only [hfind, Option.map_none, Option.or_none] at h
      exact h ▸ .last hp hfind
    | some found =>
      simp only [hfind, Option.map_some, Option.some_or] at h
      obtain ⟨more, hmore, rfl⟩ := h
      exact .hit hfind hmore
  | step p c rest hp ih =>
    have hne : p.rest ≠ [] := hp ▸ List.cons_ne_nil c rest
    rw [hsearch, if_neg hne] at h
    cases hfind : find p with
    | none =>
      simp only [hfind, Option.map_none, Option.none_or] at h
      exact .skip hne hfind (ih h)
    | some found =>
      simp only [hfind, Option.map_some, Option.some_or] at h
      obtain ⟨more, hmore, rfl⟩ := h
      exact .hit hfind hmore

/-- A search finds what is found at some position further on. -/
theorem exists_find_of_search {p q r : Cursor} {x : α} (h : search p = some (q, x, r)) :
    ∃ n, n ≤ p.rest.length ∧ q = p.skip n ∧ find q = some (x, r) := by
  induction p using Cursor.induction with
  | last p hp =>
    rw [hsearch, if_pos hp, Option.or_none, Option.map_eq_some_iff] at h
    obtain ⟨found, hfind, heq⟩ := h
    cases heq
    exact ⟨0, Nat.zero_le _, rfl, hfind⟩
  | step p c rest hp ih =>
    rw [hsearch, if_neg (hp ▸ List.cons_ne_nil c rest), Option.or_eq_some_iff] at h
    rcases h with h | ⟨-, h⟩
    · obtain ⟨found, hfind, heq⟩ := Option.map_eq_some_iff.1 h
      cases heq
      exact ⟨0, Nat.zero_le _, rfl, hfind⟩
    · obtain ⟨n, hn, hq, hfind⟩ := ih h
      rw [Cursor.length_rest_next, hp, List.length_cons] at hn
      exact ⟨n + 1, by rw [hp, List.length_cons]; omega, hq, hfind⟩

/-- Behind what a search finds less text is left, and it is some text. -/
theorem Forward.lt_of_search (hfind : Forward find) {p q r : Cursor} {x : α} (h : search p = some (q, x, r)) :
    q.offset < r.offset ∧ r.rest.length < p.rest.length := by
  obtain ⟨m, hm, rfl, hq⟩ := exists_find_of_search hsearch h
  obtain ⟨n, hpos, hn, rfl⟩ := hfind _ _ _ hq
  rw [Cursor.offset_skip hn, Cursor.length_rest_skip, Cursor.length_rest_skip]
  rw [Cursor.length_rest_skip] at hn
  omega

end Search

/-! ## What is known of a scan -/

namespace Scans

variable {find : Cursor → Option (α × Cursor)} {p q : Cursor} {hits hits' : List (Hit α)}

/-- There is one scan only. -/
theorem unique (h : Scans find p hits) (h' : Scans find p hits') : hits = hits' := by
  induction h generalizing hits' with
  | last hp hnone =>
    cases h' with
    | last => rfl
    | skip hne => exact absurd hp hne
    | hit hsome => cases hnone.symm.trans hsome
  | skip hp hnone _ ih =>
    cases h' with
    | last hp' => exact absurd hp' hp
    | skip _ _ hmore => exact ih hmore
    | hit hsome => cases hnone.symm.trans hsome
  | hit hsome _ ih =>
    cases h' with
    | last _ hnone => cases hsome.symm.trans hnone
    | skip _ hnone => cases hsome.symm.trans hnone
    | hit hsome' hmore =>
      cases hsome.symm.trans hsome'
      rw [ih hmore]

/-- Going some characters further where nothing is found on the way. -/
theorem of_skip {n : Nat} (hn : n ≤ p.rest.length) (hnone : ∀ m < n, find (p.skip m) = none)
    (h : Scans find (p.skip n) hits) : Scans find p hits := by
  induction n generalizing p with
  | zero => exact h
  | succ n ih =>
    have hp : p.rest ≠ [] := by
      rintro hp
      rw [hp] at hn
      cases hn
    refine .skip hp (hnone 0 (Nat.succ_pos n)) (ih ?_ (fun m hm => hnone (m + 1) (Nat.succ_lt_succ hm)) h)
    rw [Cursor.length_rest_next]
    omega

section Forward

variable (hfind : Forward find)

include hfind

/-- What is found begins at the position or later. -/
theorem le_start (h : Scans find p hits) : ∀ x ∈ hits, p.offset ≤ x.start := by
  induction h with
  | last => exact List.forall_mem_nil _
  | @skip p hits _ _ _ ih => exact fun x hx => Nat.le_trans (Program.offset_next p).1 (ih x hx)
  | @hit p q x hits hsome _ ih =>
    obtain ⟨n, -, hn, rfl⟩ := hfind _ _ _ hsome
    rw [Cursor.offset_skip hn] at ih
    exact List.forall_mem_cons.2 ⟨Nat.le_refl _, fun y hy => Nat.le_of_add_right_le (ih y hy)⟩

/-- What is found are pieces of some text each, one behind the other. -/
theorem sorted (h : Scans find p hits) :
    (∀ x ∈ hits, x.start < x.stop) ∧ hits.Pairwise fun x y => x.stop ≤ y.start := by
  induction h with
  | last => exact ⟨List.forall_mem_nil _, .nil⟩
  | skip _ _ _ ih => exact ih
  | @hit p q x hits hsome hmore ih =>
    have hbehind := hmore.le_start hfind
    obtain ⟨n, hpos, hn, rfl⟩ := hfind _ _ _ hsome
    refine ⟨List.forall_mem_cons.2 ⟨?_, ih.1⟩, List.pairwise_cons.2 ⟨hbehind, ih.2⟩⟩
    simp only [Cursor.offset_skip hn]
    omega

/-- Two pieces are the same or have no character in common. -/
theorem eq_or_apart (h : Scans find p hits) {x y : Hit α} (hx : x ∈ hits) (hy : y ∈ hits) :
    x = y ∨ x.stop ≤ y.start ∨ y.stop ≤ x.start := by
  let apart (x y : Hit α) : Prop := x = y ∨ x.stop ≤ y.start ∨ y.stop ≤ x.start
  have hsymm : Std.Symm apart := ⟨fun _ _ h => h.imp Eq.symm Or.symm⟩
  have hpairs : hits.Pairwise apart := (h.sorted hfind).2.imp fun hle => .inr (.inl hle)
  exact hpairs.forall_of_forall (fun _ _ => .inl rfl) hx hy

/-- A piece was found at the position where it begins. -/
theorem exists_find (h : Scans find p hits) {x : Hit α} (hx : x ∈ hits) :
    ∃ m n, m + n ≤ p.rest.length ∧ find (p.skip m) = some (x.what, p.skip (m + n)) ∧
      x.start = p.offset + m ∧ x.stop = p.offset + (m + n) := by
  induction h with
  | last => cases hx
  | @skip p hits hp _ _ ih =>
    obtain ⟨m, n, hmn, hsome, hstart, hstop⟩ := ih hx
    have hlength : p.next.rest.length + 1 = p.rest.length := by
      have := List.length_pos_iff.2 hp
      rw [Cursor.length_rest_next]
      omega
    have hoffset : p.next.offset = p.offset + 1 := by
      have := (Program.offset_next p).2
      omega
    have hfurther (k : Nat) : p.next.skip k = p.skip (1 + k) := (Cursor.skip_add p 1 k).symm
    rw [hfurther, hfurther, ← Nat.add_assoc] at hsome
    exact ⟨1 + m, n, by omega, hsome, by omega, by omega⟩
  | @hit p q x hits hsome hmore ih =>
    obtain ⟨k, hpos, hk, rfl⟩ := hfind _ _ _ hsome
    rcases List.mem_cons.1 hx with rfl | hx
    · refine ⟨0, k, by omega, ?_, rfl, ?_⟩
      · rw [Nat.zero_add]
        exact hsome
      · rw [Nat.zero_add]
        exact Cursor.offset_skip hk
    · obtain ⟨m, n, hmn, hsome, hstart, hstop⟩ := ih hx
      rw [Cursor.length_rest_skip] at hmn
      rw [Cursor.offset_skip hk] at hstart hstop
      rw [← Cursor.skip_add, ← Cursor.skip_add, ← Nat.add_assoc] at hsome
      exact ⟨k + m, n, by omega, hsome, by omega, by omega⟩

/-- What can be found at a position is found, if no piece lies across the position. -/
theorem mem_of_find (h : Scans find p hits) {m : Nat} (hm : m ≤ p.rest.length) {x : α}
    (hq : find (p.skip m) = some (x, q))
    (hacross : ∀ y ∈ hits, y.start < p.offset + m → y.stop ≤ p.offset + m) :
    ⟨x, p.offset + m, q.offset⟩ ∈ hits := by
  induction h generalizing m with
  | @last p hp hnone =>
    obtain rfl : m = 0 := by simpa [hp] using hm
    cases hnone.symm.trans hq
  | @skip p hits hp hnone _ ih =>
    cases m with
    | zero => cases hnone.symm.trans hq
    | succ m =>
      have hlength : p.next.rest.length + 1 = p.rest.length := by
        have := List.length_pos_iff.2 hp
        rw [Cursor.length_rest_next]
        omega
      have hoffset : p.next.offset + m = p.offset + (m + 1) := by
        have := (Program.offset_next p).2
        omega
      have := ih (m := m) (by omega) hq (by rwa [hoffset])
      rwa [hoffset] at this
  | @hit p r y hits hsome _ ih =>
    cases m with
    | zero =>
      cases hsome.symm.trans hq
      exact List.mem_cons_self
    | succ m =>
      obtain ⟨k, hpos, hk, rfl⟩ := hfind _ _ _ hsome
      obtain ⟨hfirst, hrest⟩ := List.forall_mem_cons.1 hacross
      simp only [Cursor.offset_skip hk] at hfirst ih
      have hkm : k ≤ m + 1 := by
        have := hfirst (by omega)
        omega
      have hoffset : p.offset + k + (m + 1 - k) = p.offset + (m + 1) := by omega
      have hskip : (p.skip k).skip (m + 1 - k) = p.skip (m + 1) := by
        rw [← Cursor.skip_add, Nat.add_sub_cancel' hkm]
      have := ih (m := m + 1 - k) (by rw [Cursor.length_rest_skip]; omega) (by rwa [hskip]) (by rwa [hoffset])
      rw [hoffset] at this
      exact List.mem_cons_of_mem _ this

/-- What was found in a text, by its offsets. -/
theorem exists_find_start {text : List Char} (h : Scans find (.start text) hits) {x : Hit α} (hx : x ∈ hits) :
    ∃ n, x.start + n ≤ text.length ∧ x.stop = x.start + n ∧
      find ((Cursor.start text).skip x.start) = some (x.what, (Cursor.start text).skip (x.start + n)) := by
  obtain ⟨m, n, hmn, hsome, hstart, hstop⟩ := h.exists_find hfind hx
  obtain rfl : x.start = m := hstart.trans (Nat.zero_add m)
  exact ⟨n, hmn, hstop.trans (Nat.zero_add _), hsome⟩

theorem mem_of_find_start {text : List Char} (h : Scans find (.start text) hits) {m n : Nat}
    (hmn : m + n ≤ text.length) {x : α}
    (hq : find ((Cursor.start text).skip m) = some (x, (Cursor.start text).skip (m + n)))
    (hacross : ∀ y ∈ hits, y.start < m → y.stop ≤ m) : ⟨x, m, m + n⟩ ∈ hits := by
  have hzero (k : Nat) : (Cursor.start text).offset + k = k := Nat.zero_add k
  have hmem := h.mem_of_find hfind (Nat.le_of_add_right_le hmn) hq (by rwa [hzero])
  rwa [hzero, Cursor.offset_skip (p := .start text) hmn, hzero] at hmem

end Forward

end Scans

end Highlight.Pattern
