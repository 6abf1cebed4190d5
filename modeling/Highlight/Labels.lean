/-!
# Sets of style labels

The labels that apply to one stretch of text. A set is kept as its members in ascending order by
code point, so equal sets are equal values and every listing of a set reads the same:

* `Labels.mem_insert`, `Labels.mem_union`, `Labels.mem_ofList`: the members of what is built;
* `Labels.ext`: two sets with the same members are equal;
* `Labels.union` is commutative, associative and idempotent.
-/

namespace Highlight

/-- The name of a style, such as `"keyword"`; a style sheet gives it a look. -/
abbrev Label := String

/-- A finite set of labels, listed in ascending order, each once. -/
structure Labels where
  toList : List Label
  sorted : toList.Pairwise (· < ·)
deriving DecidableEq

namespace Labels

instance : Membership Label Labels where
  mem s l := l ∈ s.toList

theorem mem_def {l : Label} {s : Labels} : l ∈ s ↔ l ∈ s.toList := Iff.rfl

instance (l : Label) (s : Labels) : Decidable (l ∈ s) :=
  inferInstanceAs (Decidable (l ∈ s.toList))

/-- No label at all: default styling. -/
def empty : Labels := ⟨[], .nil⟩

/-- Whether no label applies. -/
def isEmpty (s : Labels) : Bool := s.toList.isEmpty

/-- The set of one label. -/
def single (l : Label) : Labels := ⟨[l], List.pairwise_singleton ..⟩

/-- `l` put at its place in an ascending list, unless it is there already. -/
def place (l : Label) : List Label → List Label
  | [] => [l]
  | x :: xs => if l = x then x :: xs else if l < x then l :: x :: xs else x :: place l xs

theorem mem_place {y l : Label} {xs : List Label} : y ∈ place l xs ↔ y = l ∨ y ∈ xs := by
  induction xs with
  | nil => simp [place]
  | cons x xs ih =>
    unfold place
    split
    · subst l; simp
    · split
      · simp
      · simp only [List.mem_cons, ih]
        exact or_left_comm

theorem pairwise_place {l : Label} {xs : List Label} (h : xs.Pairwise (· < ·)) :
    (place l xs).Pairwise (· < ·) := by
  induction xs with
  | nil => simp [place]
  | cons x xs ih =>
    have hx := List.pairwise_cons.1 h
    unfold place
    split
    · exact h
    · rename_i hne
      split
      · rename_i hlt
        refine List.pairwise_cons.2 ⟨fun y hy => ?_, h⟩
        rcases List.mem_cons.1 hy with rfl | hy
        · exact hlt
        · exact String.lt_trans hlt (hx.1 y hy)
      · rename_i hnlt
        refine List.pairwise_cons.2 ⟨fun y hy => ?_, ih hx.2⟩
        rcases mem_place.1 hy with rfl | hy
        · exact String.not_le.1 fun hle => hne (String.le_antisymm hle (String.not_lt.1 hnlt))
        · exact hx.1 y hy

/-- The set with `l` added. -/
def insert (l : Label) (s : Labels) : Labels := ⟨place l s.toList, pairwise_place s.sorted⟩

/-- The labels of either set. -/
def union (a b : Labels) : Labels := a.toList.foldr insert b

/-- The set of the labels of a list, in any order and with repetitions. -/
def ofList (ls : List Label) : Labels := ls.foldr insert empty

@[simp] theorem not_mem_empty {y : Label} : ¬ y ∈ empty := List.not_mem_nil

@[simp] theorem mem_single {y l : Label} : y ∈ single l ↔ y = l := List.mem_singleton

@[simp] theorem mem_insert {y l : Label} {s : Labels} : y ∈ s.insert l ↔ y = l ∨ y ∈ s :=
  mem_place

theorem mem_foldr_insert {y : Label} {ls : List Label} {s : Labels} :
    y ∈ ls.foldr insert s ↔ y ∈ ls ∨ y ∈ s := by
  induction ls with
  | nil => simp
  | cons l ls ih => simp [ih, or_assoc]

@[simp] theorem mem_union {y : Label} {a b : Labels} : y ∈ a.union b ↔ y ∈ a ∨ y ∈ b :=
  mem_foldr_insert

@[simp] theorem mem_ofList {y : Label} {ls : List Label} : y ∈ ofList ls ↔ y ∈ ls := by
  simp [ofList, mem_foldr_insert]

theorem nodup_toList (s : Labels) : s.toList.Nodup :=
  s.sorted.imp fun {x y} (hxy : x < y) (he : x = y) => String.lt_irrefl y (he ▸ hxy)

/-- The ascending listing of a set is determined by its members. -/
theorem ext {a b : Labels} (h : ∀ y, y ∈ a ↔ y ∈ b) : a = b := by
  have hp : a.toList.Perm b.toList :=
    (List.perm_ext_iff_of_nodup (nodup_toList a) (nodup_toList b)).2 h
  have hl : a.toList = b.toList :=
    hp.eq_of_pairwise (fun x y _ _ hxy hyx => (String.lt_asymm hxy hyx).elim) a.sorted b.sorted
  cases a; cases b; cases hl; rfl

/-! ## Unions -/

theorem union_empty (s : Labels) : s.union empty = s := ext fun y => by simp

instance : Std.Commutative union := ⟨fun a b => ext fun y => by simp [or_comm]⟩

instance : Std.Associative union := ⟨fun a b c => ext fun y => by simp [or_assoc]⟩

instance : Std.IdempotentOp union := ⟨fun a => ext fun y => by simp⟩

end Labels

end Highlight
