import Highlight.Pattern.Parser
import Highlight.Proofs.Pattern.Renumber
import Mathlib.Data.List.Chain

/-!
# Simplified expressions

Expressions are kept in a simple form: sequences do not nest, do not end with nothing, and have no two
texts side by side, and this holds of alternatives too (`Expr.Simplified`). Every way of putting
expressions together keeps it. A simplified expression is the sequence of its items, so a sequence of it
and nothing else is that expression again (`Expr.Simplified.seqOf_empty_singleton`), and with nothing
before it a sequence stays what it was (`Piece.expr_sequence_cons`).
-/

namespace Highlight.Pattern

namespace Expr

/-- Whether the expression can be an item of a sequence. -/
def isItem : Expr → Bool
  | empty | seq _ _ => false
  | _ => true

/-- Whether the expression is a text. -/
def isText : Expr → Bool
  | text _ => true
  | _ => false

/-- No two texts stand side by side. -/
def Apart (es : List Expr) : Prop := es.IsChain fun e e' => ¬ (e.isText ∧ e'.isText)

/-- Sequences are flat, end with an item and have no texts side by side, and so do alternatives. -/
def Simplified : Expr → Prop
  | seq first rest =>
    first.isItem ∧ Simplified first ∧ rest ≠ empty ∧ Simplified rest ∧ Apart (first :: rest.items)
  | alt first rest => Simplified first ∧ Simplified rest
  | _ => True

/-! ## Items -/

theorem items_of_isItem {e : Expr} (h : e.isItem) : e.items = [e] := by
  cases e <;> first | rfl | cases h

theorem Simplified.items_eq_nil_iff {e : Expr} : e.items = [] ↔ e = empty := by
  cases e <;> simp [items]

theorem Simplified.apart {e : Expr} (h : e.Simplified) : Apart e.items := by
  cases e with
  | seq => exact h.2.2.2.2
  | empty => exact .nil
  | _ => exact .singleton _

/-- A simplified expression is the sequence of its items. -/
theorem Simplified.ofItems_items {e : Expr} (h : e.Simplified) : ofItems e.items = e := by
  induction e with
  | seq first rest _ ih =>
    obtain ⟨-, -, hne, hrest, -⟩ := h
    obtain ⟨e, es, hes⟩ := List.exists_cons_of_ne_nil (mt items_eq_nil_iff.1 hne)
    have hofItems := ih hrest
    rw [hes] at hofItems
    rw [items, hes, ofItems, hofItems]
    exact List.cons_ne_nil e es
  | _ => rfl

theorem Simplified.items {e : Expr} (h : e.Simplified) : ∀ x ∈ e.items, x.isItem ∧ x.Simplified := by
  induction e with
  | empty => exact List.forall_mem_nil _
  | seq first rest _ ih =>
    obtain ⟨hitem, hfirst, -, hrest, -⟩ := h
    exact List.forall_mem_cons.2 ⟨⟨hitem, hfirst⟩, ih hrest⟩
  | _ => exact List.forall_mem_singleton.2 ⟨rfl, h⟩

theorem items_ofItems {es : List Expr} (h : ∀ x ∈ es, x.isItem) : (ofItems es).items = es := by
  induction es with
  | nil => rfl
  | cons e es ih =>
    obtain ⟨he, hes⟩ := List.forall_mem_cons.1 h
    cases es with
    | nil => exact items_of_isItem he
    | cons e' es => exact congrArg (e :: ·) (ih hes)

theorem simplified_ofItems {es : List Expr} (h : ∀ x ∈ es, x.isItem ∧ x.Simplified) (ha : Apart es) :
    (ofItems es).Simplified := by
  induction es with
  | nil => trivial
  | cons e es ih =>
    obtain ⟨⟨hitem, he⟩, hes⟩ := List.forall_mem_cons.1 h
    cases es with
    | nil => exact he
    | cons e' es =>
      have hsame := items_ofItems fun x hx => (hes x hx).1
      refine ⟨hitem, he, fun hempty => ?_, ih hes ha.tail, hsame.symm ▸ ha⟩
      rw [hempty] at hsame
      cases hsame

/-! ## Texts side by side -/

theorem isItem_of_isText {e : Expr} (h : e.isText) : e.isItem ∧ e.Simplified := by
  cases e <;> first | exact ⟨rfl, trivial⟩ | cases h

theorem exists_of_isText {e : Expr} (h : e.isText) : ∃ cs, e = text cs := by
  cases e <;> first | exact ⟨_, rfl⟩ | cases h

theorem joinTexts_of_apart {es : List Expr} (h : Apart es) : joinTexts es = es := by
  induction es with
  | nil => rfl
  | cons e es ih =>
    rw [joinTexts_cons, ih h.tail]
    cases es with
    | nil => cases e <;> rfl
    | cons e' es =>
      have hne := (List.isChain_cons_cons.1 h).1
      cases e <;> cases e' <;> first | rfl | exact absurd ⟨rfl, rfl⟩ hne

theorem apart_joinTexts (es : List Expr) : Apart (joinTexts es) := by
  induction es with
  | nil => exact .nil
  | cons e es ih =>
    rw [joinTexts_cons]
    cases hj : joinTexts es with
    | nil => cases e <;> exact .singleton _
    | cons e' rest =>
      rw [hj] at ih
      split
      · rename_i heq
        obtain ⟨rfl, rfl⟩ := List.cons.inj heq
        cases rest with
        | nil => exact .singleton _
        | cons e'' rest =>
          obtain ⟨hne, hrest⟩ := List.isChain_cons_cons.1 ih
          exact List.isChain_cons_cons.2 ⟨fun htexts => hne ⟨rfl, htexts.2⟩, hrest⟩
      · rename_i hno
        refine List.isChain_cons_cons.2 ⟨fun htexts => ?_, ih⟩
        obtain ⟨a, ha⟩ := exists_of_isText htexts.1
        obtain ⟨b, hb⟩ := exists_of_isText htexts.2
        exact hno a b rest ha (hb ▸ rfl)

theorem forall_mem_joinTexts {es : List Expr} (h : ∀ x ∈ es, x.isItem ∧ x.Simplified) :
    ∀ x ∈ joinTexts es, x.isItem ∧ x.Simplified := by
  induction es with
  | nil => exact List.forall_mem_nil _
  | cons e es ih =>
    obtain ⟨he, hes⟩ := List.forall_mem_cons.1 h
    have hjoined := ih hes
    rw [joinTexts_cons]
    split
    · rename_i heq
      rw [heq] at hjoined
      exact List.forall_mem_cons.2 ⟨isItem_of_isText rfl, (List.forall_mem_cons.1 hjoined).2⟩
    · exact List.forall_mem_cons.2 ⟨he, hjoined⟩

/-! ## Ways of putting together -/

theorem simplified_seqOf {es : List Expr} (h : ∀ e ∈ es, e.Simplified) : (seqOf es).Simplified := by
  refine simplified_ofItems (forall_mem_joinTexts fun x hx => ?_) (apart_joinTexts _)
  obtain ⟨e, he, hx⟩ := List.mem_flatMap.1 hx
  exact (h e he).items x hx

theorem simplified_ofSet (s : CharSet) : (ofSet s).Simplified := by
  unfold ofSet
  split <;> trivial

theorem Simplified.branches {e : Expr} (h : e.Simplified) : ∀ x ∈ e.branches, x.Simplified := by
  induction e with
  | alt first rest _ ih => exact List.forall_mem_cons.2 ⟨h.1, ih h.2⟩
  | _ => exact List.forall_mem_singleton.2 h

theorem simplified_ofBranches {es : List Expr} (h : ∀ e ∈ es, e.Simplified) :
    (ofBranches es).Simplified := by
  induction es with
  | nil => trivial
  | cons e es ih =>
    obtain ⟨he, hes⟩ := List.forall_mem_cons.1 h
    cases es with
    | nil => exact he
    | cons e' es => exact ⟨he, ih hes⟩

theorem simplified_choose {es : List Expr} (h : ∀ e ∈ es, e.Simplified) : (choose es).Simplified := by
  unfold choose
  split
  · exact List.forall_mem_singleton.1 h
  · split
    · exact simplified_ofSet _
    · split
      · exact simplified_ofSet _
      · exact simplified_ofBranches h

theorem simplified_altOf {es : List Expr} (h : ∀ e ∈ es, e.Simplified) : (altOf es).Simplified := by
  have hbranches {es : List Expr} (h : ∀ e ∈ es, e.Simplified) :
      ∀ e ∈ es.flatMap Expr.branches, e.Simplified := fun x hx =>
    have ⟨e, he, hx⟩ := List.mem_flatMap.1 hx
    (h e he).branches x hx
  simp only [altOf]
  replace h := hbranches h
  generalize es.flatMap Expr.branches = es at h
  split
  · exact simplified_choose h
  · refine simplified_seqOf (List.forall_mem_append.2 ⟨fun x hx => ?_, List.forall_mem_singleton.2
      (simplified_choose (hbranches fun x hx => ?_))⟩)
    · -- What is shared are items of the first alternative.
      cases es with
      | nil => cases List.mem_of_mem_take hx
      | cons e es => exact ((h e List.mem_cons_self).items x (List.mem_of_mem_take hx)).2
    · obtain ⟨e, he, rfl⟩ := List.mem_map.1 hx
      exact simplified_seqOf fun x hx => ((h e he).items x (List.mem_of_mem_drop hx)).2

theorem Simplified.loopOf {body : Expr} (h : body.Simplified) (least : Nat) (most : Option Nat)
    (greedy : Bool) : (loopOf least most greedy body).Simplified := by
  unfold Expr.loopOf
  split
  split
  · trivial
  · split
    · exact h
    · trivial

/-- A simplified expression with nothing before it. -/
theorem Simplified.seqOf_empty_singleton {e : Expr} (h : e.Simplified) : seqOf [empty, e] = e := by
  have hitems : [empty, e].flatMap Expr.items = e.items := List.append_nil _
  rw [seqOf, hitems, joinTexts_of_apart h.apart, h.ofItems_items]

end Expr

/-! ## Pieces -/

namespace Piece

theorem simplified_sequence {pieces : List Piece} (h : ∀ p ∈ pieces, p.expr.Simplified) :
    (sequence pieces).expr.Simplified := by
  unfold sequence
  split
  · exact h _ List.mem_cons_self
  · trivial
  · refine Expr.simplified_seqOf fun e he => ?_
    obtain ⟨p, hp, rfl⟩ := List.mem_map.1 he
    exact h p hp

theorem simplified_choice {pieces : List Piece} (h : ∀ p ∈ pieces, p.expr.Simplified) :
    (choice pieces).expr.Simplified := by
  unfold choice
  split
  · exact h _ List.mem_cons_self
  · refine Expr.simplified_altOf fun e he => ?_
    obtain ⟨p, hp, rfl⟩ := List.mem_map.1 he
    exact h p hp

/-- With nothing before it, a sequence is what it was. -/
theorem expr_sequence_cons {pieces : List Piece} (h : ∀ p ∈ pieces, p.expr.Simplified) :
    (sequence (flat .empty :: pieces)).expr = (sequence pieces).expr := by
  cases pieces with
  | nil => rfl
  | cons p pieces =>
    cases pieces with
    | nil => exact (List.forall_mem_singleton.1 h).seqOf_empty_singleton
    | cons p' pieces => rfl

/-- With nothing before it, a sequence nests by one level more at most. -/
theorem height_sequence_cons (pieces : List Piece) :
    (sequence (flat .empty :: pieces)).height ≤ (sequence pieces).height + 1 := by
  cases pieces with
  | nil => exact Nat.zero_le _
  | cons p pieces =>
    cases pieces with
    | nil =>
      show max (max 0 0) p.height + 1 ≤ p.height + 1
      omega
    | cons p' pieces => exact Nat.le_succ _

end Piece

end Highlight.Pattern
