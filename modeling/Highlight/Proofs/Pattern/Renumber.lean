import Highlight.Pattern.Footprint
import Highlight.Pattern.Program
import Mathlib.Data.List.Basic

/-!
# Numbers of groups

The groups of a pattern are numbered in the order in which they begin, so the same text makes an
expression with other numbers where other groups stand before it. Adding to the numbers of groups
(`Expr.renumber`) commutes with every way of putting expressions together and with making a program,
and it changes neither what is read nor how large an expression is.
-/

namespace Highlight.Pattern

/-- The expression with `k` added to the numbers of its groups. -/
def Expr.renumber (k : Nat) : Expr → Expr
  | empty => empty
  | text cs => text cs
  | one set => one set
  | check condition => check condition
  | group index body => group (index + k) (body.renumber k)
  | seq first rest => seq (first.renumber k) (rest.renumber k)
  | alt first rest => alt (first.renumber k) (rest.renumber k)
  | loop least most greedy body => loop least most greedy (body.renumber k)

/-- The instruction with `k` added to the number of a group. -/
def Instr.renumber (k : Nat) : Instr → Instr
  | openGroup index => openGroup (index + k)
  | closeGroup index => closeGroup (index + k)
  | i => i

namespace Expr

variable (k : Nat)

theorem renumber_injective : Function.Injective (renumber k) := by
  intro a
  induction a with
  | empty | text | one | check =>
    intro b h
    cases b <;> first | exact h | cases h
  | group index body ih =>
    intro b h
    cases b with
    | group index' body' =>
      obtain ⟨hindex, hbody⟩ := Expr.group.inj h
      rw [Nat.add_right_cancel hindex, ih hbody]
    | _ => cases h
  | seq first rest ihfirst ihrest =>
    intro b h
    cases b with
    | seq first' rest' =>
      obtain ⟨hfirst, hrest⟩ := Expr.seq.inj h
      rw [ihfirst hfirst, ihrest hrest]
    | _ => cases h
  | alt first rest ihfirst ihrest =>
    intro b h
    cases b with
    | alt first' rest' =>
      obtain ⟨hfirst, hrest⟩ := Expr.alt.inj h
      rw [ihfirst hfirst, ihrest hrest]
    | _ => cases h
  | loop least most greedy body ih =>
    intro b h
    cases b with
    | loop least' most' greedy' body' =>
      obtain ⟨rfl, rfl, rfl, hbody⟩ := Expr.loop.inj h
      rw [ih hbody]
    | _ => cases h

/-! ## Parts -/

theorem items_renumber (e : Expr) : (e.renumber k).items = e.items.map (renumber k) := by
  induction e with
  | seq first rest _ ih => simp only [renumber, items, List.map_cons, ih]
  | _ => rfl

theorem branches_renumber (e : Expr) : (e.renumber k).branches = e.branches.map (renumber k) := by
  induction e with
  | alt first rest _ ih => simp only [renumber, branches, List.map_cons, ih]
  | _ => rfl

theorem isSeq_renumber (e : Expr) : (e.renumber k).isSeq = e.isSeq := by
  cases e <;> rfl

theorem renumber_ofItems (es : List Expr) :
    (ofItems es).renumber k = ofItems (es.map (renumber k)) := by
  induction es with
  | nil => rfl
  | cons e es ih =>
    cases es with
    | nil => rfl
    | cons e' es => exact congrArg (seq (e.renumber k)) ih

theorem renumber_ofBranches (es : List Expr) :
    (ofBranches es).renumber k = ofBranches (es.map (renumber k)) := by
  induction es with
  | nil => rfl
  | cons e es ih =>
    cases es with
    | nil => rfl
    | cons e' es => exact congrArg (alt (e.renumber k)) ih

/-! ## Lengths -/

theorem minLength?_renumber (e : Expr) : (e.renumber k).minLength? = e.minLength? := by
  induction e with
  | group _ _ ih => exact ih
  | seq first rest ihfirst ihrest => simp only [renumber, minLength?, ihfirst, ihrest]
  | alt first rest ihfirst ihrest => simp only [renumber, minLength?, ihfirst, ihrest]
  | loop least most greedy body ih => simp only [renumber, minLength?, ih]
  | _ => rfl

theorem alwaysReads_renumber (e : Expr) : (e.renumber k).alwaysReads = e.alwaysReads := by
  rw [alwaysReads, minLength?_renumber, alwaysReads]

theorem neverReads_renumber (e : Expr) : (e.renumber k).neverReads = e.neverReads := by
  induction e with
  | group _ _ ih => exact ih
  | seq first rest ihfirst ihrest => simp only [renumber, neverReads, ihfirst, ihrest]
  | alt first rest ihfirst ihrest => simp only [renumber, neverReads, ihfirst, ihrest]
  | loop least most greedy body ih => simp only [renumber, neverReads, ih]
  | _ => rfl

/-! ## Ways of putting together -/

theorem renumber_ofSet (s : CharSet) : (ofSet s).renumber k = ofSet s := by
  unfold ofSet
  split <;> rfl

theorem joinTexts_cons (e : Expr) (es : List Expr) :
    joinTexts (e :: es) =
      match e, joinTexts es with
      | text a, text b :: rest => text (a ++ b) :: rest
      | e, rest => e :: rest := rfl

theorem joinTexts_map_renumber (es : List Expr) :
    joinTexts (es.map (renumber k)) = (joinTexts es).map (renumber k) := by
  induction es with
  | nil => rfl
  | cons e es ih =>
    rw [List.map_cons, joinTexts_cons, joinTexts_cons, ih]
    cases joinTexts es with
    | nil => cases e <;> rfl
    | cons e' rest => cases e <;> cases e' <;> rfl

theorem renumber_seqOf (es : List Expr) :
    (seqOf es).renumber k = seqOf (es.map (renumber k)) := by
  rw [seqOf, renumber_ofItems, ← joinTexts_map_renumber, seqOf, List.map_flatMap, List.flatMap_map]
  simp only [items_renumber]

theorem singleChar?_renumber (e : Expr) : (e.renumber k).singleChar? = e.singleChar? := by
  cases e <;> rfl

theorem set?_renumber (e : Expr) : (e.renumber k).set? = e.set? := by
  cases e <;> rfl

theorem renumber_choose (es : List Expr) :
    (choose es).renumber k = choose (es.map (renumber k)) := by
  have hchars : (es.map (renumber k)).mapM singleChar? = es.mapM singleChar? := by
    rw [List.mapM_map]
    exact congrArg (es.mapM ·) (funext (singleChar?_renumber k))
  have hsets : (es.map (renumber k)).mapM set? = es.mapM set? := by
    rw [List.mapM_map]
    exact congrArg (es.mapM ·) (funext (set?_renumber k))
  match es with
  | [e] => rfl
  | [] => rfl
  | e :: e' :: es =>
    rw [List.map_cons, List.map_cons] at hchars hsets
    simp only [choose, List.map_cons, hchars, hsets]
    cases (e :: e' :: es).mapM singleChar? with
    | some cs => exact renumber_ofSet k _
    | none =>
      cases (e :: e' :: es).mapM set? with
      | some sets => exact renumber_ofSet k _
      | none => exact renumber_ofBranches k _

theorem commonLength_renumber (es es' : List Expr) :
    commonLength (es.map (renumber k)) (es'.map (renumber k)) = commonLength es es' := by
  induction es generalizing es' with
  | nil => rfl
  | cons e es ih =>
    cases es' with
    | nil => rfl
    | cons e' es' =>
      simp only [List.map_cons, commonLength, (renumber_injective k).eq_iff, ih]

theorem sharedLength_renumber (es : List Expr) :
    sharedLength (es.map (renumber k)) = sharedLength es := by
  cases es with
  | nil => rfl
  | cons e es =>
    have hseq : isSeq ∘ renumber k = isSeq := funext (isSeq_renumber k)
    simp only [List.map_cons, sharedLength, List.isEmpty_map, List.all_cons, List.all_map, hseq,
      isSeq_renumber, List.foldl_map, items_renumber, commonLength_renumber, List.length_map]
    rfl

theorem renumber_altOf (es : List Expr) :
    (altOf es).renumber k = altOf (es.map (renumber k)) := by
  have hbranches (es : List Expr) :
      (es.map (renumber k)).flatMap branches = (es.flatMap branches).map (renumber k) := by
    rw [List.flatMap_map, List.map_flatMap]
    simp only [branches_renumber]
  have hshared (es : List Expr) :
      ((es.map (renumber k)).head?.map items).getD [] =
        ((es.head?.map items).getD []).map (renumber k) := by
    cases es with
    | nil => rfl
    | cons e es => exact items_renumber k e
  have hothers (es : List Expr) (n : Nat) :
      ((es.map (renumber k)).map fun e => seqOf (e.items.drop n)) =
        (es.map fun e => seqOf (e.items.drop n)).map (renumber k) := by
    simp only [List.map_map, Function.comp_def, renumber_seqOf, items_renumber, List.map_drop]
  simp only [altOf, hbranches, sharedLength_renumber]
  generalize es.flatMap branches = es
  split
  · exact renumber_choose k es
  · rw [renumber_seqOf, List.map_append, List.map_take, ← hshared, hothers, hbranches,
      List.map_cons, List.map_nil, renumber_choose]

theorem renumber_loopOf (least : Nat) (most : Option Nat) (greedy : Bool) (body : Expr) :
    (loopOf least most greedy body).renumber k = loopOf least most greedy (body.renumber k) := by
  unfold loopOf
  rw [neverReads_renumber]
  split
  split
  · rfl
  · split <;> rfl

/-! ## Size -/

theorem isAlt_renumber (e : Expr) : (e.renumber k).isAlt = e.isAlt := by
  cases e <;> rfl

theorem texts?_renumber (e : Expr) : (e.renumber k).texts? = e.texts? := by
  induction e with
  | alt first rest _ ih => cases first <;> simp only [renumber, texts?, ih]
  | _ => rfl

theorem size_renumber (e : Expr) (d : Direction) (chosen : Bool) :
    (e.renumber k).size d chosen = e.size d chosen := by
  induction e generalizing chosen with
  | group _ _ ih => simp only [renumber, size, ih]
  | seq first rest ihfirst ihrest => simp only [renumber, size, ihfirst, ihrest]
  | alt first rest ihfirst ihrest =>
    have htexts := texts?_renumber k (alt first rest)
    simp only [renumber] at htexts
    simp only [renumber, size, htexts, ihfirst, ihrest, isAlt_renumber]
  | loop least most greedy body ih => simp only [renumber, size, ih, alwaysReads_renumber]
  | _ => rfl

/-! ## Programs -/

theorem map_repeated (greedy : Bool) (body : List Instr) (reads : Bool) (least : Nat)
    (most : Option Nat) :
    (repeated greedy body reads least most).map (Instr.renumber k) =
      repeated greedy (body.map (Instr.renumber k)) reads least most := by
  have henter (elsewhere : Int) : (Instr.enter greedy elsewhere).renumber k = .enter greedy elsewhere := by
    cases greedy <;> rfl
  have hagain (elsewhere : Int) : (Instr.again greedy elsewhere).renumber k = .again greedy elsewhere := by
    cases greedy <;> rfl
  have hjump (offset : Int) : (Instr.jump offset).renumber k = .jump offset := rfl
  have hexactly (body : List Instr) (n : Nat) :
      (exactly body n).map (Instr.renumber k) = exactly (body.map (Instr.renumber k)) n := by
    rw [exactly, exactly, List.map_flatten, List.map_replicate]
  have hatMost (body : List Instr) (n : Nat) :
      (atMost greedy body n).map (Instr.renumber k) =
        atMost greedy (body.map (Instr.renumber k)) n := by
    simp only [atMost, List.map_flatMap, List.map_cons, henter, List.length_map]
  have hmore (body : List Instr) :
      (oneOrMore greedy body).map (Instr.renumber k) =
        oneOrMore greedy (body.map (Instr.renumber k)) := by
    simp only [oneOrMore, List.map_append, List.map_cons, List.map_nil, hagain, List.length_map]
  unfold repeated
  split
  · rw [List.map_append, hexactly, hatMost]
  · split
    · simp only [anyNumber, List.map_append, List.map_cons, List.map_nil, henter, hjump,
        List.length_map]
    · rw [hatMost, hmore]
  · rw [List.map_append, hexactly, hmore]

theorem code_renumber (e : Expr) : (e.renumber k).code = e.code.map (Instr.renumber k) := by
  induction e with
  | text cs => simp only [renumber, code, List.map_map]; rfl
  | group index body ih => simp only [renumber, code, ih, List.map_append, List.map_cons]; rfl
  | seq first rest ihfirst ihrest => simp only [renumber, code, ihfirst, ihrest, List.map_append]
  | alt first rest ihfirst ihrest =>
    simp only [renumber, code, ihfirst, ihrest, List.map_append, List.map_cons, List.length_map]
    rfl
  | loop least most greedy body ih =>
    simp only [renumber, code, ih, map_repeated, alwaysReads_renumber]
  | _ => rfl

end Expr

end Highlight.Pattern
