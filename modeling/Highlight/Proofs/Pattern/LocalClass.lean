import Highlight.Proofs.Pattern.Local

/-!
# Readers of classes look no further than they read

A class that ends within a text is read in the same way when more stands behind the text, since its
brackets have been closed by then. Only a named set has to be looked for further on: where the text
holds no end of its name, one might be found behind it. But what stands behind begins with a closing
parenthesis, and no name has one (`named?_of_mem`).
-/

namespace Highlight.Pattern

/-- A text that begins with two other characters still does when more stands behind it. -/
theorem append_ne_cons_cons {text more : List Char} {c d : Char} (hd : d ≠ ')') (hmore : Closing more)
    (hne : text ≠ []) (h : ∀ rest, text ≠ c :: d :: rest) (rest : List Char) :
    text ++ more ≠ c :: d :: rest := by
  intro heq
  match text with
  | [] => exact hne rfl
  | [c'] =>
    have htail : more = d :: rest := (List.cons.inj heq).2
    exact hd (hmore d (by rw [htail]; rfl))
  | c' :: d' :: text =>
    obtain ⟨rfl, htail⟩ := List.cons.inj heq
    obtain ⟨rfl, -⟩ := List.cons.inj htail
    exact h text rfl

namespace Flags.Alike

variable {f g : Flags} (h : f.Alike g)

include h

theorem value (c : OpenClass) : c.value g = c.value f := by
  unfold OpenClass.value
  simp only [h.set]

theorem operate (op : SetOp) (c : OpenClass) : c.operate g op = c.operate f op := by
  rw [OpenClass.operate, OpenClass.operate, h.value]

theorem close (c : OpenClass) : c.close g = c.close f := by
  simp only [OpenClass.close, h.value, h.setOrRest, h.accept]

end Flags.Alike

/-! ## Beginnings -/

theorem local_readClassFront (negated : Bool) : Local fun f text => readClassFront f negated text := by
  intro f g hfg text x rest h
  have hp : (fun c : Char => c == '-') ')' = false := by decide
  have hle := List.length_dropWhile_le (· == '-') text
  simp only [readClassFront, takeChars_eq hfg.verbose, takeChars_eq hfg.verbose_right, hfg.skip,
    hfg.skip_right] at h ⊢
  generalize hhyphens : (text.takeWhile (· == '-')).reverse ++ [] = hyphens at h
  generalize hbehind : text.dropWhile (· == '-') = behind at h hle
  have hlonger (more : List Char) (hmore : Closing more) :
      ((text ++ more).takeWhile (· == '-')).reverse ++ [] = hyphens ∧
        (text ++ more).dropWhile (· == '-') = behind ++ more := by
    rw [takeWhile_append_closing hp hmore, dropWhile_append_closing hp hmore, hhyphens, hbehind]
    exact ⟨rfl, rfl⟩
  split at h
  · cases h
  · split at h
    · cases h
    · rename_i inner hne
      cases h
      refine ⟨Nat.le_of_succ_le hle, fun more hmore => ?_⟩
      rw [(hlonger more hmore).1, (hlonger more hmore).2]
      simp only [List.cons_append]
      split
      · rename_i heq
        exact (hne (List.append_eq_nil_iff.1 heq).1).elim
      · rfl
  · rename_i hne hbracket
    cases h
    refine ⟨hle, fun more hmore => ?_⟩
    rw [(hlonger more hmore).1, (hlonger more hmore).2]
    split
    · rename_i heq
      exact (hne (List.append_eq_nil_iff.1 heq).1).elim
    · rename_i heq
      exact absurd heq (append_ne_cons (by decide) hmore (fun rest h => hbracket rest rfl h) _)
    · rfl

theorem local_readClassStart : Local readClassStart := by
  intro f g hfg text x rest h
  simp only [readClassStart, hfg.skip, hfg.skip_right] at h ⊢
  split at h
  · obtain ⟨hle, hmore⟩ := local_readClassFront true hfg h
    exact ⟨Nat.le_succ_of_le hle, hmore⟩
  · rename_i hcaret
    obtain ⟨hle, hmore⟩ := local_readClassFront false hfg h
    refine ⟨hle, fun more hends => ?_⟩
    split
    · rename_i heq
      exact absurd heq (append_ne_cons (by decide) hends hcaret _)
    · exact hmore more hends

/-! ## Named sets -/

/-- No name of a set has a parenthesis. -/
theorem named?_of_mem {name : String} (h : ')' ∈ name.toList) : CharSet.named? name = none := by
  unfold CharSet.named?
  split
  all_goals first | rfl | exact absurd h (by decide)

theorem length_of_readSetName? {text : List Char} {found : CharSet × List Char}
    (h : readSetName? text = some found) : found.2.length ≤ text.length := by
  have hle := List.length_dropWhile_le (· != ':') text
  unfold readSetName? at h
  split at h
  · rename_i rest hrest
    rw [hrest] at hle
    obtain ⟨s, -, rfl⟩ := Option.map_eq_some_iff.1 h
    exact Nat.le_of_succ_le (Nat.le_of_succ_le hle)
  · cases h

/-- A name that is not found in a text is not found with more behind it either. -/
theorem readSetName?_append (text : List Char) {more : List Char} (hmore : Closing more) :
    readSetName? (text ++ more) = (readSetName? text).map fun found => (found.1, found.2 ++ more) := by
  cases hdrop : text.dropWhile (· != ':') with
  | cons c rest =>
    obtain ⟨htake', hdrop'⟩ := dropWhile_append_of_cons hdrop more
    rw [readSetName?, readSetName?, htake', hdrop', hdrop]
    split
    · rename_i rest' heq
      obtain ⟨rfl, hrest⟩ := List.cons.inj heq
      cases rest with
      | nil => exact absurd (hmore ']' (by rw [show more = ']' :: rest' from hrest]; rfl)) (by decide)
      | cons d rest =>
        obtain ⟨rfl, rfl⟩ := List.cons.inj hrest
        simp only [Option.map_map]
        rfl
    · rename_i hno
      split
      · rename_i rest' heq
        exact (hno (rest' ++ more) (congrArg (· ++ more) heq)).elim
      · rfl
  | nil =>
    -- The name would have to go on behind the text, beginning with a parenthesis there.
    have hnone : readSetName? text = none := by rw [readSetName?, hdrop]
    rw [hnone, Option.map_none, readSetName?]
    split
    · rename_i rest heq
      cases more with
      | nil =>
        rw [List.append_nil, hdrop] at heq
        cases heq
      | cons c more =>
        obtain rfl : c = ')' := hmore c rfl
        rw [named?_of_mem, Option.map_none]
        rw [String.toList_ofList, List.takeWhile_append_of_pos (fun c hc => List.dropWhile_eq_nil_iff.1 hdrop c hc)]
        exact List.mem_append_right _ List.mem_cons_self
    · rfl

theorem local_readNamedSet? {f g : Flags} (hfg : f.Alike g) (text : List Char) :
    (∀ x ∈ readNamedSet? f text, x.2.length ≤ text.length) ∧ ∀ more, Closing more →
      readNamedSet? g (text ++ more) = (readNamedSet? f text).map fun x => (x.1, x.2 ++ more) := by
  unfold readNamedSet?
  split
  · rename_i text
    refine ⟨fun x hx => ?_, fun more hmore => ?_⟩
    · obtain ⟨found, hfound, rfl⟩ := Option.map_eq_some_iff.1 hx
      have hle := length_of_readSetName? hfound
      exact Nat.le_succ_of_le (Nat.le_succ_of_le hle)
    · simp only [List.cons_append, readSetName?_append text hmore, hfg.setOrRest, Option.map_map]
      rfl
  · rename_i text hcaret
    refine ⟨fun x hx => ?_, fun more hmore => ?_⟩
    · obtain ⟨found, hfound, rfl⟩ := Option.map_eq_some_iff.1 hx
      have hle := length_of_readSetName? hfound
      exact Nat.le_succ_of_le hle
    · split
      · rename_i heq
        exact absurd (List.cons.inj heq).2 (append_ne_cons (by decide) hmore hcaret _)
      · rename_i text' _ heq
        obtain rfl : text' = text ++ more := (List.cons.inj heq).2.symm
        simp only [readSetName?_append text hmore, hfg.setOrRest, Option.map_map]
        rfl
      · rename_i hno
        exact (hno _ rfl).elim
  · rename_i hcolon
    refine ⟨nofun, fun more hmore => ?_⟩
    split
    · rename_i heq
      exact absurd heq (append_ne_cons (by decide) hmore hcolon _)
    · rename_i heq
      exact absurd heq (append_ne_cons (by decide) hmore hcolon _)
    · rfl

/-! ## Items -/

theorem endsItem_append {f g : Flags} (hfg : f.Alike g) (text : List Char) {more : List Char}
    (hmore : Closing more) : endsItem g (text ++ more) = endsItem f text := by
  simp only [endsItem, hfg.verbose, hfg.verbose_right, Bool.false_eq_true, if_false]
  cases text with
  | nil =>
    cases more with
    | nil => rfl
    | cons c more => rw [hmore c rfl]; rfl
  | cons c text => rfl

section Properties

variable (properties : Properties)

theorem local_readClassItem : Local (readClassItem properties) := by
  intro f g hfg text x rest h
  simp only [readClassItem] at h ⊢
  split at h
  · cases h
  · obtain ⟨hle, hmore⟩ := local_readEscape properties hfg h
    exact ⟨Nat.le_succ_of_le hle, hmore⟩
  · rename_i hslash
    cases h
    refine ⟨Nat.le_succ _, fun more _ => ?_⟩
    simp only [List.cons_append]

theorem local_readClassRange : Local (readClassRange properties) := by
  intro f g hfg text x rest h
  simp only [readClassRange, hfg.skip, hfg.skip_right, hfg.accept] at h ⊢
  obtain ⟨⟨first, rest'⟩, hfirst, h⟩ := bind_eq_ok.1 h
  obtain ⟨hle, hmore⟩ := local_readClassItem properties hfg hfirst
  suffices hrest : rest.length ≤ rest'.length ∧ ∀ more, Closing more → _ from
    ⟨Nat.le_trans hrest.1 hle, fun more hends => bind_eq_ok.2 ⟨_, hmore more hends, hrest.2 more hends⟩⟩
  simp only at h ⊢
  split at h
  · cases h
  · rename_i inner
    split at h
    · rename_i hhyphen
      obtain ⟨s, hs, h⟩ := bind_eq_ok.1 h
      cases h
      refine ⟨Nat.le_refl _, fun more hends => ?_⟩
      simp only [List.cons_append, endsItem_append hfg _ hends, if_pos hhyphen]
      exact bind_eq_ok.2 ⟨_, hs, rfl⟩
    · rename_i hhyphen
      obtain ⟨⟨last, rest''⟩, hlast, h⟩ := bind_eq_ok.1 h
      obtain ⟨hle', hmore'⟩ := local_readClassItem properties hfg hlast
      simp only at h
      split at h
      · split at h
        · rename_i hordered
          obtain ⟨s, hs, h⟩ := bind_eq_ok.1 h
          cases h
          refine ⟨Nat.le_succ_of_le hle', fun more hends => ?_⟩
          simp only [List.cons_append, endsItem_append hfg _ hends, if_neg hhyphen]
          exact bind_eq_ok.2 ⟨_, hmore' more hends,
            (if_pos hordered).trans (bind_eq_ok.2 ⟨_, hs, rfl⟩)⟩
        · cases h
      · cases h
  · rename_i hne hhyphen
    obtain ⟨s, hs, h⟩ := bind_eq_ok.1 h
    cases h
    refine ⟨Nat.le_refl _, fun more hends => ?_⟩
    split
    · rename_i heq
      exact (hne (List.append_eq_nil_iff.1 heq).1).elim
    · rename_i heq
      exact absurd heq (append_ne_cons (by decide) hends hhyphen _)
    · exact bind_eq_ok.2 ⟨_, hs, rfl⟩

theorem local_readClassItems (limit : Nat) (c : OpenClass) (outer : List OpenClass) {f g : Flags}
    (hfg : f.Alike g) {text rest : List Char} {x : ClassPart}
    (h : readClassItems properties f limit c outer text = .ok (x, rest)) :
    rest.length ≤ text.length ∧ ∀ more limit', Closing more → limit ≤ limit' →
      readClassItems properties g limit' c outer (text ++ more) = .ok (x, rest ++ more) := by
  induction limit generalizing c outer text with
  | zero => cases h
  | succ limit ih =>
    simp only [readClassItems, hfg.skip] at h
    suffices hrest : rest.length ≤ text.length ∧ ∀ more limit', Closing more → limit ≤ limit' →
        readClassItems properties g (limit' + 1) c outer (text ++ more) = .ok (x, rest ++ more) by
      refine ⟨hrest.1, fun more limit' hends hlimit => ?_⟩
      obtain ⟨d, rfl⟩ := Nat.exists_eq_add_of_le hlimit
      rw [Nat.add_right_comm]
      exact hrest.2 more _ hends (Nat.le_add_right _ _)
    have hoperate (op : SetOp) {inner : List Char}
        (h : readClassItems properties f limit (c.operate f op) outer inner = .ok (x, rest)) :
        rest.length ≤ inner.length + 2 ∧ ∀ more limit', Closing more → limit ≤ limit' →
          readClassItems properties g limit' (c.operate g op) outer (inner ++ more) = .ok (x, rest ++ more) := by
      rw [hfg.operate]
      obtain ⟨hle, hmore⟩ := ih _ _ h
      exact ⟨Nat.le_add_right_of_le hle, hmore⟩
    simp only [readClassItems, hfg.skip_right]
    split at h
    · cases h
    · rename_i inner
      obtain ⟨hle, hmore⟩ := local_readNamedSet? hfg inner
      cases hnamed : readNamedSet? f inner with
      | some found =>
        rw [hnamed] at h
        obtain ⟨s, hs, h⟩ := bind_eq_ok.1 h
        obtain ⟨hle', hmore'⟩ := ih _ _ h
        refine ⟨Nat.le_succ_of_le (Nat.le_trans hle' (hle _ hnamed)), fun more limit' hends hlimit => ?_⟩
        simp only [List.cons_append, hmore more hends, hnamed]
        exact bind_eq_ok.2 ⟨s, (hfg.accept _).trans hs, hmore' more limit' hends hlimit⟩
      | none =>
        rw [hnamed] at h
        obtain ⟨⟨new, rest'⟩, hstart, h⟩ := bind_eq_ok.1 h
        obtain ⟨hle', hmore'⟩ := local_readClassStart hfg hstart
        obtain ⟨hle'', hmore''⟩ := ih _ _ h
        refine ⟨Nat.le_succ_of_le (Nat.le_trans hle'' hle'), fun more limit' hends hlimit => ?_⟩
        simp only [List.cons_append, hmore more hends, hnamed]
        exact bind_eq_ok.2 ⟨_, hmore' more hends, hmore'' more limit' hends hlimit⟩
    · rename_i inner
      obtain ⟨part, hpart, h⟩ := bind_eq_ok.1 h
      have hpart' : c.close g = .ok part := (hfg.close c).trans hpart
      split at h
      · cases h
        exact ⟨Nat.le_succ _, fun more limit' _ _ => bind_eq_ok.2 ⟨_, hpart', rfl⟩⟩
      · obtain ⟨hle, hmore⟩ := ih _ _ h
        exact ⟨Nat.le_succ_of_le hle, fun more limit' hends hlimit =>
          bind_eq_ok.2 ⟨part, hpart', hmore more limit' hends hlimit⟩⟩
    · exact hoperate .inter h
    · exact hoperate .diff h
    · exact hoperate .symmDiff h
    · rename_i hne hopen hclose hinter hdiff hsymm
      obtain ⟨⟨s, rest'⟩, hrange, h⟩ := bind_eq_ok.1 h
      obtain ⟨hle, hmore⟩ := local_readClassRange properties hfg hrange
      obtain ⟨hle', hmore'⟩ := ih _ _ h
      refine ⟨Nat.le_trans hle' hle, fun more limit' hends hlimit => ?_⟩
      split
      · rename_i heq
        exact (hne (List.append_eq_nil_iff.1 heq).1).elim
      · exact absurd ‹_› (append_ne_cons (by decide) hends hopen _)
      · exact absurd ‹_› (append_ne_cons (by decide) hends hclose _)
      · exact absurd ‹_› (append_ne_cons_cons (by decide) hends hne hinter _)
      · exact absurd ‹_› (append_ne_cons_cons (by decide) hends hne hdiff _)
      · exact absurd ‹_› (append_ne_cons_cons (by decide) hends hne hsymm _)
      · exact bind_eq_ok.2 ⟨_, hmore more hends, hmore' more limit' hends hlimit⟩

theorem local_readClass : Local (readClass properties) := by
  intro f g hfg text x rest h
  simp only [readClass, bind_eq_ok] at h ⊢
  obtain ⟨⟨c, rest'⟩, hstart, hitems⟩ := h
  obtain ⟨hle, hmore⟩ := local_readClassStart hfg hstart
  obtain ⟨hle', hmore'⟩ := local_readClassItems properties _ c [] hfg hitems
  refine ⟨Nat.le_trans hle' hle, fun more hends => ⟨_, hmore more hends, hmore' more _ hends ?_⟩⟩
  exact Nat.succ_le_succ (List.length_append ▸ Nat.le_add_right _ _)

end Properties

end Highlight.Pattern
