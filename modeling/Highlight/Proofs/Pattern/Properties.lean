import Highlight.Proofs.Pattern.Tokens

/-!
# More properties of characters

A reader asks for properties by name and goes on only if they are known. So what is a pattern where some
properties are known is the same pattern where more of them are (`parse_mono`). In particular a pattern that
is read where none is known does not depend on any table.
-/

namespace Highlight.Pattern

/-- What the one table knows is known to the other one, and is the same there. -/
def Properties.Le (t u : Properties) : Prop := ∀ name ranges, t name = some ranges → u name = some ranges

theorem Properties.none_le (t : Properties) : Properties.none.Le t := nofun

section Mono

variable {t u : Properties} (hle : t.Le u) {flags : Flags} {text rest : List Char}

include hle

theorem propertySet_mono {negated : Bool} {name : String} {s : CharSet}
    (h : propertySet t flags negated name = .ok s) : propertySet u flags negated name = .ok s := by
  unfold propertySet at h ⊢
  split at h
  · cases h
  · rename_i hunicode
    rw [if_neg hunicode]
    split at h
    · rename_i ranges hranges
      rw [hle _ _ hranges]
      exact h
    · cases h

theorem readProperty_mono {negated : Bool} {x : CharSet × List Char}
    (h : readProperty t flags negated text = .ok x) : readProperty u flags negated text = .ok x := by
  simp only [readProperty] at h ⊢
  split at h
  · cases h
  · split at h
    · cases h
    · obtain ⟨s, hs, h⟩ := bind_eq_ok.1 h
      exact bind_eq_ok.2 ⟨s, propertySet_mono hle hs, h⟩
  · cases h
  · obtain ⟨s, hs, h⟩ := bind_eq_ok.1 h
    exact bind_eq_ok.2 ⟨s, propertySet_mono hle hs, h⟩

theorem readEscape_mono {x : Atom × List Char} (h : readEscape t flags text = .ok x) :
    readEscape u flags text = .ok x := by
  have hproperty {negated : Bool} {text : List Char}
      (h : (readProperty t flags negated text >>= fun y => Except.ok (Atom.set y.1, y.2)) = .ok x) :
      (readProperty u flags negated text >>= fun y => Except.ok (Atom.set y.1, y.2)) = .ok x := by
    obtain ⟨y, hy, h⟩ := bind_eq_ok.1 h
    exact bind_eq_ok.2 ⟨y, readProperty_mono hle hy, h⟩
  cases text with
  | nil => exact h
  | cons c text =>
    simp only [readEscape] at h ⊢
    split at h
    -- Only two escapes ask for a property.
    all_goals first | exact h | exact hproperty h

/-! ## Classes -/

theorem readClassItem_mono {x : Atom × List Char} (h : readClassItem t flags text = .ok x) :
    readClassItem u flags text = .ok x := by
  unfold readClassItem at h ⊢
  split at h
  · exact h
  · exact readEscape_mono hle h
  · exact h

theorem readClassRange_mono {x : CharSet × List Char} (h : readClassRange t flags text = .ok x) :
    readClassRange u flags text = .ok x := by
  simp only [readClassRange] at h ⊢
  obtain ⟨first, hfirst, h⟩ := bind_eq_ok.1 h
  refine bind_eq_ok.2 ⟨first, readClassItem_mono hle hfirst, ?_⟩
  split at h
  · exact h
  · split at h
    · rename_i hends
      exact (if_pos hends).trans h
    · rename_i hends
      obtain ⟨last, hlast, h⟩ := bind_eq_ok.1 h
      exact (if_neg hends).trans (bind_eq_ok.2 ⟨last, readClassItem_mono hle hlast, h⟩)
  · exact h

theorem readClassItems_mono {limit : Nat} {c : OpenClass} {outer : List OpenClass}
    {x : ClassPart × List Char} (h : readClassItems t flags limit c outer text = .ok x) :
    readClassItems u flags limit c outer text = .ok x := by
  induction limit generalizing c outer text with
  | zero => exact h
  | succ limit ih =>
    simp only [readClassItems] at h ⊢
    split at h
    · exact h
    · split at h
      · obtain ⟨s, hs, h⟩ := bind_eq_ok.1 h
        exact bind_eq_ok.2 ⟨s, hs, ih h⟩
      · obtain ⟨new, hnew, h⟩ := bind_eq_ok.1 h
        exact bind_eq_ok.2 ⟨new, hnew, ih h⟩
    · obtain ⟨part, hpart, h⟩ := bind_eq_ok.1 h
      refine bind_eq_ok.2 ⟨part, hpart, ?_⟩
      split at h
      · exact h
      · exact ih h
    · exact ih h
    · exact ih h
    · exact ih h
    · obtain ⟨range, hrange, h⟩ := bind_eq_ok.1 h
      exact bind_eq_ok.2 ⟨range, readClassRange_mono hle hrange, ih h⟩

theorem readClass_mono {x : ClassPart × List Char} (h : readClass t flags text = .ok x) :
    readClass u flags text = .ok x := by
  obtain ⟨start, hstart, h⟩ := bind_eq_ok.1 h
  exact bind_eq_ok.2 ⟨start, hstart, readClassItems_mono hle h⟩

/-! ## Items -/

theorem lex_mono {c : Char} {x : Token × List Char} (h : lex t flags c text = .ok x) :
    lex u flags c text = .ok x := by
  unfold lex at h ⊢
  split at h
  case h_4 =>
    obtain ⟨read, hread, h⟩ := bind_eq_ok.1 h
    exact bind_eq_ok.2 ⟨read, readClass_mono hle hread, h⟩
  case h_9 =>
    obtain ⟨read, hread, h⟩ := bind_eq_ok.1 h
    exact bind_eq_ok.2 ⟨read, readEscape_mono hle hread, h⟩
  -- All other items ask for no property.
  all_goals exact h

namespace Parser

variable {p p' : Parser} {limit : Nat}

theorem step_mono {c : Char} (h : p.step t c text = .ok (p', rest)) : p.step u c text = .ok (p', rest) := by
  obtain ⟨token, hlex, hact⟩ := step_eq_ok.1 h
  exact step_eq_ok.2 ⟨token, lex_mono hle hlex, hact⟩

theorem run_mono (h : run t limit p text = .ok p') : run u limit p text = .ok p' := by
  induction limit generalizing p text with
  | zero => exact h
  | succ limit ih =>
    rw [run] at h ⊢
    split at h
    · exact h
    · obtain ⟨⟨q, rest⟩, hstep, h⟩ := bind_eq_ok.1 h
      exact bind_eq_ok.2 ⟨(q, rest), step_mono hle hstep, ih h⟩

end Parser

/-- Where more properties are known, the same patterns are read, and perhaps others. -/
theorem parse_mono {source : String} {p : Pattern} (h : Pattern.parse t source = .ok p) :
    Pattern.parse u source = .ok p := by
  obtain ⟨q, hrun, hfinish⟩ := bind_eq_ok.1 h
  exact bind_eq_ok.2 ⟨q, Parser.run_mono hle hrun, hfinish⟩

end Mono

end Highlight.Pattern
