import Highlight.Json.Printer
import Highlight.Json.Reader

/-!
# Strings and numbers as JSON

What is written for a text or a natural number is read as the same text or number:

* `readString_quoted`: escapes are undone, whatever characters the text has;
* `readNumber_toDigits`, `natural?_nat`: digits are read as they are, and denote the number.
-/

namespace Highlight.Json

/-! ## Strings -/

theorem hexValue?_hexDigit : ∀ n < 16, Text.hexValue? (hexDigit n) = some n := by decide

/-- A control character is written by the number that its escape denotes. -/
theorem unit?_hexDigit {n : Nat} (h : n < 0x20) :
    unit? '0' '0' (hexDigit (n / 16)) (hexDigit (n % 16)) = some n := by
  have hzero : Text.hexValue? '0' = some 0 := by decide
  simp only [unit?, hzero, hexValue?_hexDigit (n / 16) (by omega),
    hexValue?_hexDigit (n % 16) (Nat.mod_lt n (by decide)), Option.bind_eq_bind, Option.bind_some]
  show some _ = some n
  congr 1
  omega

/-- The escape of a character denotes the character. -/
theorem readUnits_escape (c : Char) (text : List Char) :
    readUnits (escape c ++ text) =
      (readUnits text).map fun (units, rest) => (c.toNat :: units, rest) := by
  have hmap : ∀ n, (do
      let (units, rest) ← readUnits text
      return (n :: units, rest)) = (readUnits text).map fun (units, rest) => (n :: units, rest) :=
    fun _ => by cases readUnits text <;> rfl
  unfold escape
  split
  -- The characters with a letter of their own.
  iterate 7 exact hmap _
  rename_i hquote hslash _ _ _ _ _
  split
  · rename_i hcontrol
    show (unit? '0' '0' _ _ >>= _) = _
    rw [unit?_hexDigit hcontrol]
    exact hmap _
  · rename_i hplain
    rw [List.singleton_append, readUnits.eq_def]
    split
    · rename_i heq
      cases heq
    · rename_i heq
      cases heq
      exact absurd rfl hquote
    · rename_i heq
      cases heq
      exact absurd rfl hslash
    · rename_i heq
      cases heq
      exact absurd rfl hslash
    · rename_i heq
      cases heq
      rw [if_neg (by simpa [hplain] using hslash)]
      exact hmap _

theorem readUnits_flatMap_escape (cs rest : List Char) :
    readUnits (cs.flatMap escape ++ '"' :: rest) = some (cs.map Char.toNat, rest) := by
  induction cs with
  | nil => rfl
  | cons c cs ih =>
    rw [List.flatMap_cons, List.append_assoc, readUnits_escape, ih]
    rfl

/-- No character is half of a pair of surrogates. -/
theorem not_surrogate (c : Char) : ¬ (0xD800 ≤ c.toNat ∧ c.toNat < 0xE000) := by
  have hvalid : c.toNat < 0xD800 ∨ 0xDFFF < c.toNat ∧ c.toNat < 0x110000 := c.valid
  omega

theorem joinUnits_map_toNat (cs : List Char) : joinUnits (cs.map Char.toNat) = some cs := by
  match cs with
  | [] => rfl
  | [c] =>
    rw [List.map_singleton, joinUnits, if_neg (not_surrogate c), Char.ofNat_toNat]
  | c :: d :: cs =>
    have hc := not_surrogate c
    rw [List.map_cons, List.map_cons, joinUnits, if_neg (by omega), if_neg (by omega),
      ← List.map_cons, joinUnits_map_toNat (d :: cs), Char.ofNat_toNat]
    rfl

/-- A text between quotation marks is read back. -/
theorem readString_quoted (text : String) (rest : List Char) :
    readString (text.toList.flatMap escape ++ '"' :: rest) = some (some text, rest) := by
  rw [readString, readUnits_flatMap_escape]
  show some ((joinUnits (text.toList.map Char.toNat)).map String.ofList, rest) = _
  rw [joinUnits_map_toNat, Option.map_some, String.ofList_toList]

/-! ## Numbers -/

/-- What may stand behind a number without becoming part of it. -/
def EndsNumber (rest : List Char) : Prop :=
  ∀ c ∈ rest.head?, c.isDigit = false ∧ c ≠ '.' ∧ c ≠ 'e' ∧ c ≠ 'E'

/-- The first digit of a number is a zero only if there is no other. -/
theorem toDigits_eq_zero_cons {n : Nat} {digits : List Char}
    (h : Nat.toDigits 10 n = '0' :: digits) : digits = [] := by
  induction n using Nat.strongRecOn generalizing digits with
  | ind n ih =>
    rw [Nat.toDigits_eq_if (by decide)] at h
    split at h
    · exact (List.cons.inj h).2.symm
    · rename_i hn
      match hq : Nat.toDigits 10 (n / 10), h with
      | [], _ => exact absurd hq Nat.toDigits_ne_nil
      | c :: more, h =>
        rw [List.cons_append] at h
        injection h with hc _
        subst hc
        have hmore := ih (n / 10) (by omega) hq
        subst hmore
        -- A quotient written as a single zero would be zero.
        have hzero := Nat.ofDigitChars_ten_toDigits (n := n / 10)
        rw [hq] at hzero
        have : Nat.ofDigitChars 10 ['0'] 0 = 0 := by decide
        omega

theorem takeWhile_toDigits (n : Nat) {rest : List Char} (h : EndsNumber rest) :
    (Nat.toDigits 10 n ++ rest).takeWhile Char.isDigit = Nat.toDigits 10 n ∧
      (Nat.toDigits 10 n ++ rest).dropWhile Char.isDigit = rest := by
  have hrest : rest.takeWhile Char.isDigit = [] ∧ rest.dropWhile Char.isDigit = rest := by
    match rest, h with
    | [], _ => exact ⟨rfl, rfl⟩
    | c :: rest, h =>
      have hc := (h c rfl).1
      simp [hc]
  have hdigits : ∀ c ∈ Nat.toDigits 10 n, c.isDigit = true := fun c =>
    Nat.isDigit_of_mem_toDigits (by decide) (by decide)
  rw [List.takeWhile_append_of_pos hdigits, List.dropWhile_append_of_pos hdigits, hrest.1, hrest.2,
    List.append_nil]
  exact ⟨rfl, rfl⟩

theorem readWhole_toDigits (n : Nat) {rest : List Char} (h : EndsNumber rest) :
    readWhole (Nat.toDigits 10 n ++ rest) = some (Nat.toDigits 10 n, rest) := by
  unfold readWhole
  split
  · rename_i heq
    match hn : Nat.toDigits 10 n, heq with
    | [], _ => exact absurd hn Nat.toDigits_ne_nil
    | c :: digits, heq =>
      injection heq with hc hrest
      subst hc
      rw [toDigits_eq_zero_cons hn] at hrest ⊢
      rw [← hrest]
      rfl
  · obtain ⟨htake, hdrop⟩ := takeWhile_toDigits n h
    unfold readDigits
    rw [htake, hdrop]
    split
    · rename_i hnil
      exact absurd hnil Nat.toDigits_ne_nil
    · rfl

theorem readFraction_of_ends {rest : List Char} (h : EndsNumber rest) :
    readFraction rest = some ([], rest) := by
  unfold readFraction
  split
  · exact absurd rfl (h '.' rfl).2.1
  · rfl

theorem readExponent_of_ends {rest : List Char} (h : EndsNumber rest) :
    readExponent rest = some ([], rest) := by
  unfold readExponent
  split
  · rename_i c rest
    obtain ⟨-, -, hsmall, hlarge⟩ := h c rfl
    rw [if_neg (by simp [hsmall, hlarge])]
  · rfl

/-- A natural number is read as it is written. -/
theorem readNumber_toDigits (n : Nat) {rest : List Char} (h : EndsNumber rest) :
    readNumber (Nat.toDigits 10 n ++ rest) = some (Nat.toDigits 10 n, rest) := by
  have hminus : ∀ more, Nat.toDigits 10 n ++ rest ≠ '-' :: more := by
    intro more heq
    match hn : Nat.toDigits 10 n, heq with
    | [], _ => exact absurd hn Nat.toDigits_ne_nil
    | c :: digits, heq =>
      have hdigit : c.isDigit = true :=
        Nat.isDigit_of_mem_toDigits (by decide) (by decide) (hn ▸ List.mem_cons_self)
      rw [(List.cons.inj heq).1] at hdigit
      exact absurd hdigit (by decide)
  unfold readNumber
  split
  · rename_i sign text hsign
    split at hsign
    · rename_i more heq
      exact absurd heq (hminus more)
    · cases hsign
      simp only [readWhole_toDigits n h, readFraction_of_ends h, readExponent_of_ends h,
        Option.bind_eq_bind, Option.bind_some, List.nil_append, List.append_nil]
      rfl

/-- The digits of a number denote it. -/
theorem natural?_toDigits (n : Nat) : Text.natural? (Nat.toDigits 10 n) = some n := by
  have hvalue : Text.decimalValue (Nat.toDigits 10 n) = Nat.ofDigitChars 10 (Nat.toDigits 10 n) 0 := by
    simp only [Text.decimalValue, Nat.ofDigitChars_eq_foldl, Nat.mul_comm 10]
  have hall : (Nat.toDigits 10 n).all Char.isDigit = true :=
    List.all_eq_true.2 fun c => Nat.isDigit_of_mem_toDigits (by decide) (by decide)
  have hne : (Nat.toDigits 10 n).isEmpty = false := by
    simp only [List.isEmpty_eq_false_iff, ne_eq, Nat.toDigits_ne_nil, not_false_eq_true]
  rw [Text.natural?, hall, hne, hvalue, Nat.ofDigitChars_ten_toDigits]
  rfl

theorem natural?_nat {n : Nat} (h : n < UInt64.size) : (nat n).natural? = some n := by
  rw [nat, natural?, natural?_toDigits, Option.filter_some, if_pos (decide_eq_true h)]

end Highlight.Json
