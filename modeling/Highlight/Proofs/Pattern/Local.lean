import Highlight.Fault
import Highlight.Pattern.Class
import Mathlib.Data.List.TakeWhile

/-!
# Readers look no further than they read
-/

namespace Highlight.Pattern

/-- Flags under which blanks and comments count, and which differ in what holds at the ends of lines. -/
structure Flags.Alike (f g : Flags) : Prop where
  verbose : f.verbose = false
  eq : g = { f with multiline := g.multiline }

/-- A text that is empty or goes on with a closing parenthesis. -/
def Closing (more : List Char) : Prop := ∀ c ∈ more.head?, c = ')'

/-- What is read is a part of the text at its front, and what stands behind it makes no difference, nor do
flags that are alike. -/
def Local {α : Type} (read : Flags → List Char → Except SyntaxError (α × List Char)) : Prop :=
  ∀ ⦃f g : Flags⦄, f.Alike g → ∀ ⦃text : List Char⦄ ⦃x : α⦄ ⦃rest : List Char⦄,
    read f text = .ok (x, rest) → rest.length ≤ text.length ∧
      ∀ more, Closing more → read g (text ++ more) = .ok (x, rest ++ more)

/-! ## Flags -/

namespace Flags.Alike

variable {f g : Flags} (h : f.Alike g)

include h

theorem verbose_right : g.verbose = false := by
  rw [h.eq]
  exact h.verbose

theorem caseless : g.caseless = f.caseless := by
  rw [h.eq]

theorem unicode : g.unicode = f.unicode := by
  rw [h.eq]

theorem skip (text : List Char) : f.skip text = text := by
  rw [Flags.skip, h.verbose]
  rfl

theorem skip_right (text : List Char) : g.skip text = text := by
  rw [Flags.skip, h.verbose_right]
  rfl

theorem set (s : CharSet) : g.set s = f.set s := by
  rw [Flags.set, Flags.set, h.caseless, h.unicode]

theorem setOrRest (negated : Bool) (s : CharSet) : g.setOrRest negated s = f.setOrRest negated s := by
  rw [Flags.setOrRest, Flags.setOrRest, h.set]

theorem mark (s : CharSet) : g.mark s = f.mark s := by
  rw [Flags.mark, Flags.mark, h.unicode]

theorem accept (s : CharSet) : g.accept s = f.accept s := by
  rw [Flags.accept, Flags.accept, h.unicode, h.mark]

theorem escapeSet (negated : Bool) (wide narrow : CharSet) :
    g.escapeSet negated wide narrow = f.escapeSet negated wide narrow := by
  rw [Flags.escapeSet, Flags.escapeSet, h.unicode, h.accept]

theorem propertySet (properties : Properties) (negated : Bool) (name : String) :
    propertySet properties g negated name = propertySet properties f negated name := by
  rw [Pattern.propertySet, Pattern.propertySet, h.unicode, funext fun s => h.setOrRest negated s]

end Flags.Alike

/-! ## Characters at the front -/

theorem takeChars_eq {f : Flags} (h : f.verbose = false) (p : Char → Bool) (taken text : List Char) :
    takeChars f p false taken text = ((text.takeWhile p).reverse ++ taken, text.dropWhile p) := by
  induction text generalizing taken with
  | nil => rfl
  | cons c text ih =>
    rw [takeChars]
    by_cases hp : p c
    · simp [hp, ih]
    · simp [hp, h]

section Ends

variable {p : Char → Bool} (hp : p ')' = false) {more : List Char} (hmore : Closing more)

include hp hmore

theorem takeWhile_of_closing : more.takeWhile p = [] ∧ more.dropWhile p = more := by
  cases more with
  | nil => exact ⟨rfl, rfl⟩
  | cons c more =>
    rw [hmore c rfl, List.takeWhile_cons, List.dropWhile_cons, hp]
    exact ⟨rfl, rfl⟩

theorem takeWhile_append_closing (text : List Char) :
    (text ++ more).takeWhile p = text.takeWhile p := by
  induction text with
  | nil => exact (takeWhile_of_closing hp hmore).1
  | cons c text ih => simp only [List.cons_append, List.takeWhile_cons, ih]

theorem dropWhile_append_closing (text : List Char) :
    (text ++ more).dropWhile p = text.dropWhile p ++ more := by
  induction text with
  | nil => exact (takeWhile_of_closing hp hmore).2
  | cons c text ih =>
    simp only [List.cons_append, List.dropWhile_cons, ih]
    split <;> rfl

end Ends

/-- Where the characters at the front of a text end within it, they end there in a longer text too. -/
theorem dropWhile_append_of_cons {p : Char → Bool} {c : Char} {text rest : List Char}
    (h : text.dropWhile p = c :: rest) (more : List Char) :
    (text ++ more).takeWhile p = text.takeWhile p ∧ (text ++ more).dropWhile p = c :: (rest ++ more) := by
  have hne : text.dropWhile p ≠ [] := h ▸ List.cons_ne_nil c rest
  have hlength : (text.takeWhile p).length ≠ text.length := fun hlength =>
    hne (List.dropWhile_eq_nil_iff.2
      (List.takeWhile_eq_self_iff.1 ((List.takeWhile_prefix p).eq_of_length hlength)))
  rw [List.takeWhile_append, if_neg hlength, List.dropWhile_append, if_neg (mt List.isEmpty_iff.1 hne), h]
  exact ⟨rfl, rfl⟩

/-- A text that does not begin with some character does not do so when more stands behind it. -/
theorem append_ne_cons {text more : List Char} {c : Char} (hc : c ≠ ')') (hmore : Closing more)
    (h : ∀ rest, text ≠ c :: rest) (rest : List Char) : text ++ more ≠ c :: rest := by
  cases text with
  | nil => exact fun heq => hc (hmore c (congrArg List.head? heq))
  | cons d text => exact fun heq => h text (congrArg (· :: text) (List.cons.inj heq).1)

/-! ## Escapes -/

theorem local_readDigits (count value : Nat) : Local fun f text => readDigits f count value text := by
  intro f g hfg
  induction count generalizing value with
  | zero =>
    intro text x rest h
    simp only [readDigits, bind_eq_ok, pure_eq_ok, Prod.mk.injEq] at h ⊢
    obtain ⟨c, hc, rfl, rfl⟩ := h
    exact ⟨Nat.le_refl _, fun more _ => ⟨c, hc, rfl, rfl⟩⟩
  | succ n ih =>
    intro text x rest h
    cases text with
    | nil => cases h
    | cons c text =>
      simp only [readDigits, List.cons_append, hfg.skip, hfg.skip_right] at h ⊢
      cases hv : Text.hexValue? c with
      | none => rw [hv] at h; cases h
      | some v =>
        rw [hv] at h
        obtain ⟨hle, hmore⟩ := ih _ h
        exact ⟨Nat.le_succ_of_le hle, hmore⟩

theorem local_readBraced : Local readBraced := by
  intro f g hfg text x rest h
  have hp : (Text.hexValue? ')').isSome = false := by decide
  simp only [readBraced, takeChars_eq hfg.verbose, takeChars_eq hfg.verbose_right, hfg.skip,
    hfg.skip_right] at h ⊢
  split at h
  · cases h
  · rename_i rest' hrest
    have hle := List.length_dropWhile_le (fun c => (Text.hexValue? c).isSome) text
    rw [hrest, List.length_cons] at hle
    split at h
    · cases h
    · rename_i hdigits
      simp only [bind_eq_ok, pure_eq_ok, Prod.mk.injEq] at h
      obtain ⟨c, hc, rfl, rfl⟩ := h
      refine ⟨Nat.le_of_succ_le hle, fun more hmore => ?_⟩
      rw [takeWhile_append_closing hp hmore, dropWhile_append_closing hp hmore, hrest]
      refine (if_neg hdigits).trans ?_
      simp only [bind_eq_ok, pure_eq_ok, Prod.mk.injEq]
      exact ⟨c, hc, rfl, rfl⟩
  · cases h

theorem local_readCharNumber (count : Nat) : Local fun f text => readCharNumber f count text := by
  intro f g hfg text x rest h
  simp only [readCharNumber, hfg.skip, hfg.skip_right] at h ⊢
  split at h
  · cases h
  · obtain ⟨hle, hmore⟩ := local_readBraced hfg h
    exact ⟨Nat.le_succ_of_le hle, hmore⟩
  · rename_i hne hbrace
    obtain ⟨⟨c, rest'⟩, hdigits, h⟩ := bind_eq_ok.1 h
    obtain ⟨hle, hmore⟩ := local_readDigits count 0 hfg hdigits
    split at h
    · cases h
    · rename_i hbyte
      cases h
      refine ⟨hle, fun more hends => ?_⟩
      split
      · rename_i heq
        exact (hne (List.append_eq_nil_iff.1 heq).1).elim
      · rename_i heq
        exact absurd heq (append_ne_cons (by decide) hends hbrace _)
      · exact bind_eq_ok.2 ⟨_, hmore more hends, if_neg (by rwa [hfg.unicode])⟩

/-- What follows `\b` is read in the same way in a longer text. -/
theorem local_readBoundaryName {f g : Flags} (hfg : f.Alike g) {text : List Char}
    {found : Option (Condition × List Char)} (h : readBoundaryName f text = .ok found) :
    (∀ x ∈ found, x.2.length ≤ text.length) ∧ ∀ more, Closing more →
      readBoundaryName g (text ++ more) = .ok (found.map fun x => (x.1, x.2 ++ more)) := by
  have hp : (fun c : Char => c.isAlpha || c == '-') ')' = false := by decide
  simp only [readBoundaryName, takeChars_eq hfg.verbose, takeChars_eq hfg.verbose_right,
    hfg.unicode] at h ⊢
  have hle := List.length_dropWhile_le (fun c : Char => c.isAlpha || c == '-') text
  split at h
  · cases h
  · rename_i rest hne heq
    obtain ⟨hname, hrest⟩ := Prod.mk.inj heq
    cases h
    refine ⟨nofun, fun more hmore => ?_⟩
    rw [takeWhile_append_closing hp hmore, dropWhile_append_closing hp hmore, hname, hrest]
    cases rest with
    | nil => exact (hne rfl).elim
    | cons c rest => rfl
  · rename_i name rest hne heq
    obtain ⟨hname, hrest⟩ := Prod.mk.inj heq
    rw [hrest, List.length_cons] at hle
    obtain ⟨a, name, rfl⟩ := List.exists_cons_of_ne_nil hne
    have hfound (condition : Condition) (h : Except.ok (some (condition, rest)) = (.ok found : Except SyntaxError _)) :
        (∀ x ∈ found, x.2.length ≤ text.length) ∧ ∀ more, Closing more →
          (Except.ok (some (condition, rest ++ more)) : Except SyntaxError _) =
            .ok (found.map fun x => (x.1, x.2 ++ more)) := by
      cases h
      exact ⟨fun x hx => Option.mem_some.1 hx ▸ Nat.le_of_succ_le hle, fun _ _ => rfl⟩
    have hlonger (more : List Char) (hends : Closing more) :
        ((text ++ more).takeWhile fun c => c.isAlpha || c == '-').reverse ++ [] = a :: name ∧
          ((text ++ more).dropWhile fun c => c.isAlpha || c == '-') = '\x7D' :: (rest ++ more) := by
      rw [takeWhile_append_closing hp hends, dropWhile_append_closing hp hends, hname, hrest]
      exact ⟨rfl, rfl⟩
    split at h
    case h_5 => cases h
    all_goals
      rename_i hsome
      obtain ⟨hle, hmore⟩ := hfound _ h
      refine ⟨hle, fun more hends => ?_⟩
      rw [(hlonger more hends).1, (hlonger more hends).2]
      simp only [hsome]
      exact hmore more hends
  · cases h

section Properties

variable (properties : Properties)

/-- The brace behind the name of a property has been read by then. -/
theorem local_readProperty (negated : Bool) :
    Local fun f text => readProperty properties f negated text := by
  intro f g hfg text x rest h
  simp only [readProperty, hfg.skip, hfg.skip_right, takeChars_eq hfg.verbose,
    takeChars_eq hfg.verbose_right, hfg.verbose, hfg.verbose_right, Bool.false_and, Bool.not_false,
    Bool.and_true, hfg.propertySet] at h ⊢
  split at h
  · cases h
  · rename_i inner
    have hle := List.length_dropWhile_le (· != '\x7D') inner
    split at h
    · cases h
    · rename_i name c rest' heq
      obtain ⟨hname, hrest⟩ := Prod.mk.inj heq
      obtain ⟨s, hs, h⟩ := bind_eq_ok.1 h
      cases h
      rw [hrest] at hle
      refine ⟨Nat.le_succ_of_le (Nat.le_of_succ_le hle), fun more _ => ?_⟩
      obtain ⟨htake, hdrop⟩ := dropWhile_append_of_cons hrest more
      simp only [List.cons_append, htake, hdrop, hname]
      exact bind_eq_ok.2 ⟨_, hs, rfl⟩
  · cases h
  · rename_i c inner hbrace hslash
    obtain ⟨s, hs, h⟩ := bind_eq_ok.1 h
    cases h
    refine ⟨Nat.le_succ _, fun more _ => ?_⟩
    simp only [List.cons_append]
    exact bind_eq_ok.2 ⟨_, hs, rfl⟩

theorem local_readEscape : Local (readEscape properties) := by
  intro f g hfg text x rest h
  cases text with
  | nil => cases h
  | cons c text =>
    have hatom (a : Atom) (h : Except.ok (a, text) = (.ok (x, rest) : Except SyntaxError _)) :
        rest.length ≤ (c :: text).length ∧ ∀ more, Closing more →
          (Except.ok (a, text ++ more) : Except SyntaxError _) = .ok (x, rest ++ more) := by
      cases h
      exact ⟨Nat.le_succ _, fun _ _ => rfl⟩
    have hset (read : Except SyntaxError CharSet)
        (h : (read >>= fun s => Except.ok (Atom.set s, text)) = .ok (x, rest)) :
        rest.length ≤ (c :: text).length ∧ ∀ more, Closing more →
          (read >>= fun s => Except.ok (Atom.set s, text ++ more)) = .ok (x, rest ++ more) := by
      obtain ⟨s, hs, h⟩ := bind_eq_ok.1 h
      cases h
      exact ⟨Nat.le_succ _, fun _ _ => bind_eq_ok.2 ⟨s, hs, rfl⟩⟩
    have hread {α : Type} {read : Flags → List Char → Except SyntaxError (α × List Char)}
        (hlocal : Local read) (atom : α → Atom)
        (h : (read f text >>= fun y => Except.ok (atom y.1, y.2)) = .ok (x, rest)) :
        rest.length ≤ (c :: text).length ∧ ∀ more, Closing more →
          (read g (text ++ more) >>= fun y => Except.ok (atom y.1, y.2)) = .ok (x, rest ++ more) := by
      obtain ⟨y, hy, h⟩ := bind_eq_ok.1 h
      cases h
      obtain ⟨hle, hmore⟩ := hlocal hfg hy
      exact ⟨Nat.le_succ_of_le hle, fun more hends => bind_eq_ok.2 ⟨_, hmore more hends, rfl⟩⟩
    simp only [readEscape, List.cons_append, hfg.escapeSet, hfg.unicode] at h ⊢
    split at h
    -- Most escapes stand for one thing, and some for what is read behind them.
    all_goals first
      | exact hatom _ h
      | exact hset _ h
      | exact hread (local_readCharNumber _) .char h
      | exact hread (local_readProperty properties _) .set h
      | skip
    · split at h
      · rename_i inner
        obtain ⟨found, hfound, h⟩ := bind_eq_ok.1 h
        obtain ⟨hle, hmore⟩ := local_readBoundaryName hfg hfound
        cases found with
        | none =>
          obtain ⟨hle, hatom⟩ := hatom _ h
          exact ⟨hle, fun more hends => bind_eq_ok.2 ⟨_, hmore more hends, hatom more hends⟩⟩
        | some found =>
          cases h
          refine ⟨?_, fun more hends => bind_eq_ok.2 ⟨_, hmore more hends, rfl⟩⟩
          have := hle _ rfl
          simp only [List.length_cons]
          omega
      · rename_i hbrace
        obtain ⟨hle, hatom⟩ := hatom _ h
        refine ⟨hle, fun more hends => ?_⟩
        split
        · rename_i heq
          exact absurd heq (append_ne_cons (by decide) hends hbrace _)
        · exact hatom more hends
    · split at h
      · cases h
      · rename_i hdigit
        split at h
        · rename_i hplain
          obtain ⟨hle, hatom⟩ := hatom _ h
          exact ⟨hle, fun more hends => (if_neg hdigit).trans ((if_pos hplain).trans (hatom more hends))⟩
        · cases h

end Properties

/-! ## Counts -/

theorem local_readNumber : Local readNumber := by
  intro f g hfg text x rest h
  have hspace : Unicode.isSpace ')' = false := by decide
  have hdigit : Char.isDigit ')' = false := by decide
  have hle : (((text.dropWhile Unicode.isSpace).dropWhile Char.isDigit).dropWhile
      Unicode.isSpace).length ≤ text.length :=
    Nat.le_trans (List.length_dropWhile_le _ _)
      (Nat.le_trans (List.length_dropWhile_le _ _) (List.length_dropWhile_le _ _))
  have hlonger (more : List Char) (hmore : Closing more) :
      readNumber g (text ++ more) = (readNumber f text).map fun x => (x.1, x.2 ++ more) := by
    simp only [readNumber, takeChars_eq hfg.verbose, takeChars_eq hfg.verbose_right, hfg.skip,
      hfg.skip_right, dropWhile_append_closing hspace hmore, dropWhile_append_closing hdigit hmore,
      takeWhile_append_closing hdigit hmore]
    split
    · rfl
    · split <;> rfl
  refine ⟨?_, fun more hmore => ?_⟩
  · simp only [readNumber, takeChars_eq hfg.verbose, hfg.skip] at h
    split at h
    · cases h
      exact hle
    · split at h
      · cases h
        exact hle
      · cases h
  · rw [hlonger more hmore, h]
    rfl

theorem local_readMost (least : Option Nat) : Local fun f text => readMost f least text := by
  intro f g hfg text x rest h
  simp only [readMost, hfg.skip, hfg.skip_right] at h ⊢
  split at h
  · cases h
  · split at h
    · cases h
    · cases h
      exact ⟨Nat.le_succ _, fun _ _ => rfl⟩
    · rename_i inner hne hbrace
      obtain ⟨⟨most, rest'⟩, hmost, h⟩ := bind_eq_ok.1 h
      obtain ⟨hle, hmore⟩ := local_readNumber hfg hmost
      split at h
      · cases h
      · rename_i hsome
        cases h
        refine ⟨Nat.le_succ_of_le hle, fun more hends => ?_⟩
        simp only [List.cons_append]
        split
        · rename_i heq
          exact (hne (List.append_eq_nil_iff.1 heq).1).elim
        · rename_i heq
          exact absurd heq (append_ne_cons (by decide) hends hbrace _)
        · exact bind_eq_ok.2 ⟨_, hmore more hends, if_neg hsome⟩
  · rename_i hne hcomma
    cases h
    refine ⟨Nat.le_refl _, fun more hends => ?_⟩
    split
    · rename_i heq
      exact (hne (List.append_eq_nil_iff.1 heq).1).elim
    · rename_i heq
      exact absurd heq (append_ne_cons (by decide) hends hcomma _)
    · rfl

theorem local_closeBounds (bounds : Option Nat × Option Nat) :
    Local fun _ text => closeBounds bounds text := by
  intro f g _ text x rest h
  simp only [closeBounds] at h ⊢
  split at h
  · split at h
    · rename_i hbounds
      cases h
      exact ⟨Nat.le_succ _, fun _ _ => if_pos hbounds⟩
    · cases h
  · cases h
  · cases h

theorem local_readBounds : Local readBounds := by
  intro f g hfg text x rest h
  simp only [readBounds, hfg.skip, hfg.skip_right] at h ⊢
  split at h
  · cases h
  · rename_i hempty
    simp only [bind_eq_ok] at h
    obtain ⟨⟨least, rest'⟩, hleast, ⟨bounds, rest''⟩, hmost, hclose⟩ := h
    obtain ⟨hle, hmore⟩ := local_readNumber hfg hleast
    obtain ⟨hle', hmore'⟩ := local_readMost least hfg hmost
    obtain ⟨hle'', hmore''⟩ := local_closeBounds bounds hfg hclose
    refine ⟨Nat.le_trans hle'' (Nat.le_trans hle' hle), fun more hends => ?_⟩
    have hempty' : ¬ (text ++ more).isEmpty = true := by
      cases text with
      | nil => exact absurd rfl hempty
      | cons c text => exact Bool.noConfusion
    refine (if_neg hempty').trans ?_
    simp only [bind_eq_ok]
    exact ⟨_, hmore more hends, _, hmore' more hends, hmore'' more hends⟩

/-! ## Groups -/

theorem local_readName : Local fun _ text => readName text := by
  intro f g _ text x rest h
  have hle := List.length_dropWhile_le (· != '>') text
  simp only [readName] at h ⊢
  split at h
  · rename_i c rest' hrest
    split at h
    · split at h
      · rename_i hname hvalid
        cases h
        rw [hrest] at hle
        refine ⟨Nat.le_of_succ_le hle, fun more _ => ?_⟩
        obtain ⟨htake, hdrop⟩ := dropWhile_append_of_cons hrest more
        rw [htake, hdrop, hname]
        exact if_pos hvalid
      · cases h
    · cases h
  · cases h

/-- Flags that differ in what holds at the ends of lines only. -/
def Flags.SameButLines (f g : Flags) : Prop := g = { f with multiline := g.multiline }

theorem Flags.SameButLines.set? {f g f' : Flags} (h : f.SameButLines g) {letter : Char} {value : Bool}
    (hf : f.set? letter value = some f') :
    ∃ g', g.set? letter value = some g' ∧ f'.SameButLines g' := by
  rw [SameButLines] at h
  unfold Flags.set? at hf ⊢
  split at hf
  all_goals first | cases hf; rw [h]; exact ⟨_, rfl, rfl⟩ | cases hf

/-- Flags are set in the same way whatever holds at the ends of lines. -/
theorem local_readFlags {f g f' : Flags} (h : f.SameButLines g) {seen text rest : List Char}
    {stop : Char} (hread : readFlags f seen text = .ok (f', stop, rest)) :
    rest.length ≤ text.length ∧ ∃ g', f'.SameButLines g' ∧
      ∀ more, readFlags g seen (text ++ more) = .ok (g', stop, rest ++ more) := by
  induction text generalizing f g seen with
  | nil => cases hread
  | cons c text ih =>
    simp only [readFlags, List.cons_append] at hread ⊢
    by_cases hstop : c = ':' ∨ c = ')'
    · rw [if_pos hstop] at hread
      split at hread
      · cases hread
      · rename_i hhyphen
        split at hread
        · cases hread
        · rename_i hnone
          cases hread
          exact ⟨Nat.le_succ _, g, h, fun more => (if_pos hstop).trans
            ((if_neg hhyphen).trans (if_neg hnone))⟩
    · rw [if_neg hstop] at hread
      simp only [if_neg hstop]
      split at hread
      · cases hread
      · rename_i hseen
        simp only [if_neg hseen]
        split at hread
        · rename_i hhyphen
          simp only [if_pos hhyphen]
          obtain ⟨hle, hrest⟩ := ih h hread
          exact ⟨Nat.le_succ_of_le hle, hrest⟩
        · rename_i hhyphen
          simp only [if_neg hhyphen]
          split at hread
          · rename_i f₁ hset
            obtain ⟨g₁, hset', h₁⟩ := h.set? hset
            obtain ⟨hle, hrest⟩ := ih h₁ hread
            rw [hset']
            exact ⟨Nat.le_succ_of_le hle, hrest⟩
          · cases hread

end Highlight.Pattern
