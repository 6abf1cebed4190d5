import Highlight.Proofs.Pattern.Surroundings
import Highlight.Proofs.Pattern.Tokens

/-!
# The same text in a group

A text that is a pattern by itself is read in the same way in a group of a larger pattern, unless blanks
and comments count there: then a comment at its end would go on behind the group. So the text must be plain
(`Parser.staysPlain`). Three readers take its items in step (`Parser.run_within`): the one that reads the
text by itself, the one that reads it in the group, where `^` and `$` may hold at the ends of lines, and the
one that reads it with such flags before it.
-/

namespace Highlight.Pattern

theorem Flags.skip_nil (f : Flags) : f.skip [] = [] := by
  unfold skip
  split <;> rfl

namespace Parser

/-- Whether no blanks or comments are left out on the way through a text. -/
def staysPlain (properties : Properties) : Nat → Parser → List Char → Bool
  | 0, p, _ => !p.flags.verbose
  | limit + 1, p, text =>
    !p.flags.verbose &&
      match text with
      | [] => true
      | c :: rest =>
        match p.step properties c rest with
        | .ok (p, rest) => staysPlain properties limit p rest
        | .error _ => true

section Run

variable {properties : Properties} {p p' : Parser} {limit : Nat}

theorem verbose_of_staysPlain {text : List Char} (h : p.staysPlain properties limit text) :
    p.flags.verbose = false := by
  cases limit with
  | zero => exact Bool.not_eq_eq_eq_not.1 h
  | succ limit => exact Bool.not_eq_eq_eq_not.1 (Bool.and_eq_true_iff.1 h).1

theorem staysPlain_step {c : Char} {text rest : List Char} (h : p.staysPlain properties (limit + 1) (c :: text))
    (hstep : p.step properties c text = .ok (p', rest)) : p'.staysPlain properties limit rest := by
  have hrest := (Bool.and_eq_true_iff.1 h).2
  simpa only [hstep] using hrest

theorem run_nil : run properties limit p [] = .ok p := by
  cases limit with
  | zero => rfl
  | succ limit =>
    rw [run, Flags.skip_nil]

theorem run_cons_eq_ok {c : Char} {text : List Char} (hverbose : p.flags.verbose = false) :
    run properties (limit + 1) p (c :: text) = .ok p' ↔
      ∃ q rest, p.step properties c text = .ok (q, rest) ∧ run properties limit q rest = .ok p' := by
  have hskip : p.flags.skip (c :: text) = c :: text := by
    rw [Flags.skip, hverbose]
    rfl
  rw [run, hskip]
  constructor
  · intro h
    obtain ⟨⟨q, rest⟩, hstep, hrun⟩ := bind_eq_ok.1 h
    exact ⟨q, rest, hstep, hrun⟩
  · rintro ⟨q, rest, hstep, hrun⟩
    exact bind_eq_ok.2 ⟨(q, rest), hstep, hrun⟩

end Run

/-- The flags that two readers at the same place of a text hold differ in what holds at the ends of lines
only. -/
theorem alike_of_scopes {p q : Parser} (hscopes : q.scopes = p.scopes)
    (hverbose : p.flags.verbose = false) : p.flags.Alike q.flags :=
  ⟨hverbose, Flags.sameButLines_iff.2 (List.cons.inj hscopes).1⟩

/-- A group that ends is one that was open by itself. -/
theorem groups_ne_nil_of_close {p p' q : Parser} (hscopes : q.scopes = p.scopes)
    (h : p'.scopes = Token.scopes .close p.scopes) : q.groups ≠ [] := by
  intro hgroups
  have hnone : p'.scopes = [] := by
    rw [h, ← hscopes, scopes, hgroups]
    rfl
  cases hnone

/-- An item of a text read by itself, in a group, and with something before it. -/
theorem step_within {properties : Properties} {k : Nat} {outer : List OpenGroup} {names : List (String × Nat)}
    {alone alone' i o q : Parser} {c : Char} {text rest more : List Char}
    (hstep : alone.step properties c text = .ok (alone', rest)) (hverbose : alone.flags.verbose = false)
    (hscopes : i.scopes = alone.scopes) (hsimplified : i.Simplified) (hleads : i.Leads o)
    (hmore : Closing more) {rest' : List Char}
    (hwithin : (i.within k outer names).step properties c (text ++ more) = .ok (q, rest')) :
    rest.length ≤ text.length ∧ rest' = rest ++ more ∧ ∃ i' o' : Parser, q = i'.within k outer names ∧
      i'.scopes = alone'.scopes ∧ i'.Simplified ∧ o.step properties c text = .ok (o', rest) ∧ i'.Leads o' := by
  obtain ⟨t, hlex, hact⟩ := step_eq_ok.1 hstep
  obtain ⟨hle, t', ht', hlexed⟩ := local_lex (alike_of_scopes hscopes hverbose) hlex
  have hscopes' : alone'.scopes = t'.scopes i.scopes := by
    rw [scopes_act hact, ht', hscopes]
  obtain ⟨s, hlex', hact'⟩ := step_eq_ok.1 hwithin
  obtain ⟨rfl, rfl⟩ : t' = s ∧ rest ++ more = rest' :=
    Prod.mk.inj (Except.ok.inj ((hlexed more hmore).symm.trans hlex'))
  obtain ⟨i', hi', rfl⟩ := act_within hact' fun hclose =>
    groups_ne_nil_of_close rfl (hclose ▸ hscopes')
  obtain ⟨o', ho', hleads'⟩ := hleads.act hsimplified hi'
  have hown : lex properties o.flags c text = .ok (t', rest) := by
    have := hlexed [] (by nofun)
    rwa [List.append_nil, List.append_nil, ← hleads.flags] at this
  exact ⟨hle, rfl, i', o', rfl, (scopes_act hi').trans hscopes'.symm, hsimplified.act hi',
    step_eq_ok.2 ⟨t', hown, ho'⟩, hleads'⟩

/-- A text read by itself, in a group, and with something before it. -/
theorem run_within {properties : Properties} {k : Nat} {outer : List OpenGroup}
    {names : List (String × Nat)} {more : List Char}
    (hmore : Closing more) {q : Parser} {limit : Nat} :
    ∀ {alone alone' i o : Parser} {text : List Char} {m : Nat}, run properties limit alone text = .ok alone' →
      alone.staysPlain properties limit text → text.length ≤ limit →
      i.scopes = alone.scopes → i.Simplified → i.Leads o →
      (text ++ more).length ≤ m → run properties m (i.within k outer names) (text ++ more) = .ok q →
      ∃ (i' o' : Parser) (m' : Nat), i'.scopes = alone'.scopes ∧ i'.flags.verbose = false ∧
        i'.Simplified ∧ i'.Leads o' ∧ (∀ n, text.length ≤ n → run properties n o text = .ok o') ∧
        more.length ≤ m' ∧ run properties m' (i'.within k outer names) more = .ok q := by
  -- Induction on the items that the text read by itself may still have.
  induction limit with
  | zero =>
    intro alone alone' i o text m halone hplain hlimit hscopes hsimplified hleads hm hwithin
    have hi := (alike_of_scopes hscopes (verbose_of_staysPlain hplain)).verbose_right
    cases List.length_eq_zero_iff.1 (Nat.le_zero.1 hlimit)
    cases halone
    exact ⟨i, o, m, hscopes, hi, hsimplified, hleads, fun _ _ => run_nil, hm, hwithin⟩
  | succ limit ih =>
    intro alone alone' i o text m halone hplain hlimit hscopes hsimplified hleads hm hwithin
    have hverbose := verbose_of_staysPlain hplain
    have hi := (alike_of_scopes hscopes hverbose).verbose_right
    cases text with
    | nil =>
      cases run_nil.symm.trans halone
      exact ⟨i, o, m, hscopes, hi, hsimplified, hleads, fun _ _ => run_nil, hm, hwithin⟩
    | cons c text =>
      have ho : o.flags.verbose = false := hleads.flags ▸ hi
      obtain ⟨m, rfl⟩ := Nat.exists_eq_succ_of_ne_zero (Nat.ne_zero_of_lt hm)
      obtain ⟨alone₁, rest, hstep, halone⟩ := (run_cons_eq_ok hverbose).1 halone
      obtain ⟨q₁, rest', hstep', hwithin⟩ := (run_cons_eq_ok (p := i.within k outer names) hi).1 hwithin
      obtain ⟨hle, rfl, i₁, o₁, rfl, hscopes₁, hsimplified₁, hown, hleads₁⟩ :=
        step_within hstep hverbose hscopes hsimplified hleads hmore hstep'
      have hlimit' : rest.length ≤ limit := Nat.le_trans hle (Nat.le_of_succ_le_succ hlimit)
      have hm' : (rest ++ more).length ≤ m := by
        simp only [List.cons_append, List.length_cons, List.length_append] at hm ⊢
        omega
      obtain ⟨i', o', m', hscopes', hi', hsimplified', hleads', hrun, hrest⟩ :=
        ih halone (staysPlain_step hplain hstep) hlimit' hscopes₁ hsimplified₁ hleads₁ hm' hwithin
      refine ⟨i', o', m', hscopes', hi', hsimplified', hleads', fun n hn => ?_, hrest⟩
      obtain ⟨n, rfl⟩ := Nat.exists_eq_succ_of_ne_zero (Nat.ne_zero_of_lt hn)
      exact (run_cons_eq_ok ho).2 ⟨o₁, rest, hown, hrun n (Nat.le_trans hle (Nat.le_of_succ_le_succ hn))⟩

end Parser

/-- Whether no blanks or comments are left out anywhere in a pattern's text. -/
def readsPlainly (properties : Properties) (source : String) : Bool :=
  Parser.initial.staysPlain properties source.toList.length source.toList

end Highlight.Pattern
