import Highlight.Pattern.Parser
import Highlight.Proofs.Pattern.LocalClass

/-!
# Items of a pattern's text

What an item may do is said once for each kind (`Parser.add_eq_ok`, `Parser.act_openNamed_eq_ok`,
`Parser.act_close_eq_ok`, `Parser.act_repeated_eq_ok`), and what items keep is derived from that.

An item is read in the same way when more stands behind the text, and flags that differ only in what holds
at the ends of lines make no difference but to what holds there (`local_lex`). So they do not change how
groups nest and which flags hold in them (`Parser.scopes`, `Parser.scopes_act`).
-/

namespace Highlight.Pattern

/-! ## What items do -/

/-- The item that a group makes of what was read in it. -/
def OpenGroup.item (g : OpenGroup) (body : Piece) : Piece :=
  .around [body] (g.index.elim body.expr (.group · body.expr))

namespace Parser

variable {p p' : Parser}

theorem add_eq_ok {item : Piece} :
    p.add item = .ok p' ↔
      item.height ≤ nestingLimit ∧ p' = { p with branches := p.branches.add item } := by
  unfold add
  split
  · rename_i hheight
    exact ⟨fun h => ⟨hheight, (Except.ok.inj h).symm⟩, fun h => congrArg Except.ok h.2.symm⟩
  · rename_i hheight
    exact iff_of_false nofun fun h => hheight h.1

/-- The state behind a group, without its item. -/
def leave (p : Parser) (g : OpenGroup) (groups : List OpenGroup) : Parser :=
  { p with branches := g.outer, groups := groups, flags := g.flags }

theorem act_close_eq {g : OpenGroup} {groups : List OpenGroup} (h : p.groups = g :: groups) :
    p.act .close = (p.leave g groups).add (g.item p.branches.piece) := by
  show p.closeGroup = _
  unfold closeGroup
  rw [h]
  cases hindex : g.index <;> simp only [leave, OpenGroup.item, hindex] <;> rfl

theorem act_close_eq_ok :
    p.act .close = .ok p' ↔ ∃ g groups, p.groups = g :: groups ∧
      (p.leave g groups).add (g.item p.branches.piece) = .ok p' := by
  constructor
  · intro h
    cases hgroups : p.groups with
    | nil =>
      change p.closeGroup = .ok p' at h
      rw [closeGroup, hgroups] at h
      cases h
    | cons g groups => exact ⟨g, groups, rfl, act_close_eq hgroups ▸ h⟩
  · rintro ⟨g, groups, hgroups, h⟩
    rw [act_close_eq hgroups, h]

theorem act_openNamed_eq_ok {name : String} :
    p.act (.openNamed name) = .ok p' ↔ (∀ known ∈ p.names, known.1 ≠ name) ∧
      p' = { p.openCapture with names := (name, p.captures + 1) :: p.names } := by
  show p.openNamed name = .ok p' ↔ _
  unfold openNamed
  split
  · rename_i hany
    obtain ⟨known, hmem, heq⟩ := List.any_eq_true.1 hany
    exact iff_of_false nofun fun h => h.1 known hmem (beq_iff_eq.1 heq)
  · rename_i hany
    have hnew : ∀ known ∈ p.names, known.1 ≠ name := fun known hmem heq =>
      hany (List.any_eq_true.2 ⟨known, hmem, beq_iff_eq.2 heq⟩)
    exact ⟨fun h => ⟨hnew, (Except.ok.inj h).symm⟩, fun h => congrArg Except.ok h.2.symm⟩

/-- The state before the last item. -/
def retract (p : Parser) (items : List Piece) : Parser :=
  { p with branches := { p.branches with items := items } }

theorem act_repeated_eq_ok {least : Nat} {most : Option Nat} {greedy : Bool} :
    p.act (.repeated least most greedy) = .ok p' ↔
      p.branches.repeatable = true ∧ ∃ item items, p.branches.items = item :: items ∧
        (p.retract items).add
          (.around [item] (.loopOf least most (greedy != p.flags.swapGreed) item.expr)) = .ok p' := by
  show p.repeatLast least most greedy = .ok p' ↔ _
  obtain ⟨⟨finished, items, repeatable⟩, groups, flags, captures, names⟩ := p
  cases repeatable with
  | false => exact iff_of_false nofun fun h => Bool.noConfusion h.1
  | true =>
    cases items with
    | nil =>
      refine iff_of_false nofun ?_
      rintro ⟨-, item, items, h, -⟩
      cases h
    | cons item items =>
      refine ⟨fun h => ⟨rfl, item, items, rfl, h⟩, ?_⟩
      rintro ⟨-, item', items', heq, h⟩
      obtain ⟨rfl, rfl⟩ := List.cons.inj heq
      exact h

end Parser

/-- A step reads an item and acts on it. -/
theorem Parser.step_eq_ok {properties : Properties} {p p' : Parser} {c : Char} {rest rest' : List Char} :
    p.step properties c rest = .ok (p', rest') ↔
      ∃ t, lex properties p.flags c rest = .ok (t, rest') ∧ p.act t = .ok p' := by
  unfold step
  split
  · rename_i hbrace
    obtain ⟨rfl, hrepeat⟩ := hbrace
    -- A count with nothing to repeat is not acted on either.
    refine iff_of_false (fun h => ?_) ?_
    · cases h
    rintro ⟨t, hlex, hact⟩
    obtain ⟨⟨bounds, rest''⟩, -, ht⟩ := bind_eq_ok.1 hlex
    obtain ⟨greedy, rfl⟩ : ∃ greedy, t = .repeated bounds.1 bounds.2 greedy := by
      have hsign : lexSign bounds.1 bounds.2 (p.flags.skip rest'') = (t, rest') := pure_eq_ok.1 ht
      unfold lexSign at hsign
      split at hsign <;> cases hsign <;> exact ⟨_, rfl⟩
    obtain ⟨hrepeatable, -⟩ := act_repeated_eq_ok.1 hact
    rw [hrepeatable] at hrepeat
    cases hrepeat
  · constructor
    · intro h
      obtain ⟨⟨t, rest''⟩, hlex, h⟩ := bind_eq_ok.1 h
      obtain ⟨p'', hact, h⟩ := bind_eq_ok.1 h
      cases h
      exact ⟨t, hlex, hact⟩
    · rintro ⟨t, hlex, hact⟩
      exact bind_eq_ok.2 ⟨_, hlex, bind_eq_ok.2 ⟨_, hact, rfl⟩⟩

/-! ## Scopes -/

/-- The flags without what holds at the ends of lines. -/
def Flags.unlined (f : Flags) : Flags := { f with multiline := false }

theorem Flags.sameButLines_iff {f g : Flags} : f.SameButLines g ↔ g.unlined = f.unlined := by
  cases f
  cases g
  simp [SameButLines, unlined]

/-- The flags that hold in the current group and in those around it, innermost first. -/
def Parser.scopes (p : Parser) : List Flags :=
  p.flags.unlined :: p.groups.map fun g => g.flags.unlined

/-- What an item does to the flags that hold in groups. -/
def Token.scopes : Token → List Flags → List Flags
  | flags f, scopes => f.unlined :: scopes.tail
  | openPlain f, scopes => f.unlined :: scopes
  | openCapture, scopes | openNamed _, scopes => scopes.head?.toList ++ scopes
  | close, scopes => scopes.tail
  | _, scopes => scopes

namespace Parser

variable {p p' : Parser}

theorem scopes_add {item : Piece} (h : p.add item = .ok p') : p'.scopes = p.scopes := by
  obtain ⟨-, rfl⟩ := add_eq_ok.1 h
  rfl

theorem scopes_act {t : Token} (h : p.act t = .ok p') : p'.scopes = t.scopes p.scopes := by
  cases t with
  | chars | dot | check => exact scopes_add h
  | flags | openPlain | openCapture | bar =>
    cases h
    rfl
  | openNamed name =>
    obtain ⟨-, rfl⟩ := act_openNamed_eq_ok.1 h
    rfl
  | close =>
    obtain ⟨g, groups, hgroups, h⟩ := act_close_eq_ok.1 h
    rw [scopes_add h]
    simp only [leave, scopes, Token.scopes, hgroups, List.map_cons, List.tail_cons]
  | repeated least most greedy =>
    obtain ⟨-, item, items, -, h⟩ := act_repeated_eq_ok.1 h
    exact (scopes_add h).trans rfl

end Parser

/-! ## Reading further on -/

theorem local_lexSign (least : Nat) (most : Option Nat) (text : List Char) :
    (lexSign least most text).2.length ≤ text.length ∧ ∀ more, Closing more →
      lexSign least most (text ++ more) =
        ((lexSign least most text).1, (lexSign least most text).2 ++ more) := by
  unfold lexSign
  split
  · exact ⟨Nat.le_succ _, fun _ _ => rfl⟩
  · rename_i hmark
    refine ⟨Nat.le_refl _, fun more hends => ?_⟩
    split
    · rename_i heq
      exact absurd heq (append_ne_cons (by decide) hends hmark _)
    · rfl

theorem local_lexMarked {f g : Flags} (hfg : f.SameButLines g) {text rest : List Char} {t : Token}
    (h : lexMarked f text = .ok (t, rest)) :
    rest.length ≤ text.length ∧ ∃ t', t'.scopes = t.scopes ∧ ∀ more, Closing more →
      lexMarked g (text ++ more) = .ok (t', rest ++ more) := by
  have hsame : Flags.Alike {} {} := ⟨rfl, rfl⟩
  unfold lexMarked at h
  split at h
  · cases h
  · cases h
  · cases h
  · cases h
  · obtain ⟨name, hname, h⟩ := bind_eq_ok.1 h
    cases h
    obtain ⟨hle, hmore⟩ := local_readName hsame hname
    exact ⟨Nat.le_succ_of_le (Nat.le_succ_of_le hle), _, rfl, fun more hends =>
      bind_eq_ok.2 ⟨_, hmore more hends, rfl⟩⟩
  · rename_i text hequal hmark
    obtain ⟨name, hname, h⟩ := bind_eq_ok.1 h
    cases h
    obtain ⟨hle, hmore⟩ := local_readName hsame hname
    refine ⟨Nat.le_succ_of_le hle, _, rfl, fun more hends => ?_⟩
    have hequal' := append_ne_cons (by decide) hends hequal
    have hmark' := append_ne_cons (by decide) hends hmark
    rw [List.cons_append, lexMarked]
    · exact bind_eq_ok.2 ⟨_, hmore more hends, rfl⟩
    · exact hequal'
    · exact hmark'
  · rename_i hequal hmark _ _ hname hangle
    obtain ⟨⟨f', stop, rest'⟩, hread, h⟩ := bind_eq_ok.1 h
    obtain ⟨hle, g', hg', hmore⟩ := local_readFlags hfg hread
    have hne : text ≠ [] := by
      rintro rfl
      cases hread
    cases h
    refine ⟨hle, if stop = ':' then .openPlain g' else .flags g', ?_, fun more hends => ?_⟩
    · rw [Flags.sameButLines_iff] at hg'
      split <;> funext scopes <;> simp only [Token.scopes, hg']
    · have hangle' := append_ne_cons (by decide) hends hangle
      rw [lexMarked]
      · exact bind_eq_ok.2 ⟨_, hmore more, rfl⟩
      · exact append_ne_cons (by decide) hends hequal
      · exact append_ne_cons (by decide) hends hmark
      · exact fun tail => hangle' _
      · exact fun tail => hangle' _
      · exact append_ne_cons_cons (by decide) hends hne hname
      · exact hangle'

theorem local_lexGroup {f g : Flags} (hfg : f.Alike g) {text rest : List Char} {t : Token}
    (h : lexGroup f text = .ok (t, rest)) :
    rest.length ≤ text.length ∧ ∃ t', t'.scopes = t.scopes ∧ ∀ more, Closing more →
      lexGroup g (text ++ more) = .ok (t', rest ++ more) := by
  unfold lexGroup at h ⊢
  rw [hfg.skip] at h
  simp only [hfg.skip_right]
  split at h
  · obtain ⟨hle, t', ht', hmore⟩ := local_lexMarked hfg.eq h
    exact ⟨Nat.le_succ_of_le hle, t', ht', hmore⟩
  · rename_i hmark
    cases h
    refine ⟨Nat.le_refl _, _, rfl, fun more hends => ?_⟩
    split
    · rename_i heq
      exact absurd heq (append_ne_cons (by decide) hends hmark _)
    · rfl

theorem lexAtom_alike {f g : Flags} (hfg : f.Alike g) (a : Atom) : lexAtom g a = lexAtom f a := by
  cases a with
  | char c => rw [lexAtom, lexAtom, hfg.set, hfg.mark]
  | set | check => rfl

theorem lexDot_alike {f g : Flags} (hfg : f.Alike g) : lexDot g = lexDot f := by
  rw [hfg.eq]
  rfl

theorem local_lex {properties : Properties} {f g : Flags} (hfg : f.Alike g) {c : Char}
    {text rest : List Char} {t : Token} (h : lex properties f c text = .ok (t, rest)) :
    rest.length ≤ text.length ∧ ∃ t', t'.scopes = t.scopes ∧ ∀ more, Closing more →
      lex properties g c (text ++ more) = .ok (t', rest ++ more) := by
  have hsign (least : Nat) (most : Option Nat) {text : List Char}
      (h : lexSign least most text = (t, rest)) : rest.length ≤ text.length ∧
        ∃ t', t'.scopes = t.scopes ∧ ∀ more, Closing more →
          lexSign least most (text ++ more) = (t', rest ++ more) := by
    obtain ⟨hle, hmore⟩ := local_lexSign least most text
    rw [h] at hle hmore
    exact ⟨hle, t, rfl, hmore⟩
  have hone {t₁ : Token} (h : Except.ok (t₁, text) = (.ok (t, rest) : Except SyntaxError _))
      (t₂ : Token) (hscopes : t₂.scopes = t₁.scopes) :
      rest.length ≤ text.length ∧ ∃ t', t'.scopes = t.scopes ∧ ∀ more, Closing more →
        (Except.ok (t₂, text ++ more) : Except SyntaxError _) = .ok (t', rest ++ more) := by
    cases h
    exact ⟨Nat.le_refl _, t₂, hscopes, fun _ _ => rfl⟩
  unfold lex at h ⊢
  split at h
  · exact local_lexGroup hfg h
  · exact hone h .close rfl
  · exact hone h .bar rfl
  · obtain ⟨read, hread, h⟩ := bind_eq_ok.1 h
    obtain ⟨hle, hmore⟩ := local_readClass properties hfg hread
    cases h
    exact ⟨hle, _, rfl, fun more hends => bind_eq_ok.2 ⟨_, hmore more hends, rfl⟩⟩
  · obtain ⟨hle, t', ht', hmore⟩ := hsign 0 (some 1) (Except.ok.inj h)
    exact ⟨hle, t', ht', fun more hends => congrArg Except.ok (hmore more hends)⟩
  · obtain ⟨hle, t', ht', hmore⟩ := hsign 0 none (Except.ok.inj h)
    exact ⟨hle, t', ht', fun more hends => congrArg Except.ok (hmore more hends)⟩
  · obtain ⟨hle, t', ht', hmore⟩ := hsign 1 none (Except.ok.inj h)
    exact ⟨hle, t', ht', fun more hends => congrArg Except.ok (hmore more hends)⟩
  · obtain ⟨⟨bounds, rest'⟩, hread, h⟩ := bind_eq_ok.1 h
    obtain ⟨hle, hmore⟩ := local_readBounds hfg hread
    have h : lexSign bounds.1 bounds.2 (f.skip rest') = (t, rest) := pure_eq_ok.1 h
    rw [hfg.skip] at h
    obtain ⟨hle', t', ht', hmore'⟩ := hsign _ _ h
    refine ⟨Nat.le_trans hle' hle, t', ht', fun more hends => bind_eq_ok.2 ⟨_, hmore more hends, ?_⟩⟩
    refine pure_eq_ok.2 ?_
    rw [hfg.skip_right]
    exact hmore' more hends
  · obtain ⟨read, hread, h⟩ := bind_eq_ok.1 h
    obtain ⟨hle, hmore⟩ := local_readEscape properties hfg hread
    cases h
    refine ⟨hle, _, rfl, fun more hends => bind_eq_ok.2 ⟨_, hmore more hends, ?_⟩⟩
    exact pure_eq_ok.2 (by rw [lexAtom_alike hfg])
  · obtain ⟨t₁, hdot, h⟩ := bind_eq_ok.1 h
    cases h
    exact ⟨Nat.le_refl _, _, rfl, fun _ _ => bind_eq_ok.2 ⟨_, (lexDot_alike hfg).trans hdot, rfl⟩⟩
  · exact hone h (.check _) rfl
  · exact hone h (.check _) rfl
  · exact hone h (lexAtom g (.char _)) (congrArg Token.scopes (lexAtom_alike hfg _))

end Highlight.Pattern
