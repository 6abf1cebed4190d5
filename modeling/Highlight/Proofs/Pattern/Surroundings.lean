import Highlight.Proofs.Pattern.Simplified
import Highlight.Proofs.Pattern.Tokens

/-!
# What a pattern is read in

The same items make the same expression wherever they are read. In a group of a larger pattern the parser
goes through the same states as by itself but for the groups around, the names known before and the
numbers of groups (`Parser.within`, `Parser.act_within`). And where nothing stands before the first item,
such as flags, the expression is the same without it (`Parser.Leads`, `Parser.act_leads`), since all
expressions are kept simplified (`Parser.Simplified`).
-/

namespace Highlight.Pattern

/-! ## Other numbers of groups -/

/-- The piece with `k` added to the numbers of its groups. -/
def Piece.renumber (k : Nat) (p : Piece) : Piece := { p with expr := p.expr.renumber k }

/-- The alternatives with `k` added to the numbers of their groups. -/
def Branches.renumber (k : Nat) (b : Branches) : Branches where
  finished := b.finished.map (.renumber k)
  items := b.items.map (.renumber k)
  repeatable := b.repeatable

/-- The open group with `k` added to the numbers of groups. -/
def OpenGroup.renumber (k : Nat) (g : OpenGroup) : OpenGroup where
  index := g.index.map (· + k)
  flags := g.flags
  outer := g.outer.renumber k

section Renumber

variable (k : Nat)

theorem Piece.renumber_around (pieces : List Piece) (e : Expr) :
    (around pieces e).renumber k = around (pieces.map (renumber k)) (e.renumber k) := by
  simp only [around, renumber, List.foldl_map]

theorem Piece.map_expr_renumber (pieces : List Piece) :
    (pieces.map (renumber k)).map (·.expr) = (pieces.map (·.expr)).map (Expr.renumber k) := by
  simp only [List.map_map]
  rfl

theorem Piece.renumber_sequence (pieces : List Piece) :
    (sequence pieces).renumber k = sequence (pieces.map (renumber k)) := by
  match pieces with
  | [] => rfl
  | [p] => rfl
  | p :: p' :: pieces =>
    show (around _ _).renumber k = around _ _
    rw [renumber_around, Expr.renumber_seqOf, ← map_expr_renumber]
    rfl

theorem Piece.renumber_choice (pieces : List Piece) :
    (choice pieces).renumber k = choice (pieces.map (renumber k)) := by
  match pieces with
  | [] =>
    show (around _ _).renumber k = around _ _
    rw [renumber_around, Expr.renumber_altOf, ← map_expr_renumber]
  | [p] => rfl
  | p :: p' :: pieces =>
    show (around _ _).renumber k = around _ _
    rw [renumber_around, Expr.renumber_altOf, ← map_expr_renumber]
    rfl

theorem Piece.renumber_loop {least : Nat} {most : Option Nat} (item : Piece) (greedy : Bool) :
    (around [item] (.loopOf least most greedy item.expr)).renumber k =
      around [item.renumber k] (.loopOf least most greedy (item.renumber k).expr) := by
  rw [renumber_around, Expr.renumber_loopOf]
  rfl

theorem OpenGroup.renumber_item (g : OpenGroup) (body : Piece) :
    (g.renumber k).item (body.renumber k) = (g.item body).renumber k := by
  rw [item, item, Piece.renumber_around]
  obtain ⟨index, flags, outer⟩ := g
  cases index <;> rfl

theorem Branches.renumber_next (b : Branches) : b.next.renumber k = (b.renumber k).next := by
  simp only [next, renumber, List.map_cons, List.map_nil, Piece.renumber_sequence, List.map_reverse]

theorem Branches.renumber_piece (b : Branches) : b.piece.renumber k = (b.renumber k).piece := by
  rw [piece, piece, Piece.renumber_choice, ← renumber_next, List.map_reverse]
  rfl

end Renumber

namespace Parser

/-- The state in which the same items have been read inside some groups, where `k` groups had begun and
some names were known before. -/
def within (k : Nat) (outer : List OpenGroup) (names : List (String × Nat)) (p : Parser) : Parser where
  branches := p.branches.renumber k
  groups := p.groups.map (.renumber k) ++ outer
  flags := p.flags
  captures := p.captures + k
  names := p.names.map (fun name => (name.1, name.2 + k)) ++ names

variable {k : Nat} {outer : List OpenGroup} {names : List (String × Nat)} {p q : Parser}

theorem exists_add_within {item item' : Piece} (hitem : item' = item.renumber k)
    (h : (p.within k outer names).add item' = .ok q) :
    ∃ p', p.add item = .ok p' ∧ q = p'.within k outer names := by
  subst hitem
  obtain ⟨hheight, rfl⟩ := add_eq_ok.1 h
  exact ⟨_, add_eq_ok.2 ⟨hheight, rfl⟩, rfl⟩

theorem openCapture_within :
    (p.within k outer names).openCapture = p.openCapture.within k outer names := by
  simp only [openCapture, openGroup, within, List.map_cons, List.cons_append, OpenGroup.renumber,
    Option.map_some, Nat.add_right_comm p.captures k 1]
  rfl

/-- An item does the same inside other groups, as long as it does not end one of them. -/
theorem act_within {t : Token} (h : (p.within k outer names).act t = .ok q)
    (hclose : t = .close → p.groups ≠ []) :
    ∃ p', p.act t = .ok p' ∧ q = p'.within k outer names := by
  cases t with
  | chars s height => exact exists_add_within (congrArg (Piece.mk · height) (Expr.renumber_ofSet k s).symm) h
  | dot s => exact exists_add_within rfl h
  | check condition => exact exists_add_within rfl h
  | flags f =>
    cases h
    exact ⟨_, rfl, rfl⟩
  | openPlain f =>
    cases h
    exact ⟨_, rfl, rfl⟩
  | openCapture =>
    cases h
    exact ⟨_, rfl, openCapture_within⟩
  | openNamed name =>
    obtain ⟨hnew, rfl⟩ := act_openNamed_eq_ok.1 h
    have hnew' : ∀ known ∈ p.names, known.1 ≠ name := fun known hmem =>
      hnew (known.1, known.2 + k)
        (List.mem_append_left _ (List.mem_map_of_mem (f := fun x => (x.1, x.2 + k)) hmem))
    refine ⟨_, act_openNamed_eq_ok.2 ⟨hnew', rfl⟩, ?_⟩
    rw [openCapture_within]
    simp only [within, List.map_cons, List.cons_append, Nat.add_right_comm p.captures k 1]
  | close =>
    obtain ⟨g, groups, hgroups⟩ := List.exists_cons_of_ne_nil (hclose rfl)
    have hgroups' : (p.within k outer names).groups =
        g.renumber k :: (groups.map (.renumber k) ++ outer) := by
      rw [within, hgroups]
      rfl
    have hbody : (p.within k outer names).branches.piece = p.branches.piece.renumber k :=
      (Branches.renumber_piece k p.branches).symm
    rw [act_close_eq hgroups', hbody] at h
    rw [act_close_eq hgroups]
    exact exists_add_within (OpenGroup.renumber_item k g _) h
  | bar =>
    cases h
    refine ⟨_, rfl, ?_⟩
    simp only [within, Branches.renumber_next]
  | repeated least most greedy =>
    obtain ⟨hrepeatable, item', items', hitems', h⟩ := act_repeated_eq_ok.1 h
    obtain ⟨item, items, hitems, rfl, rfl⟩ := List.map_eq_cons_iff.1 hitems'
    obtain ⟨p', hp', hq⟩ :=
      exists_add_within (p := p.retract items) (Piece.renumber_loop k item (greedy != _)).symm h
    exact ⟨p', act_repeated_eq_ok.2 ⟨hrepeatable, item, items, hitems, hp'⟩, hq⟩

end Parser

/-! ## Simplified pieces -/

/-- All expressions are simplified. -/
structure Branches.Simplified (b : Branches) : Prop where
  finished : ∀ p ∈ b.finished, p.expr.Simplified
  items : ∀ p ∈ b.items, p.expr.Simplified

namespace Branches.Simplified

theorem empty : Branches.empty.Simplified := ⟨nofun, nofun⟩

variable {b : Branches} (h : b.Simplified)

include h

theorem add {p : Piece} (hp : p.expr.Simplified) : (b.add p).Simplified :=
  ⟨h.finished, List.forall_mem_cons.2 ⟨hp, h.items⟩⟩

theorem addNothing : b.addNothing.Simplified :=
  ⟨h.finished, List.forall_mem_cons.2 ⟨trivial, h.items⟩⟩

theorem next : b.next.Simplified :=
  ⟨List.forall_mem_cons.2 ⟨Piece.simplified_sequence fun p hp => h.items p (List.mem_reverse.1 hp),
    h.finished⟩, nofun⟩

theorem piece : b.piece.expr.Simplified :=
  Piece.simplified_choice fun p hp => h.next.finished p (List.mem_reverse.1 hp)

end Branches.Simplified

/-- All expressions are simplified, in the current group and in those around it. -/
structure Parser.Simplified (p : Parser) : Prop where
  branches : p.branches.Simplified
  outer : ∀ g ∈ p.groups, g.outer.Simplified

theorem Parser.simplified_add {p p' : Parser} {item : Piece} (hp : p.Simplified)
    (hitem : item.expr.Simplified) (h : p.add item = .ok p') : p'.Simplified := by
  obtain ⟨-, rfl⟩ := add_eq_ok.1 h
  exact ⟨hp.branches.add hitem, hp.outer⟩

theorem OpenGroup.simplified_item {body : Piece} (h : body.expr.Simplified) (g : OpenGroup) :
    (g.item body).expr.Simplified := by
  obtain ⟨index, flags, outer⟩ := g
  cases index with
  | none => exact h
  | some index => trivial

theorem Parser.Simplified.act {p p' : Parser} {t : Token} (hp : p.Simplified) (h : p.act t = .ok p') :
    p'.Simplified := by
  cases t with
  | chars s height => exact simplified_add hp (Expr.simplified_ofSet s) h
  | dot s => exact simplified_add hp (show (Expr.one s).Simplified from trivial) h
  | check condition => exact simplified_add hp (show (Expr.check condition).Simplified from trivial) h
  | flags f =>
    cases h
    exact ⟨hp.branches.addNothing, hp.outer⟩
  | openPlain | openCapture =>
    cases h
    exact ⟨.empty, List.forall_mem_cons.2 ⟨hp.branches, hp.outer⟩⟩
  | openNamed name =>
    obtain ⟨-, rfl⟩ := act_openNamed_eq_ok.1 h
    exact ⟨.empty, List.forall_mem_cons.2 ⟨hp.branches, hp.outer⟩⟩
  | close =>
    obtain ⟨g, groups, hgroups, h⟩ := act_close_eq_ok.1 h
    obtain ⟨hg, hothers⟩ := List.forall_mem_cons.1 (hgroups ▸ hp.outer)
    exact simplified_add ⟨hg, hothers⟩ (g.simplified_item hp.branches.piece) h
  | bar =>
    cases h
    exact ⟨hp.branches.next, hp.outer⟩
  | repeated least most greedy =>
    obtain ⟨-, item, items, hitems, h⟩ := act_repeated_eq_ok.1 h
    obtain ⟨hitem, hothers⟩ := List.forall_mem_cons.1 (hitems ▸ hp.branches.items)
    have hretract : (p.retract items).Simplified := ⟨⟨hp.branches.finished, hothers⟩, hp.outer⟩
    exact simplified_add hretract (hitem.loopOf ..) h

/-! ## Nothing before the first item -/

/-- The same alternatives with nothing before the first item of the first one. -/
inductive Branches.Leads : Branches → Branches → Prop where
  | first (items : List Piece) (repeatable : Bool) :
    Leads ⟨[], items, repeatable⟩ ⟨[], items ++ [.flat .empty], repeatable⟩
  | later (finished : List Piece) {first first' : Piece} (hexpr : first'.expr = first.expr)
      (hheight : first'.height ≤ first.height + 1) (items : List Piece) (repeatable : Bool) :
    Leads ⟨finished ++ [first], items, repeatable⟩ ⟨finished ++ [first'], items, repeatable⟩

theorem Piece.expr_choice_cons {p p' : Piece} (h : p'.expr = p.expr) (pieces : List Piece) :
    (choice (p' :: pieces)).expr = (choice (p :: pieces)).expr := by
  cases pieces with
  | nil => exact h
  | cons q pieces =>
    show Expr.altOf (p'.expr :: _) = Expr.altOf (p.expr :: _)
    rw [h]

theorem foldl_height_le {m n : Nat} (h : m ≤ n + 1) (pieces : List Piece) :
    pieces.foldl (fun height p => max height p.height) m ≤
      pieces.foldl (fun height p => max height p.height) n + 1 := by
  induction pieces generalizing m n with
  | nil => exact h
  | cons p pieces ih =>
    refine ih ?_
    show max m p.height ≤ max n p.height + 1
    omega

theorem Piece.height_choice_cons {p p' : Piece} (h : p'.height ≤ p.height + 1) (pieces : List Piece) :
    (choice (p' :: pieces)).height ≤ (choice (p :: pieces)).height + 1 := by
  cases pieces with
  | nil => exact h
  | cons q pieces =>
    refine Nat.succ_le_succ (foldl_height_le ?_ (q :: pieces))
    show max 0 p'.height ≤ max 0 p.height + 1
    omega

namespace Branches.Leads

variable {b b' : Branches} (h : b.Leads b')

include h

theorem add (p : Piece) : (b.add p).Leads (b'.add p) := by
  cases h with
  | first items => exact .first (p :: items) true
  | later finished hexpr hheight items => exact .later finished hexpr hheight (p :: items) true

theorem addNothing : b.addNothing.Leads b'.addNothing := by
  cases h with
  | first items => exact .first (.flat .empty :: items) false
  | later finished hexpr hheight items =>
    exact .later finished hexpr hheight (.flat .empty :: items) false

theorem next (hb : b.Simplified) : b.next.Leads b'.next := by
  cases h with
  | first items =>
    have hsimplified : ∀ p ∈ items.reverse, p.expr.Simplified := fun p hp =>
      hb.items p (List.mem_reverse.1 hp)
    have hreverse : (items ++ [Piece.flat .empty]).reverse = .flat .empty :: items.reverse :=
      List.reverse_concat
    simp only [Branches.next, hreverse]
    exact .later [] (Piece.expr_sequence_cons hsimplified) (Piece.height_sequence_cons _) [] false
  | later finished hexpr hheight items =>
    exact .later (.sequence items.reverse :: finished) hexpr hheight [] false

/-- Nothing before the first item does not change the expression, and adds a level at most. -/
theorem piece (hb : b.Simplified) :
    b'.piece.expr = b.piece.expr ∧ b'.piece.height ≤ b.piece.height + 1 := by
  have hnext := h.next hb
  unfold Branches.piece
  generalize b.next = n, b'.next = n' at hnext
  cases hnext with
  | first => exact ⟨rfl, Nat.le_succ _⟩
  | later finished hexpr hheight items =>
    simp only [List.reverse_append, List.reverse_cons, List.reverse_nil, List.nil_append,
      List.singleton_append]
    exact ⟨Piece.expr_choice_cons hexpr _, Piece.height_choice_cons hheight _⟩

end Branches.Leads

/-- The same open groups with nothing before the first item of the outermost alternatives. -/
inductive GroupsLead : Branches → List OpenGroup → Branches → List OpenGroup → Prop where
  | outermost {b b' : Branches} (h : b.Leads b') : GroupsLead b [] b' []
  | inner (b : Branches) {index : Option Nat} {flags : Flags} {outer outer' : Branches}
      {groups groups' : List OpenGroup} (h : GroupsLead outer groups outer' groups') :
    GroupsLead b (⟨index, flags, outer⟩ :: groups) b (⟨index, flags, outer'⟩ :: groups')

/-- The state in which the same items have been read and nothing before the first of them. -/
structure Parser.Leads (p p' : Parser) : Prop where
  groups : GroupsLead p.branches p.groups p'.branches p'.groups
  flags : p'.flags = p.flags
  captures : p'.captures = p.captures
  names : p'.names = p.names

namespace GroupsLead

variable {b b' : Branches} {groups groups' : List OpenGroup} (h : GroupsLead b groups b' groups')

include h

/-- What is done in the current group keeps the correspondence if it does so among the outermost
alternatives. -/
theorem map {c c' : Branches} (hleads : b.Leads b' → c.Leads c') (hsame : b' = b → c' = c) :
    GroupsLead c groups c' groups' := by
  cases h with
  | outermost h => exact .outermost (hleads h)
  | inner b h => exact hsame rfl ▸ .inner c h

theorem repeatable : b'.repeatable = b.repeatable := by
  cases h with
  | outermost h => cases h <;> rfl
  | inner => rfl

end GroupsLead

namespace Parser.Leads

variable {p o p' : Parser} (h : p.Leads o)

include h

theorem add {item : Piece} (hp : p.add item = .ok p') : ∃ o', o.add item = .ok o' ∧ p'.Leads o' := by
  obtain ⟨hheight, rfl⟩ := add_eq_ok.1 hp
  refine ⟨_, add_eq_ok.2 ⟨hheight, rfl⟩, h.groups.map (·.add item) fun hsame => ?_, h.flags,
    h.captures, h.names⟩
  show o.branches.add item = p.branches.add item
  rw [hsame]

theorem openCapture : p.openCapture.Leads o.openCapture := by
  refine ⟨?_, h.flags, congrArg (· + 1) h.captures, h.names⟩
  simp only [Parser.openCapture, openGroup, h.flags, h.captures]
  exact .inner .empty h.groups

theorem exists_cons {g : OpenGroup} {groups : List OpenGroup} (hgroups : p.groups = g :: groups) :
    ∃ g' groups', o.groups = g' :: groups' ∧ o.branches = p.branches ∧ g'.index = g.index ∧
      g'.flags = g.flags ∧ GroupsLead g.outer groups g'.outer groups' := by
  have hlead := h.groups
  rw [hgroups] at hlead
  generalize o.branches = b', o.groups = others at hlead
  cases hlead with
  | inner _ houter => exact ⟨_, _, rfl, rfl, rfl, rfl, houter⟩

/-- The last item is the same. -/
theorem exists_retract {item : Piece} {items : List Piece} (hitems : p.branches.items = item :: items) :
    ∃ items', o.branches.items = item :: items' ∧ (p.retract items).Leads (o.retract items') := by
  obtain ⟨b, groups, flags, captures, names⟩ := p
  obtain ⟨b', groups', flags', captures', names'⟩ := o
  obtain ⟨hlead, hflags, hcaptures, hnames⟩ := h
  cases hlead with
  | outermost hb =>
    cases hb with
    | first items' repeatable =>
      cases hitems
      exact ⟨_, rfl, .outermost (.first items repeatable), hflags, hcaptures, hnames⟩
    | later finished hexpr hheight items' repeatable =>
      cases hitems
      exact ⟨_, rfl, .outermost (.later finished hexpr hheight items repeatable), hflags, hcaptures,
        hnames⟩
  | inner b hgroups => exact ⟨_, hitems, .inner _ hgroups, hflags, hcaptures, hnames⟩

/-- Outside all groups the whole expression is the same. -/
theorem piece (hsimplified : p.Simplified) (hgroups : p.groups = []) :
    o.groups = [] ∧ o.branches.piece.expr = p.branches.piece.expr ∧
      o.branches.piece.height ≤ p.branches.piece.height + 1 := by
  have hlead := h.groups
  rw [hgroups] at hlead
  generalize o.branches = b', o.groups = others at hlead
  cases hlead with
  | outermost hb => exact ⟨rfl, hb.piece hsimplified.branches⟩

/-- An item does the same where nothing stands before the first one. -/
theorem act {t : Token} (hsimplified : p.Simplified) (hp : p.act t = .ok p') :
    ∃ o', o.act t = .ok o' ∧ p'.Leads o' := by
  cases t with
  | chars | dot | check => exact h.add hp
  | flags f =>
    cases hp
    refine ⟨_, rfl, ⟨h.groups.map (·.addNothing) fun hsame => ?_, rfl, h.captures, h.names⟩⟩
    show o.branches.addNothing = p.branches.addNothing
    rw [hsame]
  | openPlain f =>
    cases hp
    refine ⟨_, rfl, ⟨?_, rfl, h.captures, h.names⟩⟩
    simp only [openGroup, h.flags]
    exact .inner .empty h.groups
  | openCapture =>
    cases hp
    exact ⟨_, rfl, h.openCapture⟩
  | openNamed name =>
    obtain ⟨hnew, rfl⟩ := act_openNamed_eq_ok.1 hp
    refine ⟨_, act_openNamed_eq_ok.2 ⟨h.names ▸ hnew, rfl⟩, h.openCapture.groups,
      h.openCapture.flags, h.openCapture.captures, ?_⟩
    rw [h.names, h.captures]
  | close =>
    obtain ⟨g, groups, hgroups, hp⟩ := act_close_eq_ok.1 hp
    obtain ⟨g', groups', hgroups', hbranches, hindex, hflags, houter⟩ := h.exists_cons hgroups
    have hleave : (p.leave g groups).Leads (o.leave g' groups') :=
      ⟨houter, hflags, h.captures, h.names⟩
    have hitem : g'.item o.branches.piece = g.item p.branches.piece := by
      rw [OpenGroup.item, OpenGroup.item, hindex, hbranches]
    rw [act_close_eq hgroups', hitem]
    exact hleave.add hp
  | bar =>
    cases hp
    refine ⟨_, rfl, ⟨h.groups.map (·.next hsimplified.branches) fun hsame => ?_, h.flags, h.captures,
      h.names⟩⟩
    show o.branches.next = p.branches.next
    rw [hsame]
  | repeated least most greedy =>
    obtain ⟨hrepeatable, item, items, hitems, hp⟩ := act_repeated_eq_ok.1 hp
    obtain ⟨items', hitems', hretract⟩ := h.exists_retract hitems
    obtain ⟨o', ho', hleads⟩ := hretract.add hp
    refine ⟨o', act_repeated_eq_ok.2 ⟨h.groups.repeatable.trans hrepeatable, item, items', hitems', ?_⟩,
      hleads⟩
    rw [h.flags]
    exact ho'

end Parser.Leads

end Highlight.Pattern
