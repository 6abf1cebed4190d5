import Highlight.Proofs.Pattern.Alternatives
import Highlight.Proofs.Pattern.Lockstep

/-!
# A text in a named group

A pattern is read between the parentheses of a named group as it is read behind `(?m)`, provided that it
is plain (`Parser.run_group`). The group is numbered next, and its name is known from there on: names are
only added, and each one once (`Parser.names_run`).
-/

namespace Highlight.Pattern

namespace Parser

variable {properties : Properties}

/-! ## Names -/

theorem names_add {p p' : Parser} {item : Piece} (h : p.add item = .ok p') : p'.names = p.names := by
  obtain ⟨-, rfl⟩ := add_eq_ok.1 h
  rfl

theorem names_act {p p' : Parser} {t : Token} (h : p.act t = .ok p') :
    p'.names = p.names ∨
      ∃ name n, (∀ x ∈ p.names, x.1 ≠ name) ∧ p'.names = (name, n) :: p.names := by
  cases t with
  | chars | dot | check => exact .inl (names_add h)
  | flags | openPlain | openCapture | bar =>
    cases h
    exact .inl rfl
  | openNamed name =>
    obtain ⟨hnew, rfl⟩ := act_openNamed_eq_ok.1 h
    exact .inr ⟨name, p.captures + 1, hnew, rfl⟩
  | close =>
    obtain ⟨g, groups, -, h⟩ := act_close_eq_ok.1 h
    exact .inl ((names_add h).trans rfl)
  | repeated least most greedy =>
    obtain ⟨-, item, items, -, h⟩ := act_repeated_eq_ok.1 h
    exact .inl ((names_add h).trans rfl)

/-- Names are only added, and each one once. -/
theorem names_run {limit : Nat} :
    ∀ {p p' : Parser} {text : List Char}, run properties limit p text = .ok p' →
      p.names ⊆ p'.names ∧ ((p.names.map (·.1)).Nodup → (p'.names.map (·.1)).Nodup) := by
  induction limit with
  | zero =>
    intro p p' text h
    cases h
    exact ⟨List.Subset.refl _, id⟩
  | succ limit ih =>
    intro p p' text h
    rw [run] at h
    split at h
    · cases h
      exact ⟨List.Subset.refl _, id⟩
    · obtain ⟨⟨q, rest⟩, hstep, hrun⟩ := bind_eq_ok.1 h
      obtain ⟨t, -, hact⟩ := step_eq_ok.1 hstep
      obtain ⟨hsubset, honce⟩ := ih hrun
      obtain hsame | ⟨name, n, hnew, hadded⟩ := names_act hact
      · rw [hsame] at hsubset honce
        exact ⟨hsubset, honce⟩
      · rw [hadded] at hsubset honce
        refine ⟨(List.cons_subset.1 hsubset).2, fun hnames => honce (List.nodup_cons.2 ⟨?_, hnames⟩)⟩
        intro hmem
        obtain ⟨x, hx, hname⟩ := List.mem_map.1 hmem
        exact hnew x hx hname

/-! ## Behind flags -/

theorem finish_eq_ok {p : Parser} {source : String} {whole : Pattern} :
    p.finish source = .ok whole ↔
      p.groups = [] ∧ p.branches.piece.height ≤ nestingLimit ∧
        p.branches.piece.expr.footprint ≤ footprintLimit ∧
        whole = ⟨source, p.branches.piece.expr, p.names.reverse⟩ := by
  have hgroups : (!p.groups.isEmpty) = true ↔ ¬ p.groups = [] := by
    rw [Bool.not_eq_true', ← Bool.not_eq_true, List.isEmpty_iff]
  rw [finish]
  by_cases hopen : p.groups = []
  · rw [if_neg fun h => hgroups.1 h hopen]
    by_cases hheight : p.branches.piece.height ≤ nestingLimit
    · rw [if_neg (Nat.not_lt.2 hheight)]
      by_cases hsize : p.branches.piece.expr.footprint ≤ footprintLimit
      · rw [if_neg (Nat.not_lt.2 hsize)]
        exact ⟨fun h => ⟨hopen, hheight, hsize, (Except.ok.inj h).symm⟩, fun h => h.2.2.2 ▸ rfl⟩
      · rw [if_pos (Nat.lt_of_not_le hsize)]
        exact iff_of_false nofun fun h => hsize h.2.2.1
    · rw [if_pos (Nat.lt_of_not_le hheight)]
      exact iff_of_false nofun fun h => hheight h.2.1
  · rw [if_pos (hgroups.2 hopen)]
    exact iff_of_false nofun fun h => hopen h.1

/-- The state in front of an item outside all groups, where `^` and `$` hold at the ends of lines. -/
def lined (b : Branches) (captures : Nat) (names : List (String × Nat)) : Parser :=
  ⟨b, [], { multiline := true }, captures, names⟩

/-- The expression of a text behind `(?m)`, provided that the parts do not nest too deeply. -/
def ReadsLined (properties : Properties) (text : List Char) (e : Expr) : Prop :=
  ∃ p, (∀ n, text.length ≤ n → run properties n (lined Branches.empty.addNothing 0 []) text = .ok p) ∧
    p.groups = [] ∧ p.branches.piece.expr = e ∧ p.branches.piece.height ≤ nestingLimit

theorem ReadsLined.parse {source : String} {e : Expr} (h : ReadsLined properties source.toList e)
    (hsize : e.footprint ≤ footprintLimit) :
    ∃ own, Pattern.parse properties ("(?m)" ++ source) = .ok own ∧ own.expr = e := by
  obtain ⟨p, hrun, hgroups, hexpr, hheight⟩ := h
  have htext : ("(?m)" ++ source).toList = '(' :: '?' :: 'm' :: ')' :: source.toList :=
    String.toList_append
  refine ⟨⟨"(?m)" ++ source, p.branches.piece.expr, p.names.reverse⟩, bind_eq_ok.2 ⟨p, ?_, ?_⟩, hexpr⟩
  · rw [htext]
    exact (run_cons_eq_ok rfl).2 ⟨_, _, rfl, hrun _ (Nat.le_add_right _ 3)⟩
  · exact finish_eq_ok.2 ⟨hgroups, hheight, hexpr ▸ hsize, rfl⟩

/-! ## Groups -/

theorem groups_of_parse {source : String} {p : Pattern} (h : Pattern.parse properties source = .ok p) :
    ∃ q, run properties source.toList.length initial source.toList = .ok q ∧ q.groups = [] := by
  obtain ⟨q, hrun, hfinish⟩ := bind_eq_ok.1 h
  exact ⟨q, hrun, (finish_eq_ok.1 hfinish).1⟩

section Group

variable {b : Branches} {k m : Nat} {names : List (String × Nat)} {q : Parser} {rest : List Char}

theorem run_bar (hm : ('|' :: rest).length ≤ m)
    (hrun : run properties m (lined b k names) ('|' :: rest) = .ok q) :
    ∃ m', rest.length ≤ m' ∧ run properties m' (lined b.next k names) rest = .ok q := by
  obtain ⟨m, rfl⟩ := Nat.exists_eq_succ_of_ne_zero (Nat.ne_zero_of_lt hm)
  obtain ⟨p, rest', hstep, hrun⟩ := (run_cons_eq_ok (p := lined b k names) rfl).1 hrun
  cases hstep
  exact ⟨m, Nat.le_of_succ_le_succ hm, hrun⟩

theorem readName_eq_ok {name : List Char} (hname : '>' ∉ name) {read : String} {behind : List Char}
    (h : readName (name ++ '>' :: rest) = .ok (read, behind)) : read = String.ofList name ∧ behind = rest := by
  have hinside : ∀ c ∈ name, (c != '>') = true := fun c hc =>
    bne_iff_ne.2 fun heq => hname (heq ▸ hc)
  have htake : (name ++ '>' :: rest).takeWhile (· != '>') = name :=
    (List.takeWhile_append_of_pos hinside).trans (List.append_nil _)
  have hdrop : (name ++ '>' :: rest).dropWhile (· != '>') = '>' :: rest :=
    (List.dropWhile_append_of_pos hinside).trans rfl
  rw [readName, hdrop, htake] at h
  cases name with
  | nil => cases h
  | cons c name =>
    dsimp only at h
    split at h <;> cases h
    exact ⟨rfl, rfl⟩

/-- The beginning of a named group. -/
theorem run_open {name : List Char} (hname : '>' ∉ name)
    (hm : ('(' :: '?' :: 'P' :: '<' :: (name ++ '>' :: rest)).length ≤ m)
    (hrun : run properties m (lined b k names) ('(' :: '?' :: 'P' :: '<' :: (name ++ '>' :: rest)) = .ok q) :
    ∃ m', rest.length ≤ m' ∧
      run properties m' ((lined .empty 0 []).within (k + 1) [⟨some (k + 1), { multiline := true }, b⟩]
        ((String.ofList name, k + 1) :: names)) rest = .ok q := by
  obtain ⟨m, rfl⟩ := Nat.exists_eq_succ_of_ne_zero (Nat.ne_zero_of_lt hm)
  obtain ⟨p, rest', hstep, hrun⟩ := (run_cons_eq_ok (p := lined b k names) rfl).1 hrun
  obtain ⟨t, hlex, hact⟩ := step_eq_ok.1 hstep
  obtain ⟨⟨read, behind⟩, hread, ht⟩ := bind_eq_ok.1 hlex
  obtain ⟨rfl, rfl⟩ := Prod.mk.inj (pure_eq_ok.1 ht)
  obtain ⟨rfl, rfl⟩ := readName_eq_ok hname hread
  have hle : behind.length ≤ m := by
    simp only [List.length_append, List.length_cons] at hm
    omega
  obtain ⟨-, rfl⟩ := act_openNamed_eq_ok.1 hact
  refine ⟨m, hle, ?_⟩
  simp only [within, lined, Nat.zero_add]
  exact hrun

/-- The end of a group. -/
theorem run_close {i : Parser} (hi : i.groups = []) (hverbose : i.flags.verbose = false)
    (hm : (')' :: rest).length ≤ m)
    (hrun : run properties m (i.within (k + 1) [⟨some (k + 1), { multiline := true }, b⟩] names)
      (')' :: rest) = .ok q) :
    ∃ k' names' height m', k < k' ∧ names ⊆ names' ∧ i.branches.piece.height < nestingLimit ∧
      rest.length ≤ m' ∧
      run properties m' (lined (b.add ⟨.grouped (k + 1) i.branches.piece.expr, height⟩) k' names') rest =
        .ok q := by
  have hgroups : (i.within (k + 1) [⟨some (k + 1), { multiline := true }, b⟩] names).groups =
      [⟨some (k + 1), { multiline := true }, b⟩] := by
    rw [within, hi]
    rfl
  obtain ⟨m, rfl⟩ := Nat.exists_eq_succ_of_ne_zero (Nat.ne_zero_of_lt hm)
  obtain ⟨p, rest', hstep, hrun⟩ :=
    (run_cons_eq_ok (p := i.within (k + 1) [⟨some (k + 1), { multiline := true }, b⟩] names) hverbose).1 hrun
  obtain ⟨t, hlex, hact⟩ := step_eq_ok.1 hstep
  obtain ⟨rfl, rfl⟩ := Prod.mk.inj (Except.ok.inj hlex)
  rw [act_close_eq hgroups] at hact
  have hbody : (i.within (k + 1) [⟨some (k + 1), { multiline := true }, b⟩] names).branches.piece =
      i.branches.piece.renumber (k + 1) := (Branches.renumber_piece (k + 1) i.branches).symm
  rw [hbody] at hact
  obtain ⟨hheight, rfl⟩ := add_eq_ok.1 hact
  refine ⟨_, _, _, m, Nat.le_add_left .., List.subset_append_right .., ?_, Nat.le_of_succ_le_succ hm, hrun⟩
  exact Nat.lt_of_le_of_lt (Nat.le_max_right ..) hheight

/-- A plain pattern in a named group. -/
theorem run_group {name : List Char} (hname : '>' ∉ name) {source : String} {alone : Pattern}
    (halone : Pattern.parse properties source = .ok alone) (hplain : readsPlainly properties source)
    (hm : ('(' :: '?' :: 'P' :: '<' :: (name ++ '>' :: (source.toList ++ ')' :: rest))).length ≤ m)
    (hrun : run properties m (lined b k names)
      ('(' :: '?' :: 'P' :: '<' :: (name ++ '>' :: (source.toList ++ ')' :: rest))) = .ok q) :
    ∃ e height k' names' m', ReadsLined properties source.toList e ∧ k < k' ∧
      (String.ofList name, k + 1) ∈ names' ∧ rest.length ≤ m' ∧
      run properties m' (lined (b.add ⟨.grouped (k + 1) e, height⟩) k' names') rest = .ok q := by
  obtain ⟨m₁, hm₁, hrun₁⟩ := run_open hname hm hrun
  obtain ⟨last, hlast, hgroups⟩ := groups_of_parse halone
  have hsimplified : (lined .empty 0 []).Simplified := ⟨.empty, nofun⟩
  have hleads : (lined .empty 0 []).Leads (lined Branches.empty.addNothing 0 []) :=
    ⟨.outermost (.first [] false), rfl, rfl, rfl⟩
  have hclosing : Closing (')' :: rest) := fun c hc => (Option.some.inj hc).symm
  obtain ⟨i, o, m₂, hscopes, hverbose, hsimplified', hleads', hown, hm₂, hrun₂⟩ :=
    run_within (i := lined .empty 0 []) hclosing hlast hplain (Nat.le_refl _) rfl hsimplified hleads hm₁
      hrun₁
  have hi : i.groups = [] := by
    have hscopes := (List.cons.inj hscopes).2
    rwa [hgroups, List.map_nil, List.map_eq_nil_iff] at hscopes
  obtain ⟨k', names', height, m₃, hk, hnames, hheight, hm₃, hrun₃⟩ := run_close hi hverbose hm₂ hrun₂
  obtain ⟨ho, hexpr, hheight'⟩ := hleads'.piece hsimplified' hi
  exact ⟨_, height, k', names', m₃, ⟨o, hown, ho, hexpr, Nat.le_trans hheight' hheight⟩, hk,
    hnames List.mem_cons_self, hm₃, hrun₃⟩

end Group

end Parser

/-! ## Groups to choose from -/

namespace Expr

/-- Groups to choose from have no beginning in common, so they are kept as they are. -/
theorem altOf_grouped {groups : List (Nat × Expr)} (hne : groups ≠ []) :
    altOf (groups.map fun g => .grouped g.1 g.2) = ofBranches (groups.map fun g => .grouped g.1 g.2) := by
  have hbranches : (groups.map fun g => grouped g.1 g.2).flatMap branches =
      groups.map fun g => grouped g.1 g.2 := by
    rw [List.flatMap_map]
    exact List.map_eq_flatMap.symm
  rw [altOf, hbranches]
  obtain ⟨g, groups, rfl⟩ := List.exists_cons_of_ne_nil hne
  cases groups with
  | nil => rfl
  | cons g' groups => rfl

theorem size_le_ofBranches {groups : List (Nat × Expr)} {g : Nat × Expr} (hg : g ∈ groups) (d : Direction)
    (chosen : Bool) :
    g.2.size d false ≤ (ofBranches (groups.map fun g => .grouped g.1 g.2)).size d chosen := by
  have hgroup (g : Nat × Expr) (chosen : Bool) : g.2.size d false ≤ (grouped g.1 g.2).size d chosen := by
    rw [grouped, size, size_renumber]
    exact Nat.le_add_left ..
  induction groups generalizing chosen with
  | nil => cases hg
  | cons first groups ih =>
    cases groups with
    | nil =>
      cases List.mem_singleton.1 hg
      exact hgroup g chosen
    | cons second groups =>
      -- Groups are no texts, which would make a tree.
      have hsize : (ofBranches ((first :: second :: groups).map fun g => .grouped g.1 g.2)).size d chosen =
          (grouped first.1 first.2).size d false + 4 +
            (if (ofBranches ((second :: groups).map fun g => .grouped g.1 g.2)).isAlt then 0 else 68) +
            (ofBranches ((second :: groups).map fun g => .grouped g.1 g.2)).size d
              (ofBranches ((second :: groups).map fun g => .grouped g.1 g.2)).isAlt := by
        cases chosen <;> rfl
      rw [hsize]
      cases hg with
      | head =>
        have := hgroup g false
        omega
      | tail _ hg =>
        have := ih hg (ofBranches ((second :: groups).map fun g => .grouped g.1 g.2)).isAlt
        omega

theorem footprint_le_ofBranches {groups : List (Nat × Expr)} {g : Nat × Expr} (hg : g ∈ groups) :
    g.2.footprint ≤ (ofBranches (groups.map fun g => .grouped g.1 g.2)).footprint := by
  have hforwards := size_le_ofBranches hg .forwards false
  have hbackwards := size_le_ofBranches hg .backwards false
  unfold footprint
  omega

end Expr

theorem Piece.expr_choice_grouped {pieces : List Piece} {groups : List (Nat × Expr)} (hne : groups ≠ [])
    (h : pieces.map (·.expr) = groups.map fun g => .grouped g.1 g.2) :
    (choice pieces).expr = .ofBranches (groups.map fun g => .grouped g.1 g.2) := by
  unfold choice
  split
  · rw [← h]
    rfl
  · rw [← Expr.altOf_grouped hne, ← h]
    rfl

end Highlight.Pattern
