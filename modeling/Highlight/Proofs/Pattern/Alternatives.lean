import Highlight.Proofs.Pattern.Descent
import Highlight.Proofs.Pattern.Renumber

/-!
# Alternatives in groups of their own

In a program for a choice between groups, the instructions of each group run as they do in a program of
their own: a thread there stands for one in the larger program that has the group open beneath its own
groups (`simulation_group`), and where the one accepts, the other closes the group and accepts. So the
match that begins at a position is that of the first alternative which has one there, with the group of
this alternative as its last capture (`attempt_ofBranches`).
-/

namespace Highlight.Pattern

/-- The capture with `k` added to the number of the group. -/
def Capture.renumber (k : Nat) (c : Capture) : Capture := { c with index := c.index + k }

/-- The match of an expression as a match of a group with number `k` around it, whose groups are
numbered on from there. -/
def Match.inGroup (k : Nat) (m : Match) : Match :=
  { m with captures := ⟨k, m.start, m.stop⟩ :: m.captures.map (.renumber k) }

namespace Program

/-! ## Going on where nothing leads back to -/

/-- No instruction behind an address leads back to it. -/
def Forward (code : Program) (a : Nat) : Prop :=
  ∀ b i, a < b → code[b]? = some i → ∀ offset ∈ i.offsets, (a : Int) < b + offset

/-- Threads behind an address that nothing leads back to stay behind it. -/
theorem confines_behind {code : Program} {a : Nat} (hforward : code.Forward a) (p : Cursor) :
    code.Confines p (a < ·) := by
  intro t threads ht h s hs
  obtain ⟨i, hi, step, hstep, haddress⟩ := exists_step_of_follow h hs
  have hcases : step = 1 ∨ step ∈ i.offsets := by
    cases i with
    | check | openGroup | closeGroup => exact .inl (List.mem_singleton.1 hstep)
    | jump | fork => exact .inr hstep
    | accept | read => cases hstep
  rcases hcases with rfl | hoffset
  · omega
  · have := hforward _ i ht hi step hoffset
    omega

/-- A thread that goes on only to what does not lead back to it comes to what these threads come to. -/
theorem attempt_of_goOn {code : Program} {p : Cursor} {t : Thread} {threads : List Thread}
    (h : code.follow p t = .goOn threads) (hforward : code.Forward t.address)
    (hbehind : ∀ s ∈ threads, t.address < s.address) :
    code.attempt p [t] = code.attempt p threads :=
  (confines_behind hforward p).attempt_of_goOn h hbehind (Nat.lt_irrefl _)

/-! ## The instructions of one group -/

/-- The instructions of a body, closing the group with number `k` and what comes behind stand in a
program, from an address on; from behind the group the text is accepted, at once or after a jump. -/
structure Holds (code : Program) (base k : Nat) (body : List Instr) : Prop where
  inside {a : Nat} {i : Instr} (h : body[a]? = some i) : code[base + a]? = some (i.renumber k)
  close : code[base + body.length]? = some (.closeGroup k)
  exit : code[base + body.length + 1]? = some .accept ∨
    ∃ n : Nat, code[base + body.length + 1]? = some (.jump (n + 1 : Nat)) ∧
      code[base + body.length + 1 + (n + 1)]? = some .accept

/-- The thread in the larger program, where the group was begun at `q`. -/
def embed (base k : Nat) (q : Cursor) (t : Thread) : Thread :=
  ⟨base + t.address, t.start, t.opened ++ [q], t.captures.map (.renumber k)⟩

variable {code : Program} {base k : Nat} {body : List Instr} {q : Cursor} {t : Thread}

theorem embed_move {offset : Int} (h : 0 ≤ (t.address : Int) + offset) :
    embed base k q (t.move offset) = (embed base k q t).move offset := by
  simp only [embed, Thread.move, Thread.mk.injEq, and_true]
  omega

theorem embed_openGroup (p : Cursor) :
    embed base k q (t.openGroup p) = (embed base k q t).openGroup p := rfl

theorem embed_closeGroup {index : Nat} {p : Cursor} (h : t.opened ≠ []) :
    embed base k q (t.closeGroup index p) = (embed base k q t).closeGroup (index + k) p := by
  obtain ⟨address, start, opened, captures⟩ := t
  cases opened with
  | nil => exact absurd rfl h
  | cons c opened => rfl

/-- The threads of a body's own program that started at `q` and have the groups open that are open at
their address, and the threads they stand for. -/
structure Embeds (base k : Nat) (body : List Instr) (q : Cursor) (t t' : Thread) : Prop where
  eq : t' = embed base k q t
  start : t.start = q
  within : t.address ≤ body.length
  opened : (t.opened.length : Int) = openAt body t.address

/-- The body's own program. -/
def alone (body : List Instr) : Program := (body ++ [Instr.accept]).toArray

theorem getElem?_alone_eq_some {a : Nat} {i : Instr} :
    (alone body)[a]? = some i ↔ body[a]? = some i ∨ a = body.length ∧ i = Instr.accept := by
  rw [alone, List.getElem?_toArray, List.getElem?_append]
  split
  · rename_i h
    rw [or_iff_left fun hboth => absurd hboth.1 (Nat.ne_of_lt h)]
  · rename_i h
    rw [List.getElem?_eq_none (Nat.le_of_not_lt h), or_iff_right nofun, List.getElem?_singleton]
    split
    · rename_i h0
      exact ⟨fun hi => ⟨by omega, (Option.some.inj hi).symm⟩, fun hi => by rw [hi.2]⟩
    · rename_i h0
      exact iff_of_false nofun fun hboth => h0 (by omega)

variable {t' : Thread} {p : Cursor} {i : Instr}

theorem Embeds.exists_lookup (ht : Embeds base k body q t t') : ∃ i, (alone body)[t.address]? = some i := by
  rcases Nat.lt_or_eq_of_le ht.within with h | h
  · exact ⟨_, getElem?_alone_eq_some.2 (.inl (List.getElem?_eq_getElem h))⟩
  · exact ⟨_, getElem?_alone_eq_some.2 (.inr ⟨h, rfl⟩)⟩

/-- A thread on one of the body's instructions and the thread it stands for, at the same instruction. -/
theorem Embeds.lookup (ht : Embeds base k body q t t') (hcode : code.Holds base k body)
    (h : (alone body)[t.address]? = some i) (hi : i ≠ .accept) :
    body[t.address]? = some i ∧ code[t'.address]? = some (i.renumber k) := by
  have hbody := (getElem?_alone_eq_some.1 h).resolve_right fun hboth => hi hboth.2
  exact ⟨hbody, ht.eq ▸ hcode.inside hbody⟩

/-- Behind an instruction as many groups are open as it says. -/
theorem Embeds.next {s s' : Thread} (ht : Embeds base k body q t t')
    (hi : body[t.address]? = some i) (hs : s' = embed base k q s) (hstart : s.start = t.start)
    (haddress : s.address = t.address)
    (hopened : (s.opened.length : Int) = t.opened.length + i.weight) :
    Embeds base k body q (s.move 1) (s'.move 1) := by
  have hmove : (s.move 1).address = t.address + 1 := by
    show ((s.address : Int) + 1).toNat = _
    omega
  obtain ⟨hlt, -⟩ := List.getElem?_eq_some_iff.1 hi
  refine ⟨?_, hstart.trans ht.start, hmove ▸ hlt, ?_⟩
  · rw [hs, embed_move (by omega)]
  · rw [hmove, openAt_succ hi, ← ht.opened]
    exact hopened

theorem Embeds.next_of_weight (ht : Embeds base k body q t t') (hi : body[t.address]? = some i)
    (hweight : i.weight = 0) : Embeds base k body q (t.move 1) (t'.move 1) :=
  ht.next hi ht.eq rfl rfl (by rw [hweight, Int.add_zero])

theorem Embeds.jump (ht : Embeds base k body q t t') (hbody : Fragment body)
    (hi : body[t.address]? = some i) {offset : Int} (ho : offset ∈ i.offsets) :
    Embeds base k body q (t.move offset) (t'.move offset) := by
  obtain ⟨b, hb, hle, hopen⟩ := hbody.target_at hi ho
  have hmove : (t.move offset).address = b := by
    show ((t.address : Int) + offset).toNat = b
    omega
  refine ⟨?_, ht.start, hmove ▸ hle, ?_⟩
  · rw [ht.eq, embed_move (by omega)]
  · rw [hmove, hopen]
    exact ht.opened

theorem goOn_of_embeds (hbody : Fragment body) (hcode : code.Holds base k body) {threads : List Thread}
    (ht : Embeds base k body q t t') (h : (alone body).follow p t = .goOn threads) :
    ∃ threads', code.follow p t' = .goOn threads' ∧
      List.Forall₂ (Embeds base k body q) threads threads' := by
  obtain ⟨i, hi⟩ := ht.exists_lookup
  rw [follow, hi] at h
  have hlookup := ht.lookup hcode hi
  cases i with
  | accept | read => cases h
  | check condition =>
    obtain ⟨hinside, hcode'⟩ := hlookup Instr.noConfusion
    cases h
    refine ⟨_, by rw [follow, hcode']; rfl, ?_⟩
    split
    · exact .cons (ht.next_of_weight hinside rfl) .nil
    · exact .nil
  | openGroup index =>
    obtain ⟨hinside, hcode'⟩ := hlookup Instr.noConfusion
    cases h
    refine ⟨_, by rw [follow, hcode']; rfl, .cons (ht.next hinside ?_ rfl rfl ?_) .nil⟩
    · rw [embed_openGroup, ht.eq]
    · exact Int.natCast_succ _
  | closeGroup index =>
    obtain ⟨hinside, hcode'⟩ := hlookup Instr.noConfusion
    cases h
    -- A group that closes was opened in the body.
    have hpos := hbody.openAt_pos hinside
    rw [← ht.opened] at hpos
    have hne : t.opened ≠ [] := List.ne_nil_of_length_pos (by omega)
    refine ⟨_, by rw [follow, hcode']; rfl, .cons (ht.next hinside ?_ (start_closeGroup ..)
      (address_closeGroup ..) ?_) .nil⟩
    · rw [embed_closeGroup hne, ht.eq]
    · obtain ⟨address, start, opened, captures⟩ := t
      cases opened with
      | nil => exact absurd rfl hne
      | cons c opened =>
        show (opened.length : Int) = ((opened.length + 1 : Nat) : Int) + -1
        omega
  | jump offset =>
    obtain ⟨hinside, hcode'⟩ := hlookup Instr.noConfusion
    cases h
    exact ⟨_, by rw [follow, hcode']; rfl,
      .cons (ht.jump hbody hinside (List.mem_singleton_self _)) .nil⟩
  | fork preferred other =>
    obtain ⟨hinside, hcode'⟩ := hlookup Instr.noConfusion
    cases h
    exact ⟨_, by rw [follow, hcode']; rfl, .cons (ht.jump hbody hinside List.mem_cons_self)
      (.cons (ht.jump hbody hinside (List.mem_cons_of_mem _ (List.mem_singleton_self _))) .nil)⟩

/-- The body's own program accepts at its end only, where none of its groups is open. -/
theorem Embeds.eq_of_accept (hbody : Fragment body) (ht : Embeds base k body q t t')
    (h : (alone body)[t.address]? = some .accept) :
    t.address = body.length ∧
      t' = ⟨base + body.length, q, [q], t.captures.map (.renumber k)⟩ := by
  rcases getElem?_alone_eq_some.1 h with hinside | ⟨haddress, -⟩
  · exact absurd rfl (hbody.fits_at hinside).ne_accept
  · have hopened := ht.opened
    rw [haddress, hbody.openAt_length] at hopened
    have hnil : t.opened = [] := List.eq_nil_of_length_eq_zero (Int.ofNat_inj.1 hopened)
    refine ⟨haddress, ?_⟩
    rw [ht.eq, embed, haddress, hnil, ht.start, List.nil_append]

/-- From behind the body the text is accepted, with the capture of the group. -/
theorem accept_of_embeds (hbody : Fragment body) (hcode : code.Holds base k body)
    (ht : Embeds base k body q t t') (h : (alone body).follow p t = .accept) {visited : List Nat}
    (hfree : ∀ a ∈ visited, ¬ base + body.length ≤ a) (pending : List Thread) :
    ∃ done visited', Explores code p visited (t' :: pending) [] (some done) visited' ∧
      done.result p = (t.result p).inGroup k := by
  obtain ⟨-, rfl⟩ := ht.eq_of_accept hbody (follow_eq_accept_iff.1 h)
  have hnew {a : Nat} (more : List Nat) (ha : base + body.length ≤ a) (hmore : ∀ b ∈ more, b < a) :
      a ∉ more ++ visited := by
    intro hmem
    rcases List.mem_append.1 hmem with hmem | hmem
    · exact Nat.lt_irrefl _ (hmore _ hmem)
    · exact hfree _ hmem ha
  let captures := ⟨k, q, p⟩ :: t.captures.map (Capture.renumber k)
  have hclose : code.follow p ⟨base + body.length, q, [q], t.captures.map (.renumber k)⟩ =
      .goOn [⟨base + body.length + 1, q, [], captures⟩] := by
    rw [follow, hcode.close]
    rfl
  have hresult (a : Nat) : Thread.result ⟨a, q, [], captures⟩ p = (t.result p).inGroup k := by
    rw [Thread.result, Match.inGroup, Thread.result, ht.start]
  have hbehind : base + body.length + 1 ∉ [base + body.length] ++ visited :=
    hnew _ (Nat.le_succ _) (List.forall_mem_singleton.2 (Nat.lt_succ_self _))
  rcases hcode.exit with haccept | ⟨n, hjump, haccept⟩
  · exact ⟨_, _, .goOn (hnew [] (Nat.le_refl _) (List.forall_mem_nil _)) hclose
      (.accept hbehind (follow_eq_accept_iff.2 haccept)), hresult _⟩
  · have hjump' : code.follow p ⟨base + body.length + 1, q, [], captures⟩ =
        .goOn [⟨base + body.length + 1 + (n + 1), q, [], captures⟩] := by
      rw [follow, hjump]
      rfl
    have hend : base + body.length + 1 + (n + 1) ∉
        [base + body.length + 1, base + body.length] ++ visited :=
      hnew _ (by omega) (List.forall_mem_cons.2 ⟨by omega, List.forall_mem_singleton.2 (by omega)⟩)
    exact ⟨_, _, .goOn (hnew [] (Nat.le_refl _) (List.forall_mem_nil _)) hclose (.goOn hbehind hjump'
      (.accept hend (follow_eq_accept_iff.2 haccept))), hresult _⟩

/-- The body's own program runs in the larger one as the body of the group. -/
theorem simulation_group (hbody : Fragment body) (hcode : code.Holds base k body) :
    Simulation (alone body) code (Embeds base k body q) (fun m m' => m' = m.inGroup k)
      (base + body.length ≤ ·) where
  address_eq_iff ht hs := by
    rw [ht.eq, hs.eq]
    exact Nat.add_left_cancel_iff
  wait ht h := by
    obtain ⟨set, hset⟩ := follow_eq_wait_iff.1 h
    exact follow_eq_wait_iff.2 ⟨set, (ht.lookup hcode hset Instr.noConfusion).2⟩
  goOn ht h := goOn_of_embeds hbody hcode ht h
  accept ht h _ hfree _ pending := accept_of_embeds hbody hcode ht h hfree pending
  free {p t t'} ht h := by
    have hne : t.address ≠ body.length := fun he =>
      h (follow_eq_accept_iff.2 (getElem?_alone_eq_some.2 (.inr ⟨he, rfl⟩)))
    have hle := ht.within
    rw [ht.eq]
    show ¬ base + body.length ≤ base + t.address
    omega
  advance {t t'} ht c := by
    obtain ⟨i, hi⟩ := ht.exists_lookup
    rw [advance, advance, hi]
    cases i with
    | read set =>
      obtain ⟨hinside, hcode'⟩ := ht.lookup hcode hi Instr.noConfusion
      rw [hcode']
      simp only [Instr.renumber]
      split
      · exact .some (ht.next_of_weight hinside rfl)
      · exact .none
    | accept =>
      rw [(ht.eq_of_accept hbody hi).2, hcode.close]
      exact .none
    | check | openGroup | closeGroup | jump | fork =>
      rw [(ht.lookup hcode hi Instr.noConfusion).2]
      exact .none

/-- A thread at the body comes to the match that the body's own program comes to. -/
theorem attempt_body (hbody : Fragment body) (hcode : code.Holds base k body) (p : Cursor) :
    code.attempt p [⟨base, p, [p], []⟩] = ((alone body).attempt p [.new p]).map (.inGroup k) := by
  have hnew : Embeds base k body p (.new p) ⟨base, p, [p], []⟩ := ⟨rfl, rfl, Nat.zero_le _, rfl⟩
  have hrel := (simulation_group hbody hcode).attempt p (.cons hnew .nil)
  generalize (alone body).attempt p [.new p] = m, code.attempt p _ = m' at hrel
  cases hrel with
  | some h => rw [h]; rfl
  | none => rfl

/-! ## Several groups -/

variable {before after : List Instr}

theorem getElem?_of_toList (h : code.toList = before ++ after) (a : Nat) :
    code[before.length + a]? = after[a]? := by
  rw [← Array.getElem?_toList, h, List.getElem?_append_right (Nat.le_add_right _ _),
    Nat.add_sub_cancel_left]

theorem forward_of_toList (h : code.toList = before ++ i :: after) (hback : NoneBack after) :
    code.Forward before.length := by
  intro b j hb hj offset ho
  obtain ⟨d, rfl⟩ := Nat.exists_eq_add_of_lt hb
  rw [Nat.add_assoc, getElem?_of_toList h, List.getElem?_cons_succ] at hj
  have := hback d j hj offset ho
  omega

end Program

/-- A group with number `k` around an expression, whose groups are numbered on from there. -/
def Expr.grouped (k : Nat) (e : Expr) : Expr := .group k (e.renumber k)

theorem Expr.code_grouped (k : Nat) (e : Expr) :
    (grouped k e).code = .openGroup k :: e.code.map (.renumber k) ++ [.closeGroup k] := by
  rw [grouped, code, code_renumber]

namespace Program

variable {code : Program} {before after : List Instr}

/-- A thread at a group comes to the match that the body comes to by itself. -/
theorem attempt_group (k : Nat) (e : Expr)
    (hcode : code.toList = before ++ ((Expr.grouped k e).code ++ after)) (hback : NoneBack after)
    (hexit : after[0]? = some .accept ∨
      ∃ n : Nat, after[0]? = some (.jump (n + 1 : Nat)) ∧ after[n + 1]? = some .accept) (p : Cursor) :
    code.attempt p [⟨before.length, p, [], []⟩] =
      (e.program.attempt p [.new p]).map (.inGroup k) := by
  rw [Expr.code_grouped, List.append_assoc, List.cons_append] at hcode
  have hopen : code.follow p ⟨before.length, p, [], []⟩ = .goOn [⟨before.length + 1, p, [p], []⟩] := by
    have := getElem?_of_toList hcode 0
    rw [Nat.add_zero] at this
    rw [follow, this]
    rfl
  have hback' : NoneBack (e.code.map (.renumber k) ++ ([.closeGroup k] ++ after)) := by
    rw [← Expr.code_renumber]
    exact (e.renumber k).fragment_code.noneBack_append (.cons (List.forall_mem_nil _) hback)
  rw [attempt_of_goOn hopen (forward_of_toList hcode hback')
    (List.forall_mem_singleton.2 (Nat.lt_succ_self _))]
  rw [List.append_cons] at hcode
  have hlength : (before ++ [Instr.openGroup k]).length = before.length + 1 := List.length_append
  have hlookup (a : Nat) := hlength ▸ getElem?_of_toList hcode a
  -- Behind the body come the end of the group and the rest of the program.
  have hbehind (a : Nat) : code[before.length + 1 + e.code.length + a]? = (.closeGroup k :: after)[a]? := by
    rw [Nat.add_assoc, hlookup, List.getElem?_append_right, List.length_map, Nat.add_sub_cancel_left]
    · rfl
    · rw [List.length_map]
      exact Nat.le_add_right _ _
  refine attempt_body e.fragment_code ⟨fun {a i} h => ?_, hbehind 0, ?_⟩ p
  · obtain ⟨ha, -⟩ := List.getElem?_eq_some_iff.1 h
    rw [hlookup, List.getElem?_append_left (by rwa [List.length_map]), List.getElem?_map, h]
    rfl
  · rcases hexit with haccept | ⟨n, hjump, haccept⟩
    · exact .inl ((hbehind 1).trans haccept)
    · refine .inr ⟨n, (hbehind 1).trans hjump, ?_⟩
      rw [Nat.add_assoc, Nat.add_comm 1]
      exact (hbehind (n + 1 + 1)).trans haccept

/-- A thread at a fork comes to what it comes to behind the fork or, if that is nothing, elsewhere. -/
theorem attempt_fork {other : Nat}
    (hcode : code.toList = before ++ .fork 1 (other + 1 : Nat) :: after) (hback : NoneBack after)
    (p : Cursor) :
    code.attempt p [⟨before.length, p, [], []⟩] =
      (code.attempt p [⟨before.length + 1, p, [], []⟩]).or
        (code.attempt p [⟨before.length + (other + 1), p, [], []⟩]) := by
  have hfork : code.follow p ⟨before.length, p, [], []⟩ =
      .goOn [⟨before.length + 1, p, [], []⟩, ⟨before.length + (other + 1), p, [], []⟩] := by
    have := getElem?_of_toList hcode 0
    rw [Nat.add_zero] at this
    rw [follow, this]
    rfl
  rw [attempt_of_goOn hfork (forward_of_toList hcode hback), ← List.singleton_append, attempt_append]
  exact List.forall_mem_cons.2 ⟨Nat.lt_succ_self _,
    List.forall_mem_singleton.2 (Nat.lt_add_of_pos_right (Nat.succ_pos _))⟩

/-- A thread at several groups to choose from comes to the match of the first one that has a match. -/
theorem attempt_ofBranches (groups : List (Nat × Expr)) (hne : groups ≠ [])
    (hcode : code.toList = before ++
      ((Expr.ofBranches (groups.map fun g => .grouped g.1 g.2)).code ++ [.accept])) (p : Cursor) :
    code.attempt p [⟨before.length, p, [], []⟩] =
      groups.findSome? fun g => (g.2.program.attempt p [.new p]).map (.inGroup g.1) := by
  -- Induction on the groups; a fork stands before all but the last one.
  induction groups generalizing before with
  | nil => exact absurd rfl hne
  | cons g groups ih =>
    have haccept : NoneBack [Instr.accept] := noneBack_nil.cons (List.forall_mem_nil _)
    cases groups with
    | nil =>
      rw [List.findSome?_singleton]
      exact attempt_group g.1 g.2 hcode haccept (.inl rfl) p
    | cons g' groups =>
      let first := (Expr.grouped g.1 g.2).code
      let rest := (Expr.ofBranches ((g' :: groups).map fun g => .grouped g.1 g.2)).code
      have hfirst : Fragment first := Expr.fragment_code _
      have hrest : Fragment rest := Expr.fragment_code _
      have hcode' : code.toList = before ++ .fork 1 (first.length + 2 : Nat) ::
          (first ++ (.jump (rest.length + 1 : Nat) :: (rest ++ [.accept]))) := by
        rw [hcode]
        simp only [List.map_cons, Expr.ofBranches, Expr.code, List.cons_append, List.append_assoc]
        rfl
      let fork := Instr.fork 1 (first.length + 2 : Nat)
      let jump := Instr.jump (rest.length + 1 : Nat)
      have hbehind : NoneBack (jump :: (rest ++ [.accept])) := by
        refine (hrest.noneBack_append haccept).cons (List.forall_mem_singleton.2 ?_)
        exact Int.natCast_nonneg _
      have hchosen : code.attempt p [⟨before.length + 1, p, [], []⟩] =
          (g.2.program.attempt p [.new p]).map (.inGroup g.1) := by
        have hlength : (before ++ [fork]).length = before.length + 1 := List.length_append
        rw [← hlength]
        refine attempt_group g.1 g.2 (hcode'.trans (List.append_cons ..)) hbehind
          (.inr ⟨rest.length, rfl, ?_⟩) p
        exact List.getElem?_concat_length
      have hothers : code.attempt p [⟨before.length + (first.length + 2), p, [], []⟩] =
          (g' :: groups).findSome? fun g => (g.2.program.attempt p [.new p]).map (.inGroup g.1) := by
        have hlength :
            (before ++ fork :: (first ++ [jump])).length = before.length + (first.length + 2) := by
          simp
        rw [← hlength]
        refine ih (List.cons_ne_nil _ _) (hcode'.trans ?_)
        simp only [List.append_assoc, List.cons_append, List.nil_append]
        rfl
      rw [attempt_fork hcode' (hfirst.noneBack_append hbehind), hchosen, hothers]
      conv_rhs => rw [List.findSome?_cons]
      cases Option.map (Match.inGroup g.1) (g.2.program.attempt p [.new p]) <;> rfl

end Program

end Highlight.Pattern
