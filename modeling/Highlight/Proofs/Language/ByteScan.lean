import Highlight.Language.ByteScan
import Highlight.Proofs.Scan
import Mathlib.Data.List.Basic

/-!
# Counting on the way counts right

A scan that goes from byte to byte gives the marks that counting the characters before every match
anew would give, whatever matches it passes over in between. The place where it stands is between
characters and its two counts agree (`ByteScan.At`); as matches follow one another, each begins there
or later (`ByteScan.exists_step`), so every piece asked for is there (`exists_sliceBytes`).

* `Pattern.ascending_found`: the matches of a pattern are such matches;
* `scanBytes_counts`: the marks of a scan.
-/

namespace Highlight

/-! ## Places in a text -/

/-- The number of characters of a text that end at a byte or before. -/
def charsBefore : List Char → Nat → Nat
  | [], _ => 0
  | c :: text, bytes => if c.utf8Size ≤ bytes then charsBefore text (bytes - c.utf8Size) + 1 else 0

/-- Whether a number of bytes ends between two characters of a text. -/
def Between (text : String) (bytes : Nat) : Prop := (String.Pos.Raw.mk bytes).IsValid text

instance (text : String) (bytes : Nat) : Decidable (Between text bytes) :=
  decidable_of_iff _ String.Pos.Raw.isValid_eq_true_iff

theorem charsBefore_append (before after : List Char) :
    charsBefore (before ++ after) (String.ofList before).utf8ByteSize = before.length := by
  induction before with
  | nil =>
    cases after with
    | nil => rfl
    | cons c after => exact if_neg (Nat.not_le.2 c.utf8Size_pos)
  | cons c before ih =>
    have hsize : (String.ofList (c :: before)).utf8ByteSize =
        c.utf8Size + (String.ofList before).utf8ByteSize := by
      rw [String.ofList_cons, String.utf8ByteSize_append, String.utf8ByteSize_singleton]
    rw [List.cons_append, charsBefore, hsize, if_pos (Nat.le_add_right ..), Nat.add_sub_cancel_left,
      ih]
    rfl

theorem charsBefore_of_splits {text : String} {p : text.Pos} {before after : String}
    (h : p.Splits before after) : charsBefore text.toList p.offset.byteIdx = before.length := by
  have hcount := charsBefore_append before.toList after.toList
  rwa [String.ofList_toList, String.length_toList, ← String.toList_append, ← h.eq_append,
    ← String.byteIdx_rawEndPos, ← h.offset_eq_rawEndPos] at hcount

theorem pos?_of_between {text : String} {bytes : Nat} (h : Between text bytes) :
    text.pos? ⟨bytes⟩ = some (text.pos ⟨bytes⟩ h) := by
  rw [String.pos?, String.Slice.pos?,
    dif_pos (String.Pos.Raw.isValidForSlice_eq_true_iff.2 h.toSlice)]
  rfl

/-- Between two places, the second not before the first, there is a piece of the text, and it has the
characters that are before the second and not before the first. -/
theorem exists_sliceBytes {text : String} {start stop : Nat} (hstart : Between text start)
    (hstop : Between text stop) (hle : start ≤ stop) :
    ∃ piece, sliceBytes text start stop = some piece ∧
      charsBefore text.toList stop = charsBefore text.toList start + piece.length ∧
      stop = start + piece.utf8ByteSize := by
  let first := text.pos ⟨start⟩ hstart
  let last := text.pos ⟨stop⟩ hstop
  have hfirst : first ≤ last := String.Pos.le_iff.2 hle
  obtain ⟨before, after, hbefore, hread⟩ := String.copy_slice_eq_iff_splits.1 ⟨hfirst, rfl⟩
  refine ⟨(text.slice first last hfirst).copy, ?_, ?_, ?_⟩
  · rw [sliceBytes, pos?_of_between hstart, pos?_of_between hstop]
    show ((text.slice? first last).bind fun piece => some piece.copy) = _
    rw [String.slice?, dif_pos hfirst]
    rfl
  · have hcount := charsBefore_of_splits hread
    rwa [String.length_append, ← charsBefore_of_splits hbefore] at hcount
  · have hstart : start = before.utf8ByteSize :=
      congrArg String.Pos.Raw.byteIdx hbefore.offset_eq_rawEndPos
    have hstop : stop = (before ++ (text.slice first last hfirst).copy).utf8ByteSize :=
      congrArg String.Pos.Raw.byteIdx hread.offset_eq_rawEndPos
    rw [hstop, String.utf8ByteSize_append, hstart]

theorem charsBefore_mono {text : String} {start stop : Nat} (hstart : Between text start)
    (hstop : Between text stop) (hle : start ≤ stop) :
    charsBefore text.toList start ≤ charsBefore text.toList stop := by
  obtain ⟨piece, -, hchars, -⟩ := exists_sliceBytes hstart hstop hle
  omega

/-- Where there are bytes, there are characters. -/
theorem charsBefore_lt {text : String} {start stop : Nat} (hstart : Between text start)
    (hstop : Between text stop) (hlt : start < stop) :
    charsBefore text.toList start < charsBefore text.toList stop := by
  obtain ⟨piece, -, hchars, hbytes⟩ := exists_sliceBytes hstart hstop (Nat.le_of_lt hlt)
  have hpiece : 0 < piece.length := by
    refine Nat.pos_of_ne_zero fun hzero => ?_
    rw [String.length_eq_zero_iff.1 hzero, String.utf8ByteSize_empty] at hbytes
    omega
  omega

theorem charsBefore_le_length (text : List Char) (bytes : Nat) :
    charsBefore text bytes ≤ text.length := by
  induction text generalizing bytes with
  | nil => exact Nat.le_refl _
  | cons c text ih =>
    rw [charsBefore]
    split
    · exact Nat.succ_le_succ (ih _)
    · exact Nat.zero_le _

/-! ## Scans -/

section

variable {α : Type} {text : String} {label : α → Except Fault (Option Label)}
  {found : List (ByteMatch α)} {m : ByteMatch α} {s : ByteScan}

/-- What a search engine reports: matches that begin and end between characters, each where the one
before it ended or later. -/
structure Ascending (text : String) (found : List (ByteMatch α)) : Prop where
  start_le : ∀ m ∈ found, m.start ≤ m.stop
  between_start : ∀ m ∈ found, Between text m.start
  between_stop : ∀ m ∈ found, Between text m.stop
  disjoint : found.Pairwise fun m n => m.stop ≤ n.start

/-- Every match that is not empty may be asked for its label. -/
def Labelled (label : α → Except Fault (Option Label)) (found : List (ByteMatch α)) : Prop :=
  ∀ m ∈ found, m.isEmpty = false → ∃ l, label m.content = .ok l

/-- The mark of a match, if it is not empty and gets a label, with all characters before it counted. -/
def ByteMatch.mark? (text : String) (label : α → Except Fault (Option Label)) (m : ByteMatch α) :
    Option Mark :=
  if m.isEmpty then none
  else
    match label m.content with
    | .ok (some l) =>
      some (.labeled (charsBefore text.toList m.start) (charsBefore text.toList m.stop) l)
    | _ => none

theorem ByteMatch.mark?_eq_some {k : Mark} : m.mark? text label = some k ↔
    m.isEmpty = false ∧ ∃ l, label m.content = .ok (some l) ∧
      k = .labeled (charsBefore text.toList m.start) (charsBefore text.toList m.stop) l := by
  unfold mark?
  split
  · simp [*]
  · split
    · simp [*, eq_comm]
    · rename_i hno
      simp only [reduceCtorEq, false_iff, not_and, not_exists]
      exact fun _ l hl => (hno l hl).elim

theorem Ascending.of_sublist {part : List (ByteMatch α)} (h : Ascending text found)
    (hpart : part.Sublist found) : Ascending text part where
  start_le m hm := h.start_le m (hpart.subset hm)
  between_start m hm := h.between_start m (hpart.subset hm)
  between_stop m hm := h.between_stop m (hpart.subset hm)
  disjoint := h.disjoint.sublist hpart

/-- The marks are of some text each and lie within the text. -/
theorem Ascending.bounds_marks (h : Ascending text found) {k : Mark}
    (hk : k ∈ found.filterMap (ByteMatch.mark? text label)) :
    k.start < k.stop ∧ k.stop ≤ text.length := by
  obtain ⟨m, hm, hmk⟩ := List.mem_filterMap.1 hk
  obtain ⟨hsome, l, -, rfl⟩ := ByteMatch.mark?_eq_some.1 hmk
  have hne : m.start ≠ m.stop := by simpa [ByteMatch.isEmpty] using hsome
  refine ⟨charsBefore_lt (h.between_start m hm) (h.between_stop m hm)
    (Nat.lt_of_le_of_ne (h.start_le m hm) hne), ?_⟩
  rw [← String.length_toList]
  exact charsBefore_le_length ..

theorem Ascending.disjoint_marks (h : Ascending text found) :
    (found.filterMap (ByteMatch.mark? text label)).Pairwise fun k k' => k.stop ≤ k'.start := by
  have hchars : found.Pairwise fun m n =>
      charsBefore text.toList m.stop ≤ charsBefore text.toList n.start :=
    h.disjoint.imp_of_mem fun hm hn hle =>
      charsBefore_mono (h.between_stop _ hm) (h.between_start _ hn) hle
  refine hchars.filterMap _ fun m n hle k hk k' hk' => ?_
  obtain ⟨-, l, -, rfl⟩ := ByteMatch.mark?_eq_some.1 hk
  obtain ⟨-, l', -, rfl⟩ := ByteMatch.mark?_eq_some.1 hk'
  exact hle

namespace ByteScan

/-- The place where a scan stands is between characters, and its two counts agree. -/
structure At (s : ByteScan) (text : String) : Prop where
  between : Between text s.bytes
  chars_eq : s.chars = charsBefore text.toList s.bytes

theorem at_start (text : String) : start.At text where
  between := String.Pos.Raw.isValid_zero
  chars_eq := by
    cases text.toList with
    | nil => rfl
    | cons c rest => exact (if_neg (Nat.not_le.2 c.utf8Size_pos)).symm

theorem take_eq_ok {start stop : Nat} {piece : String} (h : sliceBytes text start stop = some piece) :
    take text start stop = .ok piece := by
  rw [take, h]

/-- A match that does not begin before the place where the scan stands is marked if it is not empty
and gets a label, and the scan then stands no further than where the match ends. -/
theorem exists_step (hs : s.At text) (hm : Ascending text [m]) (hle : s.bytes ≤ m.start)
    (hlabel : m.isEmpty = false → ∃ l, label m.content = .ok l) :
    ∃ s', step text label s m = .ok s' ∧ s'.At text ∧
      s'.marks = s.marks ++ (m.mark? text label).toList ∧ s'.bytes ≤ m.stop := by
  have hself : m ∈ [m] := List.mem_singleton_self m
  have hstart := hm.between_start m hself
  have hstop := hm.between_stop m hself
  have hrange := hm.start_le m hself
  unfold step ByteMatch.mark?
  cases hempty : m.isEmpty with
  | true => exact ⟨s, rfl, hs, (List.append_nil _).symm, Nat.le_trans hle hrange⟩
  | false =>
    obtain ⟨l, hl⟩ := hlabel hempty
    rw [hl]
    cases l with
    | none => exact ⟨s, rfl, hs, (List.append_nil _).symm, Nat.le_trans hle hrange⟩
    | some l =>
      obtain ⟨before, hbefore, hchars, -⟩ := exists_sliceBytes hs.between hstart hle
      obtain ⟨read, hread, hchars', -⟩ := exists_sliceBytes hstart hstop hrange
      have hfirst : s.chars + before.length = charsBefore text.toList m.start := by
        rw [hs.chars_eq, hchars]
      refine ⟨⟨m.stop, charsBefore text.toList m.stop, s.marks ++
        [.labeled (charsBefore text.toList m.start) (charsBefore text.toList m.stop) l]⟩, ?_,
        ⟨hstop, rfl⟩, rfl, Nat.le_refl _⟩
      simp only [take_eq_ok hbefore, take_eq_ok hread, ok_bind, hfirst, ← hchars', Bool.false_eq_true,
        if_false]
      rfl

/-- Matches that may be asked for their labels are marked one after the other. -/
theorem exists_foldlM_step (hs : s.At text) (h : Ascending text found)
    (hle : ∀ m ∈ found, s.bytes ≤ m.start) (hlabels : Labelled label found) :
    ∃ s', found.foldlM (step text label) s = .ok s' ∧ s'.At text ∧
      s'.marks = s.marks ++ found.filterMap (ByteMatch.mark? text label) ∧
      ∀ n, s.bytes ≤ n → (∀ m ∈ found, m.stop ≤ n) → s'.bytes ≤ n := by
  induction found generalizing s with
  | nil => exact ⟨s, rfl, hs, (List.append_nil _).symm, fun n hn _ => hn⟩
  | cons m found ih =>
    obtain ⟨hfirst, hrest⟩ := List.forall_mem_cons.1 hle
    obtain ⟨hlabel, hlabels⟩ := List.forall_mem_cons.1 hlabels
    obtain ⟨s₁, hstep, hs₁, hmarks, hbytes⟩ :=
      exists_step hs (h.of_sublist (List.singleton_sublist.2 List.mem_cons_self)) hfirst hlabel
    have hbehind := (List.pairwise_cons.1 h.disjoint).1
    obtain ⟨s₂, hfold, hs₂, hmarks', hbytes'⟩ :=
      ih hs₁ (h.of_sublist (List.sublist_cons_self m found))
        (fun n hn => Nat.le_trans hbytes (hbehind n hn)) hlabels
    refine ⟨s₂, ?_, hs₂, ?_, fun n hn hstops => ?_⟩
    · rw [List.foldlM_cons, hstep]
      exact hfold
    · rw [hmarks', hmarks, List.append_assoc, List.filterMap_cons]
      cases ByteMatch.mark? text label m <;> rfl
    · obtain ⟨hstop, hstops⟩ := List.forall_mem_cons.1 hstops
      exact hbytes' n (Nat.le_trans hbytes hstop) hstops

end ByteScan

theorem scanBytes_eq_ok (h : Ascending text found) (hlabels : Labelled label found) :
    scanBytes text label found = .ok (found.filterMap (ByteMatch.mark? text label)) := by
  obtain ⟨s, hs, -, hmarks, -⟩ := ByteScan.exists_foldlM_step (ByteScan.at_start text) h
    (fun _ _ => Nat.zero_le _) hlabels
  rw [scanBytes, hs]
  exact congrArg Except.ok hmarks

/-- The first match that cannot be asked for its label ends the scan. -/
theorem scanBytes_eq_error {before after : List (ByteMatch α)} {fault : Fault}
    (h : Ascending text before) (hlabels : Labelled label before) (hsome : m.isEmpty = false)
    (hfault : label m.content = .error fault) :
    scanBytes text label (before ++ m :: after) = .error (.labelling fault) := by
  obtain ⟨s, hs, -⟩ := ByteScan.exists_foldlM_step (ByteScan.at_start text) h
    (fun _ _ => Nat.zero_le _) hlabels
  have hstep : ByteScan.step text label s m = .error (.labelling fault) := by
    rw [ByteScan.step, hsome, hfault]
    rfl
  rw [scanBytes, List.foldlM_append, hs]
  show (((m :: after).foldlM (ByteScan.step text label) s) >>= _) = _
  rw [List.foldlM_cons, hstep]
  rfl

/-- All pieces of the text that a scan asks for are there. -/
theorem scanBytes_ne_slice (h : Ascending text found) (start stop : Nat) :
    scanBytes text label found ≠ .error (.slice start stop) := by
  rcases forall_or_first (fun m => m.isEmpty = false → ∃ l, label m.content = .ok l) found with
    hlabels | ⟨before, m, after, rfl, hlabels, hfails⟩
  · rw [scanBytes_eq_ok h hlabels]
    nofun
  · obtain ⟨hsome, hfails⟩ := Classical.not_imp.1 hfails
    obtain ⟨fault, hfault⟩ := eq_error_of_not_ok hfails
    rw [scanBytes_eq_error (h.of_sublist (List.sublist_append_left ..)) hlabels hsome hfault]
    nofun

end

/-! ## The matches of a pattern -/

/-- The number of bytes that the first characters of a text take. -/
def bytesOf (text : String) (chars : Nat) : Nat := (String.ofList (text.toList.take chars)).utf8ByteSize

theorem between_bytesOf (text : String) (chars : Nat) : Between text (bytesOf text chars) := by
  refine String.Pos.Raw.isValid_iff_exists_append.2
    ⟨.ofList (text.toList.take chars), .ofList (text.toList.drop chars), ?_, rfl⟩
  rw [← String.ofList_append, List.take_append_drop, String.ofList_toList]

theorem charsBefore_bytesOf {text : String} {chars : Nat} (h : chars ≤ text.length) :
    charsBefore text.toList (bytesOf text chars) = chars := by
  have hcount := charsBefore_append (text.toList.take chars) (text.toList.drop chars)
  rw [List.take_append_drop, List.length_take, String.length_toList, Nat.min_eq_left h] at hcount
  exact hcount

theorem bytesOf_mono (text : String) {low high : Nat} (h : low ≤ high) :
    bytesOf text low ≤ bytesOf text high := by
  obtain ⟨more, hmore⟩ := List.take_prefix_take_left (l := text.toList) h
  rw [bytesOf, bytesOf, ← hmore, String.ofList_append, String.utf8ByteSize_append]
  exact Nat.le_add_right _ _

namespace Pattern

/-- A match with its place in bytes. -/
def Match.inBytes (text : String) (m : Match) : ByteMatch Match :=
  ⟨bytesOf text m.start.offset, bytesOf text m.stop.offset, m⟩

/-- The matches of a pattern in a text that are not empty, as an engine that counts bytes reports
them. -/
def found (p : Pattern) (text : String) : List (ByteMatch Match) :=
  (p.findAll text).map (Match.inBytes text)

theorem ascending_found (p : Pattern) (text : String) : Ascending text (p.found text) := by
  have h := p.consecutive_findAll text
  refine ⟨?_, ?_, ?_, ?_⟩
  · refine List.forall_mem_map.2 fun m hm => ?_
    exact bytesOf_mono text (Nat.le_of_lt (h.bounds m hm).2.1)
  · exact List.forall_mem_map.2 fun m _ => between_bytesOf text m.start.offset
  · exact List.forall_mem_map.2 fun m _ => between_bytesOf text m.stop.offset
  · exact List.pairwise_map.2 (h.disjoint.imp fun hle => bytesOf_mono text hle)

variable {p : Pattern} {text : String} {m : Match}

theorem isEmpty_inBytes (hm : m ∈ p.findAll text) : (m.inBytes text).isEmpty = false := by
  obtain ⟨-, hlt, hle⟩ := (p.consecutive_findAll text).bounds m hm
  refine beq_eq_false_iff_ne.2 fun he => ?_
  have hchars := congrArg (charsBefore text.toList) he
  rw [Match.inBytes, charsBefore_bytesOf (by omega), charsBefore_bytesOf hle] at hchars
  omega

theorem mark?_inBytes (label : Match → Except Fault (Option Label)) (hm : m ∈ p.findAll text) :
    (m.inBytes text).mark? text label = m.mark? label := by
  obtain ⟨-, hlt, hle⟩ := (p.consecutive_findAll text).bounds m hm
  rw [ByteMatch.mark?, isEmpty_inBytes hm, Match.mark?, Match.inBytes,
    charsBefore_bytesOf (by omega), charsBefore_bytesOf hle]
  rfl

/-- The marks of a text are those that a scan by bytes makes of the pattern's matches. -/
theorem scanBytes_found (p : Pattern) (labelling : Labelling) (text : String) :
    scanBytes text (labelling p) (p.found text) =
      (p.scan labelling text).mapError .labelling := by
  have hfound := p.ascending_found text
  rw [scan]
  rcases forall_or_first (fun m => ∃ l, labelling p m = .ok l) (p.findAll text) with
    hlabels | ⟨before, m, after, hsplit, hlabels, hfails⟩
  · have hlabelled : Labelled (labelling p) (p.found text) :=
      List.forall_mem_map.2 fun m hm _ => hlabels m hm
    have hmarks : (p.found text).filterMap (ByteMatch.mark? text (labelling p)) =
        (p.findAll text).filterMap (Match.mark? (labelling p)) := by
      rw [found, List.filterMap_map]
      exact List.filterMap_congr fun m hm => mark?_inBytes (labelling p) hm
    rw [scanBytes_eq_ok hfound hlabelled, marksOf_eq_ok hlabels, hmarks]
    rfl
  · obtain ⟨fault, hfault⟩ := eq_error_of_not_ok hfails
    have hm : m ∈ p.findAll text := hsplit ▸ List.mem_append_right before List.mem_cons_self
    have hmap : p.found text =
        before.map (Match.inBytes text) ++ m.inBytes text :: after.map (Match.inBytes text) := by
      rw [found, hsplit, List.map_append, List.map_cons]
    rw [hmap] at hfound
    rw [hmap, scanBytes_eq_error (hfound.of_sublist (List.sublist_append_left ..))
      (List.forall_mem_map.2 fun n hn _ => hlabels n hn) (isEmpty_inBytes hm) hfault, hsplit,
      marksOf_eq_error hlabels hfault]
    rfl

end Pattern

/-- The marks of a text, for any search engine that reports matches one behind the other, between
characters. No piece asked for on the way is missing. If the matches that are not empty can be asked
for their labels, there is one mark for each of those that has one, in order; it begins and ends at
the numbers of characters before the bytes where the match does. So marks are of some text each,
follow one another without overlap and end within the text. If a match cannot be asked, the first
such match decides. The matches of a pattern are of this kind, and the marks are those of
`Pattern.scan`. -/
theorem scanBytes_counts (text : String) :
    (∀ (α : Type) (label : α → Except Fault (Option Label)) (found : List (ByteMatch α)),
      Ascending text found →
      (∀ start stop, scanBytes text label found ≠ .error (.slice start stop)) ∧
      (Labelled label found → ∃ marks, scanBytes text label found = .ok marks ∧
        marks = found.filterMap (ByteMatch.mark? text label) ∧
        (∀ k ∈ marks, k.start < k.stop ∧ k.stop ≤ text.length) ∧
        marks.Pairwise fun k k' => k.stop ≤ k'.start) ∧
      ∀ before m after fault, found = before ++ m :: after → Labelled label before →
        m.isEmpty = false → label m.content = .error fault →
        scanBytes text label found = .error (.labelling fault)) ∧
    ∀ (p : Pattern) (labelling : Labelling), Ascending text (p.found text) ∧
      scanBytes text (labelling p) (p.found text) =
        (p.scan labelling text).mapError .labelling := by
  refine ⟨fun α label found h => ⟨scanBytes_ne_slice h, fun hlabels => ?_, ?_⟩, fun p labelling =>
    ⟨p.ascending_found text, p.scanBytes_found labelling text⟩⟩
  · exact ⟨_, scanBytes_eq_ok h hlabels, rfl, fun k hk => h.bounds_marks hk, h.disjoint_marks⟩
  · rintro before m after fault rfl hlabels hsome hfault
    exact scanBytes_eq_error (h.of_sublist (List.sublist_append_left ..)) hlabels hsome hfault

/-- Characters of two and of four bytes, an empty match, one without a label, another empty one that
could not be asked for one, and a number next to a string; and the same number where it cannot be
asked. -/
theorem scanBytes_counts_multibyte :
    let text := "é👋 42\"ü\""
    let label (answer : Except Fault (Option Label)) := answer
    let found : List (ByteMatch (Except Fault (Option Label))) :=
      [⟨0, 0, .ok (some "empty")⟩, ⟨2, 6, .ok none⟩, ⟨7, 9, .ok (some "number")⟩,
        ⟨9, 9, .error (.raised none)⟩, ⟨9, 13, .ok (some "string")⟩]
    let failing : List (ByteMatch (Except Fault (Option Label))) :=
      [⟨2, 6, .ok none⟩, ⟨7, 9, .error (.raised (some "no"))⟩, ⟨9, 13, .ok (some "string")⟩]
    (Ascending text found ∧ Labelled label found ∧
      scanBytes text label found = .ok [.labeled 3 5 "number", .labeled 5 8 "string"]) ∧
    Ascending text failing ∧
      scanBytes text label failing = .error (.labelling (.raised (some "no"))) := by
  intro text label found failing
  have hfound : Ascending text found :=
    ⟨by decide, by decide +kernel, by decide +kernel, by decide⟩
  have hfailing : Ascending text failing :=
    ⟨by decide, by decide +kernel, by decide +kernel, by decide⟩
  have hlabels : Labelled label found := by
    intro m hm hsome
    simp only [found, List.mem_cons, List.not_mem_nil, or_false] at hm
    rcases hm with rfl | rfl | rfl | rfl | rfl
    · exact ⟨_, rfl⟩
    · exact ⟨_, rfl⟩
    · exact ⟨_, rfl⟩
    · cases hsome
    · exact ⟨_, rfl⟩
  obtain ⟨hengine, -⟩ := scanBytes_counts text
  obtain ⟨-, hmarks, -⟩ := hengine _ label found hfound
  obtain ⟨marks, hscan, hcounted, -⟩ := hmarks hlabels
  obtain ⟨-, -, hfails⟩ := hengine _ label failing hfailing
  refine ⟨⟨hfound, hlabels, ?_⟩, hfailing,
    hfails [⟨2, 6, .ok none⟩] ⟨7, 9, .error (.raised (some "no"))⟩ _ _ rfl ?_ rfl rfl⟩
  · rw [hscan, hcounted]
    exact congrArg Except.ok (by decide +kernel)
  · exact List.forall_mem_singleton.2 fun _ => ⟨_, rfl⟩

end Highlight
