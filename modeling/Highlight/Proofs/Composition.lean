import Highlight.Computation
import Highlight.Proofs.Scan
import Highlight.Proofs.Spans.Labels

/-!
# What computed styles are made of

If nobody breaks off, cancels the request or gives spans of a wrong length (`Contributor.Gives`), the
styles of a snapshot carry, at every offset, the label of the match there and the labels of all
contributors, and nothing else (`highlight_unites`). Each contributor adds its labels to those there
are (`overlayContributors_eq_done`), so none of them takes a label away, and their order is of no
consequence.
-/

namespace Highlight

/-- The contributor gives `given`, which covers the snapshot, and leaves its request alone. -/
structure Contributor.Gives (c : Contributor) (worker : String) (snapshot : Snapshot)
    (given : Spans) : Prop where
  contribution : c.contribute worker snapshot = ⟨.ok given, false⟩
  covers : given.length = snapshot.length

variable {number : RequestNumber} {worker : String} {snapshot : Snapshot}

/-- A contributor gives only one span set. -/
theorem Contributor.Gives.unique {c : Contributor} {given given' : Spans}
    (h : c.Gives worker snapshot given) (h' : c.Gives worker snapshot given') : given = given' := by
  have he := h.contribution.symm.trans h'.contribution
  exact Except.ok.inj (Contribution.mk.inj he).1

variable (number) in
/-- Contributors that give spans are laid over what there is, one after the other. -/
theorem overlayContributors_eq_done {contributors : List Contributor} {spans : Spans}
    (hmax : snapshot.length ≤ maxLength) (hspans : spans.length = snapshot.length)
    (h : ∀ c ∈ contributors, ∃ given, c.Gives worker snapshot given) :
    ∃ s, overlayContributors number worker snapshot false spans contributors = .done s false ∧
      s.length = snapshot.length ∧
      ∀ o y, s.Has o y ↔
        spans.Has o y ∨
          ∃ c ∈ contributors, ∃ given, c.Gives worker snapshot given ∧ given.Has o y := by
  induction contributors generalizing spans with
  | nil => exact ⟨spans, rfl, hspans, by simp⟩
  | cons c rest ih =>
    obtain ⟨⟨given, hgiven⟩, hrest⟩ := List.forall_mem_cons.1 h
    obtain ⟨merged, hmerged⟩ := Spans.exists_merge (a := spans) (b := given) (by
      rw [hspans, hgiven.covers, Nat.max_self]
      exact hmax)
    have hlen : merged.length = snapshot.length := by
      rw [Spans.length_of_merge hmerged, hspans, hgiven.covers, Nat.max_self]
    obtain ⟨s, hs, hslen, hhas⟩ := ih hlen hrest
    refine ⟨s, ?_, hslen, fun o y => ?_⟩
    · simp only [overlayContributors, hgiven.contribution, Bool.or_self]
      rw [if_neg (fun hne => hne hgiven.covers), hmerged]
      exact hs
    · have hfirst : (∃ given, c.Gives worker snapshot given ∧ given.Has o y) ↔ given.Has o y :=
        ⟨fun ⟨given', hgiven', hy⟩ => hgiven.unique hgiven' ▸ hy, fun hy => ⟨given, hgiven, hy⟩⟩
      simp only [hhas, Spans.has_of_merge hmerged, List.mem_cons, exists_eq_or_imp, hfirst,
        or_assoc]

/-- A text that is not too long has marks, and these give every character the label of the match
that reads it. -/
theorem Pattern.exists_scan (p : Pattern) {label : Labelling} {text : String}
    (hmax : text.length ≤ maxLength) (h : ∀ m ∈ p.findAll text, ∃ l, label p m = .ok l) :
    ∃ marks spans, p.scan label text = .ok marks ∧ Spans.ofMarks marks text.length = .ok spans ∧
      ∀ o y, o < text.length → (spans.Has o y ↔
        ∃ m ∈ p.findAll text,
          m.start.offset ≤ o ∧ o < m.stop.offset ∧ label p m = .ok (some y)) := by
  have hc := p.consecutive_findAll text
  obtain ⟨spans, hspans⟩ :=
    Spans.exists_ofMarks ((p.findAll text).filterMap (Pattern.Match.mark? (label p))) hmax
  refine ⟨_, spans, Pattern.marksOf_eq_ok h, hspans, fun o y ho => ?_⟩
  rw [Spans.has_iff_of_labelsAt (Spans.labelsAt_of_ofMarks hspans ho),
    mem_markedAt_iff (fun _ hk => hc.bounds_marks hk) hc.disjoint_marks, Pattern.exists_mark_iff]

/-- After the scan it is the contributors' turn. -/
theorem highlight_eq_overlay (language : Language) {pattern : Pattern} {marks : List Mark}
    {spans : Spans} (hpattern : language.pattern = some pattern)
    (hmarks : pattern.scan language.labelling snapshot.text = .ok marks)
    (hspans : Spans.ofMarks marks snapshot.length = .ok spans) (extensions : List Contributor) :
    highlight number worker snapshot language extensions false =
      overlayContributors number worker snapshot false spans
        (language.contributors ++ extensions) := by
  have hscanned : (pattern.scan language.labelling snapshot.text >>= fun marks =>
      Spans.ofMarks marks snapshot.length) = .ok spans := by
    rw [hmarks]
    exact hspans
  simp only [highlight, hpattern, hscanned, Bool.false_eq_true, if_false]

/-- The styles of a snapshot in a language with a pattern, where all matches can be asked for their
labels and all contributors give spans: they are normal, cover the text, and carry at every offset
the label of the match that reads the character, of which there is at most one, and the labels of
all contributors. They are the same whatever the request's number and the contributors' order. -/
theorem highlight_unites (number : RequestNumber) (worker : String) (snapshot : Snapshot)
    (language : Language) (extensions : List Contributor) (pattern : Pattern)
    (hpattern : language.pattern = some pattern) (hmax : snapshot.length ≤ maxLength)
    (hlabels : ∀ m ∈ pattern.findAll snapshot.text, ∃ l, language.labelling pattern m = .ok l)
    (hgives : ∀ c ∈ language.contributors ++ extensions, ∃ given, c.Gives worker snapshot given) :
    ∃ s, highlight number worker snapshot language extensions false = .done s false ∧
      Normal s.runs ∧ s.length = snapshot.length ∧
      (pattern.findAll snapshot.text).Pairwise (fun m n => m.stop.offset ≤ n.start.offset) ∧
      (∀ o < snapshot.length, ∃ labels, s.labelsAt o = some labels ∧ ∀ y, y ∈ labels ↔
        (∃ m ∈ pattern.findAll snapshot.text, m.start.offset ≤ o ∧ o < m.stop.offset ∧
          language.labelling pattern m = .ok (some y)) ∨
        ∃ c ∈ language.contributors ++ extensions, ∃ given,
          c.Gives worker snapshot given ∧ given.Has o y) ∧
      ∀ number' contributors' extensions',
        (contributors' ++ extensions').Perm (language.contributors ++ extensions) →
        highlight number' worker snapshot { language with contributors := contributors' } extensions'
          false = .done s false := by
  obtain ⟨marks, spans, hmarks, hspans, hlexical⟩ := pattern.exists_scan hmax hlabels
  have hlen : spans.length = snapshot.length := Spans.length_of_ofMarks hspans
  -- Contributors in any order end with a set of the same labels.
  have hoverlay : ∀ number' contributors',
      contributors'.Perm (language.contributors ++ extensions) →
      ∃ s, overlayContributors number' worker snapshot false spans contributors' = .done s false ∧
        s.length = snapshot.length ∧
        ∀ o y, s.Has o y ↔ spans.Has o y ∨ ∃ c ∈ language.contributors ++ extensions, ∃ given,
          c.Gives worker snapshot given ∧ given.Has o y := by
    intro number' contributors' hperm
    obtain ⟨s, hs, hslen, hhas⟩ := overlayContributors_eq_done number' hmax hlen
      fun c hc => hgives c (hperm.mem_iff.1 hc)
    exact ⟨s, hs, hslen, fun o y => by simp only [hhas, hperm.mem_iff]⟩
  obtain ⟨s, hs, hslen, hhas⟩ := hoverlay number _ (.refl _)
  refine ⟨s, ?_, s.normal, hslen, (pattern.consecutive_findAll _).disjoint, fun o ho => ?_, ?_⟩
  · rw [highlight_eq_overlay language hpattern hmarks hspans]
    exact hs
  · obtain ⟨labels, hl⟩ := exists_labelsAt (hslen ▸ ho : o < s.length)
    refine ⟨labels, hl, fun y => ?_⟩
    rw [← Spans.has_iff_of_labelsAt hl, hhas, hlexical o y ho]
  · intro number' contributors' extensions' hperm
    obtain ⟨s', hs', hslen', hhas'⟩ := hoverlay number' _ hperm
    have hsame : s' = s :=
      Spans.ext_has (hslen'.trans hslen.symm) fun o y => by rw [hhas', hhas]
    rw [highlight_eq_overlay { language with contributors := contributors' } hpattern hmarks
      hspans, hs', hsame]

/-- A match, a contributor of the language and one of the selection meet at one character. -/
theorem highlight_unites_at_selection :
    ∃ pattern language extension s,
      highlight 1 "worker" ⟨"ab", 0, some ⟨1, 2⟩, 0⟩ language [extension] false = .done s false ∧
      language.pattern = some pattern ∧ s.length = 2 ∧ s.Has 1 "b" ∧ s.Has 1 "all" ∧
      s.Has 1 "selected" ∧
      highlight 2 "worker" ⟨"ab", 0, some ⟨1, 2⟩, 0⟩
        { language with contributors := [extension] } language.contributors false =
          .done s false := by
  let pattern : Pattern := ⟨"b", .text ['b'], []⟩
  let snapshot : Snapshot := ⟨"ab", 0, some ⟨1, 2⟩, 0⟩
  let everywhere : Contributor := .ofSpans "everywhere" fun s => .ok (.labeled s.length "all")
  let selected : Contributor := .ofSpans "selected" fun s =>
    Spans.ofMarks (s.selection.toList.map fun r => .labeled r.start r.stop "selected") s.length
  let language : Language :=
    { Language.ofPattern "b" (some pattern) [everywhere] with labelling := .matchedText }
  have htwo : snapshot.length = 2 := by decide
  have hmatch : ∃ m ∈ pattern.findAll "ab", m.start.offset ≤ 1 ∧ 1 < m.stop.offset ∧
      language.labelling pattern m = .ok (some "b") :=
    ⟨⟨⟨1, some 'a', ['b']⟩, ⟨2, some 'b', []⟩, []⟩, by decide +kernel, by decide, by decide,
      congrArg (fun text => Except.ok (some text)) (by decide +kernel)⟩
  have heverywhere : everywhere.Gives "worker" snapshot (.labeled 2 "all") := by
    refine ⟨?_, htwo.symm⟩
    show (⟨.ok (.labeled snapshot.length "all"), false⟩ : Contribution) = _
    rw [htwo]
  have hselected : selected.Gives "worker" snapshot
      ⟨[⟨1, .empty⟩, ⟨1, .single "selected"⟩], ⟨Nat.one_pos, by decide, Nat.one_pos⟩⟩ := by
    refine ⟨?_, htwo.symm⟩
    show (⟨Spans.ofMarks _ snapshot.length, false⟩ : Contribution) = _
    rw [htwo]
    rfl
  obtain ⟨s, hs, -, hlen, -, hlabels, hperm⟩ :=
    highlight_unites 1 "worker" snapshot language [selected] pattern rfl (by decide)
      (fun m _ => ⟨some m.text, rfl⟩)
      (by simpa [language, Language.ofPattern] using ⟨⟨_, heverywhere⟩, ⟨_, hselected⟩⟩)
  obtain ⟨labels, hat, hmem⟩ := hlabels 1 (by decide)
  refine ⟨pattern, language, selected, s, hs, rfl, hlen.trans htwo, ?_, ?_, ?_,
    hperm 2 _ _ (.swap ..)⟩
  · exact ⟨labels, hat, (hmem "b").2 (.inl hmatch)⟩
  · exact ⟨labels, hat, (hmem "all").2 (.inr ⟨everywhere, List.mem_cons_self, _, heverywhere,
      .single "all", rfl, by decide⟩)⟩
  · exact ⟨labels, hat, (hmem "selected").2 (.inr ⟨selected, List.mem_cons_of_mem _
      List.mem_cons_self, _, hselected, .single "selected", rfl, by decide⟩)⟩

end Highlight
