import Highlight.Proofs.Spans.Json

/-!
# One normal form for every way to say it

Run lists that say the same are built to the same span set, whatever empty runs and joints are in
them, and nothing else is lost: the labels at each offset are those of the run that covers it
(`labelsAt_append_cons`). Lookups go through the runs with their offsets
(`Spans.labelsAt_eq_find?_stretches`).

* `Spans.build_eq_ok`: which run lists are built to a given span set;
* `Spans.build_canonical`: what is built of any run list, by one call, run by run, or from JSON.
-/

namespace Highlight

/-! ## Lookups -/

/-- The run that covers an offset says which labels are there. -/
theorem labelsAt_append_cons {before after : List Run} {r : Run} {o : Nat}
    (h : totalLength before ≤ o) (h' : o < totalLength before + r.length) :
    labelsAt (before ++ r :: after) o = some r.labels := by
  rw [labelsAt_append_of_le h]
  exact labelsAt_cons_of_lt (by omega) r.labels after

namespace Spans

/-- Whether an offset lies within a stretch. -/
def Stretch.contains (s : Stretch) (o : Nat) : Bool := s.start ≤ o && o < s.stop

theorem labelsAt_eq_find?_stretchesFrom (start : Nat) (runs : List Run) (o : Nat) :
    Highlight.labelsAt runs o =
      ((stretchesFrom start runs).find? (·.contains (start + o))).map (·.labels) := by
  induction runs generalizing start o with
  | nil => rfl
  | cons r runs ih =>
    rw [stretchesFrom, List.find?_cons]
    by_cases ho : o < r.length
    · have hfirst : Stretch.contains ⟨start, start + r.length, r.labels⟩ (start + o) = true := by
        simp only [Stretch.contains, Bool.and_eq_true, decide_eq_true_eq]
        omega
      rw [hfirst, labelsAt_cons_of_lt ho]
      rfl
    · have hfirst : Stretch.contains ⟨start, start + r.length, r.labels⟩ (start + o) = false := by
        simp only [Stretch.contains, Bool.and_eq_false_iff, decide_eq_false_iff_not]
        omega
      have hoffset : start + r.length + (o - r.length) = start + o := by omega
      rw [hfirst, labelsAt_cons_of_le (by omega), ih (start + r.length), hoffset]

/-- The labels at an offset are found by going through the runs with their offsets. -/
theorem labelsAt_eq_find?_stretches (s : Spans) (o : Nat) :
    s.labelsAt o = (s.stretches.find? (·.contains o)).map (·.labels) := by
  have h := labelsAt_eq_find?_stretchesFrom 0 s.runs o
  rwa [Nat.zero_add] at h

/-! ## What is built -/

/-- Run lists that are not too long are built to the same span set if and only if they say the same
at every offset. -/
theorem build_eq_ok {runs : List Run} {s : Spans} (h : s.length ≤ maxLength) :
    build runs = .ok s ↔ ∀ o, Highlight.labelsAt runs o = s.labelsAt o := by
  refine ⟨fun hs o => (labelsAt_of_build hs o).symm, fun hsame => ?_⟩
  have hlength : totalLength runs ≤ s.length := by
    rw [← labelsAt_eq_none_iff, hsame]
    exact labelsAt_eq_none_of_le (Nat.le_refl _)
  obtain ⟨t, ht⟩ := exists_build (Nat.le_trans hlength h)
  have hts : t = s := ext_labelsAt fun o => (labelsAt_of_build ht o).trans (hsame o)
  rw [ht, hts]

/-- The JSON text of a list of runs, on one line. -/
def encodeRuns (runs : List Run) : String := .ofList (Json.array (runs.map Run.toJson)).compact

theorem decode_encodeRuns {runs : List Run} (h : ∀ r ∈ runs, r.length ≤ maxLength) :
    decode (encodeRuns runs) = (build runs).map .ok := by
  have hwritten := (Run.natural_array_fields runs true).written_compact
  exact decode_of_written_runs h hwritten

/-- What becomes of any list of runs. If they cover at most `maxLength` characters, they are built to
a normal span set of their total length. It is the same if the runs are added one by one and if they
are read from any JSON text for them. Its labels, found through the runs with their offsets, are at
every offset those of the run given that covers it, and there are none from the end on; and it is
what all run lists that say the same are built to, and no others. Runs that cover more are a fault,
however they are put together. -/
theorem build_canonical (runs : List Run) :
    if totalLength runs ≤ maxLength then
      ∃ s, build runs = .ok s ∧
        (∃ b, runs.foldlM Builder.add .empty = .ok b ∧ b.spans = s ∧ b.length = totalLength runs) ∧
        decode (encodeRuns runs) = .ok (.ok s) ∧
        (∀ text items rest, Json.readPrefix? text.toList = some (.array items, rest) →
          items.mapM Run.ofJson? = some runs → Json.isEnd rest → decode text = .ok (.ok s)) ∧
        Normal s.runs ∧ s.length = totalLength runs ∧
        (∀ t ∈ s.stretches, t.start < t.stop ∧ t.stop ≤ s.length) ∧
        (∀ o, s.labelsAt o = (s.stretches.find? (·.contains o)).map (·.labels)) ∧
        (∀ before r after, runs = before ++ r :: after →
          ∀ o, totalLength before ≤ o → o < totalLength before + r.length →
            s.labelsAt o = some r.labels) ∧
        (∀ o, totalLength runs ≤ o → s.labelsAt o = none) ∧
        ∀ runs', build runs' = .ok s ↔
          ∀ o, Highlight.labelsAt runs' o = Highlight.labelsAt runs o
    else
      build runs = .error .lengthOverflow ∧
        runs.foldlM Builder.add .empty = .error .lengthOverflow ∧
        ((∀ r ∈ runs, r.length ≤ maxLength) →
          decode (encodeRuns runs) = .error .lengthOverflow) ∧
        (∀ text items rest, Json.readPrefix? text.toList = some (.array items, rest) →
          items.mapM Run.ofJson? = some runs → decode text = .error .lengthOverflow) ∧
        Fault.lengthOverflow.message = "attempt to add with overflow" := by
  split
  · rename_i hfits
    obtain ⟨b, hb⟩ := Builder.exists_foldlM_add (b := .empty) (by rwa [Builder.empty, Nat.zero_add])
    have hbuild : build runs = .ok b.spans := by
      rw [build, hb]
      rfl
    have hlength : b.spans.length = totalLength runs := length_of_build hbuild
    have hlabels := labelsAt_of_build hbuild
    refine ⟨b.spans, hbuild, ⟨b, hb, rfl, by rw [← b.length_spans, hlength]⟩, ?_, ?_, b.spans.normal,
      hlength, fun _ ht => b.spans.within_stretches ht, labelsAt_eq_find?_stretches b.spans, ?_, ?_,
      fun runs' => ?_⟩
    · rw [decode_encodeRuns fun r hr => Nat.le_trans (length_le_totalLength hr) hfits, hbuild]
      rfl
    · intro text items rest hread hruns hend
      rw [decode_of_read hread hruns, hbuild]
      exact congrArg Except.ok (if_pos hend)
    · rintro before r after rfl o hle hlt
      rw [hlabels, labelsAt_append_cons hle hlt]
    · intro o ho
      rw [hlabels, labelsAt_eq_none_iff.2 ho]
    · rw [build_eq_ok (by rwa [hlength])]
      simp only [hlabels]
  · rename_i hlong
    have hbuild : build runs = .error .lengthOverflow := build_eq_error (Nat.not_le.1 hlong)
    refine ⟨hbuild, ?_, fun h => ?_, fun text items rest hread hruns => ?_, rfl⟩
    · refine Builder.foldlM_add_eq_error (Nat.zero_le _) ?_
      rw [Builder.empty, Nat.zero_add]
      exact Nat.not_le.1 hlong
    · rw [decode_encodeRuns h, hbuild]
      rfl
    · rw [decode_of_read hread hruns, hbuild]
      rfl

/-- Empty runs and a joint inside a keyword, read from JSON with the fields of a run in either form
and a label given twice; and runs that are too long by one character. -/
theorem build_canonical_interleaved :
    let runs : List Run :=
      [⟨0, .single "x"⟩, .labeled 2 "keyword", .plain 0, .labeled 3 "keyword", .plain 1]
    let text := "[[0,[\"x\"]],\x7B\"labels\":[\"keyword\",\"keyword\"],\"length\":2\x7D,[0,[]]," ++
      "[3,[\"keyword\"]],[1,[]]]"
    let long : List Run := [.plain maxLength, .plain 0, .labeled 1 "keyword"]
    totalLength runs ≤ maxLength ∧
      (∃ s, build runs = .ok s ∧ build [.labeled 5 "keyword", .plain 1] = .ok s ∧
        decode text = .ok (.ok s) ∧ s.length = 6 ∧ s.labelsAt 3 = some (.single "keyword") ∧
        s.labelsAt 6 = none) ∧
      build long = .error .lengthOverflow ∧ decode (encodeRuns long) = .error .lengthOverflow := by
  intro runs text long
  have hfits : totalLength runs ≤ maxLength := by decide
  have hlong : ¬totalLength long ≤ maxLength := by decide
  have hbuilt := build_canonical runs
  rw [if_pos hfits] at hbuilt
  obtain ⟨s, hs, -, -, hread, -, hlength, -, -, hlabels, hend, hsame⟩ := hbuilt
  have hfault := build_canonical long
  rw [if_neg hlong] at hfault
  let fields (n : Nat) (texts : List String) : Json := .array [.nat n, .array (texts.map .string)]
  let items : List Json :=
    [fields 0 ["x"],
      .ofMembers [("labels", .array (["keyword", "keyword"].map .string)), ("length", .nat 2)],
      fields 0 [], fields 3 ["keyword"], fields 1 []]
  have hstrings : ∀ texts : List String, (Json.array (texts.map .string)).Natural := fun texts =>
    .array (List.forall_mem_map.2 fun text _ => .string text)
  have hfields : ∀ n texts, (fields n texts).Natural := fun n texts =>
    .array (by simpa using ⟨.nat n, hstrings texts⟩)
  have hitems : (Json.array items).Natural :=
    .array (by simpa [items] using ⟨hfields 0 _,
      .object (by simpa using ⟨hstrings ["keyword", "keyword"], .nat 2⟩),
      hfields 0 _, hfields 3 _, hfields 1 _⟩)
  have htext : text.toList = (Json.array items).compact ++ [] := by decide +kernel
  have hprefix : Json.readPrefix? text.toList = some (.array items, []) := by
    rw [htext]
    exact Json.readPrefix?_of_written hitems.written_compact nofun
  refine ⟨hfits, ⟨s, hs, (hsame _).2 fun o => ?_, hread text items [] hprefix rfl rfl, hlength,
    hlabels [⟨0, .single "x"⟩, .labeled 2 "keyword", .plain 0] (.labeled 3 "keyword") [.plain 1] rfl
      3 (by decide) (by decide),
    hend 6 (by decide)⟩, hfault.1, hfault.2.2.1 (by decide)⟩
  match o with
  | 0 | 1 | 2 | 3 | 4 | 5 | o + 6 => rfl

end Spans

end Highlight
