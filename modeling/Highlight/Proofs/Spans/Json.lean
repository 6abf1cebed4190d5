import Highlight.Codec
import Highlight.Proofs.Json.Written
import Highlight.Proofs.Spans.Labels

/-!
# Span sets as JSON

A span set is written as the list of its runs and read back by building it anew. Since runs are
normal, building them gives the same set (`Spans.build_runs`), so reading what was written changes
nothing, whatever the labels and lengths are (`Spans.decode_encode`). The order in which the members
of a run are written is of no consequence (`Run.ofJson?_fields`).
-/

namespace Highlight

/-! ## Labels and runs -/

theorem Labels.ofList_toList (s : Labels) : Labels.ofList s.toList = s :=
  Labels.ext fun _ => Labels.mem_ofList

theorem Labels.natural_toJson (s : Labels) : s.toJson.Natural := by
  refine .array fun item hitem => ?_
  obtain ⟨l, -, rfl⟩ := List.mem_map.1 hitem
  exact .string l

theorem Labels.ofJson?_toJson (s : Labels) : Labels.ofJson? s.toJson = some s := by
  have hmap : (s.toList.map Json.string).mapM Json.text? = some s.toList := by
    rw [List.mapM_map]
    exact (List.mapM_pure (m := Option)).trans (congrArg some (List.map_id _))
  show ((s.toList.map Json.string).mapM Json.text? >>= fun texts => some (Labels.ofList texts)) = _
  rw [hmap, Option.bind_eq_bind, Option.bind_some, Labels.ofList_toList]

/-- The fields of a run, in either order. -/
def Run.fields (r : Run) (lengthFirst : Bool) : List (String × Json) :=
  if lengthFirst then [("length", .nat r.length), ("labels", r.labels.toJson)]
  else [("labels", r.labels.toJson), ("length", .nat r.length)]

theorem Run.natural_fields (r : Run) (lengthFirst : Bool) :
    (Json.ofMembers (r.fields lengthFirst)).Natural := by
  refine .object fun m hm => ?_
  have hm' : m = ("length", .nat r.length) ∨ m = ("labels", r.labels.toJson) := by
    cases lengthFirst <;> simpa [fields, or_comm] using hm
  rcases hm' with rfl | rfl
  · exact .nat _
  · exact r.labels.natural_toJson

/-- A run is read from an object with its two fields, whichever comes first. -/
theorem Run.ofJson?_fields {r : Run} (h : r.length < UInt64.size) (lengthFirst : Bool) :
    Run.ofJson? (.ofMembers (r.fields lengthFirst)) = some r := by
  -- Either order has each of the two keys once.
  have hread : Run.ofJson? (.ofMembers (r.fields lengthFirst)) =
      (Json.nat r.length).natural?.bind fun n =>
        (Labels.ofJson? r.labels.toJson).bind fun labels => some ⟨n, labels⟩ := by
    cases lengthFirst <;> rfl
  rw [hread, Json.natural?_nat h, Labels.ofJson?_toJson]
  rfl

/-! ## Span sets -/

theorem length_le_totalLength {r : Run} {runs : List Run} (h : r ∈ runs) :
    r.length ≤ totalLength runs := by
  induction runs with
  | nil => cases h
  | cons s runs ih =>
    rw [totalLength]
    rcases List.mem_cons.1 h with rfl | h
    · exact Nat.le_add_right _ _
    · exact Nat.le_trans (ih h) (Nat.le_add_left _ _)

/-- Runs whose lengths fit are read from their fields. -/
theorem Run.mapM_ofJson?_fields {runs : List Run} (h : ∀ r ∈ runs, r.length ≤ maxLength)
    (lengthFirst : Bool) :
    (runs.map fun r => Json.ofMembers (r.fields lengthFirst)).mapM Run.ofJson? = some runs := by
  induction runs with
  | nil => rfl
  | cons r runs ih =>
    obtain ⟨hr, hruns⟩ := List.forall_mem_cons.1 h
    rw [List.map_cons, List.mapM_cons,
      Run.ofJson?_fields (Nat.lt_of_le_of_lt hr (by decide)) lengthFirst, ih hruns]
    rfl

theorem Run.natural_array_fields (runs : List Run) (lengthFirst : Bool) :
    (Json.array (runs.map fun r => .ofMembers (r.fields lengthFirst))).Natural := by
  refine .array fun item hitem => ?_
  obtain ⟨r, -, rfl⟩ := List.mem_map.1 hitem
  exact r.natural_fields lengthFirst

namespace Spans

/-- Normal runs are built to what they are. -/
theorem build_runs {s : Spans} (h : s.length ≤ maxLength) : build s.runs = .ok s := by
  obtain ⟨t, ht⟩ := exists_build h
  rw [ht, ext_labelsAt fun o => labelsAt_of_build ht o]

/-- A text that begins with an array of runs is read as what is built of them, if nothing follows. A
fault of building shows whatever follows. -/
theorem decode_of_read {text : String} {items : List Json} {rest : List Char} {runs : List Run}
    (hread : Json.readPrefix? text.toList = some (.array items, rest))
    (hruns : items.mapM Run.ofJson? = some runs) :
    decode text =
      (build runs).map fun s => if Json.isEnd rest then .ok s else .error ⟨⟩ := by
  simp only [decode, hread, hruns]
  cases build runs <;> rfl

/-- A text in which runs are written, with the members of each in either order, is read as what is
built of them. -/
theorem decode_of_written_runs {runs : List Run} {text : List Char} {lengthFirst : Bool}
    (h : ∀ r ∈ runs, r.length ≤ maxLength)
    (hwritten : Json.Written (.array (runs.map fun r => .ofMembers (r.fields lengthFirst))) text) :
    decode (.ofList text) = (build runs).map .ok := by
  have hread : Json.readPrefix? (String.ofList text).toList =
      some (.array (runs.map fun r => .ofMembers (r.fields lengthFirst)), []) := by
    rw [String.toList_ofList, ← List.append_nil text]
    exact Json.readPrefix?_of_written hwritten fun c hc => (Option.not_mem_none c hc).elim
  rw [decode_of_read hread (Run.mapM_ofJson?_fields h lengthFirst)]
  rfl

theorem natural_runs (s : Spans) (lengthFirst : Bool) :
    (Json.array (s.runs.map fun r => .ofMembers (r.fields lengthFirst))).Natural :=
  Run.natural_array_fields s.runs lengthFirst

/-- A text in which the runs of a span set are written, with the members of each in either order, is
read as that set. -/
theorem decode_of_written {s : Spans} {text : List Char} {lengthFirst : Bool}
    (h : s.length ≤ maxLength)
    (hwritten : Json.Written (.array (s.runs.map fun r => .ofMembers (r.fields lengthFirst))) text) :
    decode (.ofList text) = .ok (.ok s) := by
  have hlengths : ∀ r ∈ s.runs, r.length ≤ maxLength := fun r hr =>
    Nat.le_trans (length_le_totalLength hr) h
  rw [decode_of_written_runs hlengths hwritten, build_runs h]
  rfl

/-- Reading what was written gives the set that was written, with all its runs and its length. -/
theorem decode_encode (s : Spans) (h : s.length ≤ maxLength) : decode s.encode = .ok (.ok s) :=
  decode_of_written h (s.natural_runs true).written_compact

/-- Labels with an empty text, a quotation mark, a backslash, a control character and an emoji, and
as long a text as there can be. -/
theorem decode_encode_escapes :
    ∃ s : Spans, s.length = maxLength ∧
      s.labelsAt 0 = some (.ofList ["", "\"\\", "\x00\n", "😀"]) ∧
      decode s.encode = .ok (.ok s) := by
  let labels : Labels := .ofList ["", "\"\\", "\x00\n", "😀"]
  let s : Spans := ⟨[⟨1, labels⟩, .plain (maxLength - 1)], Nat.one_pos, by decide, (by decide : 0 < maxLength - 1)⟩
  exact ⟨s, by decide, rfl, decode_encode s (by decide)⟩

end Spans

end Highlight
