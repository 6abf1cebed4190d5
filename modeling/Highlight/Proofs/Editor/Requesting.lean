import Highlight.Proofs.Editor.Agreement
import Highlight.Proofs.Editor.Edits

/-!
# When requests are made

Which requests are made on the way from one editor to another (`Issues`): each of them supersedes
the one before, so in the end all but the current one are cancelled. An operation asks for styles
when that is what it is for (`Operation.asks`), and otherwise when what styles depend on has changed
in the end (`Unsettles`), however many parts of it changed on the way. So it makes one request or
none (`operate_issues`).
-/

namespace Highlight.Editor

/-- The requests `made` were made on the way from `e` to `e'`, and whatever was current on the way
is still current or was cancelled. -/
structure Issues (e e' : Editor) (made : List Request) : Prop where
  working_eq : e'.requests.working = e.requests.working ++ made
  lastNumber_eq : e'.requests.lastNumber = e.requests.lastNumber + made.length
  cancelled_subset : e.requests.cancelled ⊆ e'.requests.cancelled
  superseded : ∀ r, e.requests.current = some r ∨ r ∈ made →
    e'.requests.current = some r ∨ r.number ∈ e'.requests.cancelled

/-- The text is not the same any more, or the caret is elsewhere and styles depend on it. -/
def Unsettles (e e' : Editor) : Prop :=
  e'.text ≠ e.text ∨ e'.caret ≠ e.caret ∧ e.settings.caretSensitive = true

/-- On the way from `e` to `e'` one request was made, for the state `e'`, and it is current in place
of the one before. -/
structure Renews (e e' : Editor) : Prop where
  issues : e.Issues e' [e'.document.request]
  current_eq : e'.requests.current = some e'.document.request
  mem_cancelled : ∀ r, e.requests.current = some r → r.number ∈ e'.requests.cancelled

/-- On the way from `e` to `e'` styles were asked for once, in the end, if that was `due`, and else
nothing happened to the requests. -/
structure Asked (e e' : Editor) (due : Prop) : Prop where
  issued : due → e'.language.pattern.isSome → e.Renews e'
  withdrawn : due → e'.language.pattern = none → e.Issues e' []
  kept : ¬due → e'.requests = e.requests

variable {e m e' : Editor} {first second : List Request}

/-! ## Requests made -/

theorem issues_of_eq (h : e'.requests = e.requests) : e.Issues e' [] where
  working_eq := by rw [h, List.append_nil]
  lastNumber_eq := by rw [h]; rfl
  cancelled_subset := by rw [h]; exact List.Subset.refl _
  superseded r hr := by
    rw [h]
    exact .inl (hr.resolve_right List.not_mem_nil)

theorem Issues.trans (h : e.Issues m first) (h' : m.Issues e' second) :
    e.Issues e' (first ++ second) where
  working_eq := by rw [h'.working_eq, h.working_eq, List.append_assoc]
  lastNumber_eq := by
    rw [h'.lastNumber_eq, h.lastNumber_eq, List.length_append, Nat.add_assoc]
  cancelled_subset := List.Subset.trans h.cancelled_subset h'.cancelled_subset
  superseded r hr := by
    -- The second part speaks of what it made; what became of all else, the first part says.
    have hmid : (m.requests.current = some r ∨ r.number ∈ m.requests.cancelled) ∨ r ∈ second := by
      rcases hr with hcur | hmade
      · exact .inl (h.superseded r (.inl hcur))
      · exact (List.mem_append.1 hmade).imp_left fun hfirst => h.superseded r (.inr hfirst)
    rcases hmid with (hcur | hcancelled) | hsecond
    · exact h'.superseded r (.inl hcur)
    · exact .inr (h'.cancelled_subset hcancelled)
    · exact h'.superseded r (.inr hsecond)

/-- Up to where styles are asked for no request is made. -/
theorem Prepared.issues (h : Prepared e m) : e.Issues m [] where
  working_eq := by rw [h.requests_eq, List.append_nil]
  lastNumber_eq := by rw [h.requests_eq]; rfl
  cancelled_subset := by rw [h.requests_eq]; exact List.Subset.refl _
  superseded r hr := by
    rw [h.requests_eq]
    exact .inl (hr.resolve_right List.not_mem_nil)

/-- A request that is withdrawn is cancelled. -/
theorem mem_cancelled_withdraw {s : Requests} {r : Request} (hr : s.current = some r) :
    r.number ∈ s.withdraw.cancelled :=
  List.mem_append_left _ (Option.mem_toList.2 (Requests.running_eq_some.2 ⟨r, hr, rfl⟩))

theorem renews_requestStyles (e : Editor) (hp : e.language.pattern.isSome) :
    e.Renews e.requestStyles := by
  obtain ⟨pattern, hpattern⟩ := Option.isSome_iff_exists.1 hp
  have he : e.requestStyles =
      { e with requests := e.requests.issue e.snapshot e.language } := by
    rw [requestStyles, hpattern]
  rw [he]
  refine ⟨⟨rfl, rfl, List.subset_append_right _ _, fun r hr => ?_⟩, rfl,
    fun r hr => mem_cancelled_withdraw hr⟩
  rcases hr with hcur | hmade
  · exact .inr (mem_cancelled_withdraw hcur)
  · rw [List.mem_singleton.1 hmade]
    exact .inl rfl

theorem issues_withdraw (e : Editor) (hp : e.language.pattern = none) :
    e.Issues e.requestStyles [] := by
  have hrequests := e.requests_requestStyles_of_none hp
  refine ⟨?_, ?_, ?_, fun r hr => ?_⟩
  · rw [hrequests, List.append_nil]
    rfl
  · rw [hrequests]
    rfl
  · rw [hrequests]
    exact List.subset_append_right _ _
  · rw [hrequests]
    exact .inr (mem_cancelled_withdraw (hr.resolve_right List.not_mem_nil))

/-- Whatever is done about styles, one request is made or none. -/
theorem Outcome.exists_issues (h : Outcome e e') : ∃ made, e.Issues e' made ∧ made.length ≤ 1 := by
  cases h with
  | kept hk => exact ⟨[], issues_of_eq hk.requests_eq, Nat.zero_le 1⟩
  | requested m hm he =>
    subst he
    cases hp : m.language.pattern with
    | none => exact ⟨[], hm.issues.trans (m.issues_withdraw hp), Nat.zero_le 1⟩
    | some pattern =>
      have hsome : m.language.pattern.isSome := by rw [hp]; rfl
      exact ⟨_, hm.issues.trans (m.renews_requestStyles hsome).issues, Nat.le_refl 1⟩

/-! ## Asking in the end -/

theorem asked_requestStyles (h : Prepared e m) {due : Prop} (hdue : due) :
    e.Asked m.requestStyles due where
  issued _ hp := by
    have hrenews := m.renews_requestStyles (by rwa [language_requestStyles] at hp)
    refine ⟨h.issues.trans hrenews.issues, hrenews.current_eq, fun r hr => ?_⟩
    refine hrenews.mem_cancelled r ?_
    rwa [h.requests_eq]
  withdrawn _ hp := h.issues.trans (m.issues_withdraw (by rwa [language_requestStyles] at hp))
  kept hnot := absurd hdue hnot

theorem asked_kept (h : e'.requests = e.requests) {due : Prop} (hnot : ¬due) :
    e.Asked e' due where
  issued hdue := absurd hdue hnot
  withdrawn hdue := absurd hdue hnot
  kept _ := h

theorem caret_placeCaret (e : Editor) (target : Nat) : (e.placeCaret target).caret = target :=
  congrArg Document.caret (e.document_placeCaret target)

/-- The caret was put somewhere in the same text. -/
theorem asked_placeCaret (h : Kept e m) (hc : m.caret = e.caret) (hs : m.settings = e.settings)
    (target : Nat) :
    e.Asked ((m.placeCaret target).restyle false (m.caret != target))
      (e.Unsettles ((m.placeCaret target).restyle false (m.caret != target))) := by
  have hkept := h.trans (m.kept_placeCaret target)
  rw [restyle_placeCaret]
  split
  · rename_i hmoved
    obtain ⟨hne, hsens⟩ := hmoved.resolve_left Bool.false_ne_true
    refine asked_requestStyles hkept.prepared (.inr ⟨?_, hs ▸ hsens⟩)
    rw [caret_requestStyles, caret_placeCaret, ← hc]
    exact hne.symm
  · rename_i hstays
    refine asked_kept hkept.requests_eq ?_
    rintro (htext | ⟨hne, hsens⟩)
    · exact htext hkept.text_eq
    · rw [caret_placeCaret, ← hc] at hne
      exact hstays (.inr ⟨hne.symm, hs ▸ hsens⟩)

theorem asked_edit {start stop : Nat} {inserted : String}
    (h : e.edit start stop inserted = .ok e') : e.Asked e' (e.Unsettles e') := by
  have hr : start ≤ stop ∧ stop ≤ e.length := Decidable.byContradiction fun hout => by
    rw [edit, if_neg hout] at h
    cases h
  by_cases hsame : e.replaced start stop inserted = e.text
  · have hch : e.changes start stop inserted = false := by
      rw [← Bool.not_eq_true, changes_iff hr.1]
      exact not_not_intro hsame
    simp only [edit, hch, if_pos hr] at h
    cases h
    exact asked_placeCaret (.refl e) rfl rfl _
  · rw [edit_of_changes hr hsame] at h
    cases h
    refine asked_requestStyles
      ((e.prepared_changeText start stop inserted).trans (kept_placeCaret _ _).prepared) (.inl ?_)
    have htext : (e.changeText start stop inserted).text = e.replaced start stop inserted :=
      congrArg Document.text (e.document_changeText start stop inserted)
    rw [text_requestStyles, (kept_placeCaret _ _).text_eq, htext]
    exact hsame

theorem asked_selectRange (e : Editor) (start stop : Nat) :
    e.Asked (e.selectRange start stop) (e.Unsettles (e.selectRange start stop)) :=
  asked_placeCaret (e.kept_placeSelection _) (e.caret_placeSelection _)
    (e.settings_placeSelection _) stop

/-! ## Operations -/

/-- When an operation has to end by asking for styles. -/
def Due (e : Editor) (o : Operation) : Prop :=
  (e.attempt o).isOk ∧ (o.asks ∨ e.Unsettles (e.operate o))

theorem Asked.congr {due due' : Prop} (h : e.Asked e' due) (hdue : due' ↔ due) : e.Asked e' due' :=
  ⟨fun hyes => h.issued (hdue.1 hyes), fun hyes => h.withdrawn (hdue.1 hyes),
    fun hno => h.kept fun hyes => hno (hdue.2 hyes)⟩

/-- A refused operation asks for nothing. -/
theorem asked_operate (e : Editor) (o : Operation) : e.Asked (e.operate o) (e.Due o) := by
  cases hattempt : e.attempt o with
  | error refusal =>
    refine asked_kept (by rw [operate_eq, hattempt]; rfl) ?_
    rintro ⟨hok, -⟩
    rw [hattempt] at hok
    cases hok
  | ok e' =>
    have he : e.operate o = e' := by
      rw [operate_eq, hattempt]
      rfl
    have hdue : e.Due o ↔ o.asks = true ∨ e.Unsettles e' := by
      rw [Due, he, hattempt]
      exact and_iff_right rfl
    have hunsettles : o.asks = false → (e.Due o ↔ e.Unsettles e') := fun ho =>
      hdue.trans (or_iff_right (by rw [ho]; exact Bool.false_ne_true))
    rw [he]
    cases effect_of_attempt hattempt with
    | edited ho h => exact (asked_edit h).congr (hunsettles ho)
    | selected start stop ho => exact (e.asked_selectRange start stop).congr (hunsettles ho)
    | adjusted editable settings styles source events ho =>
      refine asked_kept ?_ fun hyes => ?_
      · rfl
      · rcases (hunsettles ho).1 hyes with htext | ⟨hcaret, -⟩
        · exact htext rfl
        · exact hcaret rfl
    | asked m told ho hm => exact asked_requestStyles hm (hdue.2 (.inl ho))

/-- Styles that were due are asked for once, by the request for the state they are asked for in. -/
theorem Asked.exists_issues {due : Prop} (h : e.Asked e' due) :
    ∃ made, e.Issues e' made ∧ (made = [] ∨ made = [e'.document.request]) ∧
      (made ≠ [] ↔ due ∧ e'.language.pattern.isSome) ∧
      (made ≠ [] → e'.requests.current = some e'.document.request ∧
        ∀ r, e.requests.current = some r → r.number ∈ e'.requests.cancelled) ∧
      (made = [] → e'.language.pattern.isSome → e'.requests.current = e.requests.current) := by
  cases Classical.em due with
  | inr hnot =>
    have hkept := h.kept hnot
    refine ⟨[], issues_of_eq hkept, .inl rfl, ⟨fun hne => absurd rfl hne, ?_⟩,
      fun hne => absurd rfl hne, fun _ _ => by rw [hkept]⟩
    exact fun hyes => absurd hyes.1 hnot
  | inl hyes =>
    by_cases hpattern : e'.language.pattern.isSome = true
    · have hrenews := h.issued hyes hpattern
      exact ⟨[e'.document.request], hrenews.issues, .inr rfl,
        ⟨fun _ => ⟨hyes, hpattern⟩, fun _ => List.cons_ne_nil _ _⟩,
        fun _ => ⟨hrenews.current_eq, hrenews.mem_cancelled⟩, nofun⟩
    · have hnone := Option.not_isSome_iff_eq_none.1 hpattern
      exact ⟨[], h.withdrawn hyes hnone, .inl rfl,
        ⟨fun hne => absurd rfl hne, fun hsome => absurd hsome.2 hpattern⟩,
        fun hne => absurd rfl hne, fun _ hsome => absurd hsome hpattern⟩

/-- An operation makes the request for the state it led to, or none. It makes one exactly if it is
not refused, there is a pattern to match, and it is there for asking, or the text is another one in
the end, or the caret is elsewhere in the end and styles depend on it. The request then supersedes
the one that was current; where none was made although there is a pattern, the same request is
current as before. An editor that is linked to a leader is only made read-only by that, which is an
operation too. -/
theorem operate_issues (e : Editor) (o : Operation) :
    let e' := e.operate o
    ∃ made : List Request,
      e'.requests.working = e.requests.working ++ made ∧
      e'.requests.lastNumber = e.requests.lastNumber + made.length ∧
      (made = [] ∨ made = [e'.document.request]) ∧
      (made ≠ [] ↔ (e.attempt o).isOk ∧ e'.language.pattern.isSome ∧
        (o.asks ∨ e'.text ≠ e.text ∨ e'.caret ≠ e.caret ∧ e.settings.caretSensitive)) ∧
      (made ≠ [] → e'.requests.current = some e'.document.request ∧
        ∀ r, e.requests.current = some r → r.number ∈ e'.requests.cancelled) ∧
      (made = [] → e'.language.pattern.isSome → e'.requests.current = e.requests.current) := by
  intro e'
  obtain ⟨made, hissues, hmade, hiff, hrenews, hkept⟩ := (e.asked_operate o).exists_issues
  refine ⟨made, hissues.working_eq, hissues.lastNumber_eq, hmade, hiff.trans ?_, hrenews, hkept⟩
  exact and_right_comm.trans and_assoc

end Highlight.Editor
