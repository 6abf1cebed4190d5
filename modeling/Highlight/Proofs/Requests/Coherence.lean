import Highlight.Proofs.Computation

/-!
# Requests and what is under way for them

The invariant of the requests of one editor (`Requests.Coherent`): the current request is the last
one and was not cancelled, no number is ahead of the last one, and whatever carries the number of
the current request, a worker or a completion, belongs to it. Every change of the requests keeps it.
From it follows what the two ways of taking completions do:

* `Coherent.belongs`, `Coherent.judge_current`: a completion is of no current request, or settles it;
* `Coherent.collect_cases`: a whole queue is passed over, or only its part before the completion of
  the current request.
-/

namespace Highlight

/-- What the owner of the requests is told when a completion settles the current one. -/
def Completion.answer (c : Completion) : Except StylingError Delivery :=
  c.result.map fun spans => ⟨c.number, c.version, c.length, spans⟩

namespace Requests

variable {s : Requests}

/-- How what is under way relates to the current request. -/
structure Coherent (s : Requests) : Prop where
  /-- The current request is the last one. -/
  number_eq : ∀ r, s.current = some r → r.number = s.lastNumber
  number_pos : ∀ r, s.current = some r → 0 < r.number
  live : ∀ r, s.current = some r → r.number ∉ s.cancelled
  cancelled_le : ∀ n ∈ s.cancelled, n ≤ s.lastNumber
  working_le : ∀ r ∈ s.working, r.number ≤ s.lastNumber
  /-- The worker with the number of the current request works for it. -/
  working_eq : ∀ r ∈ s.working, ∀ q, s.current = some q → r.number = q.number → r = q
  sent_le : ∀ c ∈ s.outgoing ++ s.queue, c.number ≤ s.lastNumber
  /-- A completion with the number of the current request is its completion. -/
  sent_eq : ∀ c ∈ s.outgoing ++ s.queue, ∀ q, s.current = some q → c.number = q.number →
    q.completion? = some c

theorem running_eq_some {n : RequestNumber} :
    s.running = some n ↔ ∃ r, s.current = some r ∧ r.number = n := by
  simp [running]

/-! ## The owner's operations -/

theorem coherent_new (extensions : List Contributor) (workerName : String) :
    (new extensions workerName).Coherent where
  number_eq _ h := nomatch h
  number_pos _ h := nomatch h
  live _ h := nomatch h
  cancelled_le _ h := nomatch h
  working_le _ h := nomatch h
  working_eq _ h := nomatch h
  sent_le _ h := nomatch h
  sent_eq _ h := nomatch h

theorem Coherent.extensions (h : s.Coherent) (extensions : List Contributor) :
    Coherent { s with extensions := extensions } :=
  ⟨h.number_eq, h.number_pos, h.live, h.cancelled_le, h.working_le, h.working_eq, h.sent_le, h.sent_eq⟩

/-- Without a current request nothing has to belong to one. -/
theorem Coherent.settle (h : s.Coherent) : Coherent { s with current := none } where
  number_eq _ hr := nomatch hr
  number_pos _ hr := nomatch hr
  live _ hr := nomatch hr
  cancelled_le := h.cancelled_le
  working_le := h.working_le
  working_eq _ _ _ hq := nomatch hq
  sent_le := h.sent_le
  sent_eq _ _ _ hq := nomatch hq

theorem Coherent.withdraw (h : s.Coherent) : s.withdraw.Coherent where
  number_eq _ hr := nomatch hr
  number_pos _ hr := nomatch hr
  live _ hr := nomatch hr
  cancelled_le n hn := by
    rcases List.mem_append.1 hn with hn | hn
    · obtain ⟨r, hr, rfl⟩ := running_eq_some.1 (Option.mem_toList.1 hn)
      exact Nat.le_of_eq (h.number_eq r hr)
    · exact h.cancelled_le n hn
  working_le := h.working_le
  working_eq _ _ _ hq := nomatch hq
  sent_le := h.sent_le
  sent_eq _ _ _ hq := nomatch hq

/-- The request that `issue` makes. -/
def issued (s : Requests) (snapshot : Snapshot) (language : Language) : Request :=
  ⟨s.lastNumber + 1, snapshot, language, s.extensions, s.workerOf (s.lastNumber + 1)⟩

/-- The new number is ahead of all others, so nothing under way carries it but the new worker. -/
theorem Coherent.issue (h : s.Coherent) (snapshot : Snapshot) (language : Language) :
    (s.issue snapshot language).Coherent where
  number_eq r hr := by
    cases hr
    rfl
  number_pos r hr := by
    cases hr
    exact Nat.succ_pos _
  live r hr hn := by
    cases hr
    have := h.withdraw.cancelled_le _ hn
    exact Nat.not_succ_le_self _ this
  cancelled_le n hn := Nat.le_succ_of_le (h.withdraw.cancelled_le n hn)
  working_le r hr := by
    rcases List.mem_append.1 hr with hr | hr
    · exact Nat.le_succ_of_le (h.working_le r hr)
    · cases List.mem_singleton.1 hr
      exact Nat.le_refl _
  working_eq r hr q hq hn := by
    rcases List.mem_append.1 hr with hr | hr
    · cases hq
      exact absurd (hn ▸ h.working_le r hr) (Nat.not_succ_le_self _)
    · rw [List.mem_singleton.1 hr]
      exact Option.some.inj hq
  sent_le c hc := Nat.le_succ_of_le (h.sent_le c hc)
  sent_eq c hc q hq hn := by
    cases hq
    exact absurd (hn ▸ h.sent_le c hc) (Nat.not_succ_le_self _)

/-! ## Workers -/

theorem Coherent.conclude (h : s.Coherent) (n : RequestNumber) : (s.conclude n).Coherent where
  number_eq := h.number_eq
  number_pos := h.number_pos
  live := h.live
  cancelled_le := h.cancelled_le
  working_le r hr := h.working_le r (List.mem_filter.1 hr).1
  working_eq r hr := h.working_eq r (List.mem_filter.1 hr).1
  sent_le c hc := by
    rcases mem_sent_conclude hc with hc | ⟨r, hr, hrc⟩
    · exact h.sent_le c hc
    · rw [(Request.completion?_fields hrc).1]
      exact h.working_le r hr
  sent_eq c hc q hq hn := by
    rcases mem_sent_conclude hc with hc | ⟨r, hr, hrc⟩
    · exact h.sent_eq c hc q hq hn
    · have hnum := (Request.completion?_fields hrc).1
      rw [← h.working_eq r hr q hq (hnum ▸ hn)]
      exact hrc
where
  /-- What is sent after the end of a computation was sent before, or completes that computation. -/
  mem_sent_conclude {c : Completion} (hc : c ∈ (s.conclude n).outgoing ++ (s.conclude n).queue) :
      c ∈ s.outgoing ++ s.queue ∨ ∃ r ∈ s.working, r.completion? = some c := by
    rcases List.mem_append.1 hc with hc | hc
    · simp only [Requests.conclude] at hc
      split at hc
      · exact .inl (List.mem_append_left _ hc)
      · rcases List.mem_append.1 hc with hc | hc
        · exact .inl (List.mem_append_left _ hc)
        · obtain ⟨r, hr, hrc⟩ := List.mem_filterMap.1 hc
          exact .inr ⟨r, (List.mem_filter.1 hr).1, hrc⟩
    · exact .inl (List.mem_append_right _ hc)

theorem Coherent.arrive (h : s.Coherent) (n : RequestNumber) : (s.arrive n).Coherent where
  number_eq := h.number_eq
  number_pos := h.number_pos
  live := h.live
  cancelled_le := h.cancelled_le
  working_le := h.working_le
  working_eq := h.working_eq
  sent_le c hc := h.sent_le c (mem_sent_arrive hc)
  sent_eq c hc := h.sent_eq c (mem_sent_arrive hc)
where
  mem_sent_arrive {c : Completion} (hc : c ∈ (s.arrive n).outgoing ++ (s.arrive n).queue) :
      c ∈ s.outgoing ++ s.queue := by
    simp only [Requests.arrive, List.mem_append, List.mem_filter] at hc ⊢
    rcases hc with hc | hc | hc
    · exact .inl hc.1
    · exact .inr hc
    · exact .inl hc.1

/-! ## Completions -/

theorem Coherent.leave (h : s.Coherent) {rest : List Completion} (hr : rest ⊆ s.queue) :
    Coherent { s with queue := rest } where
  number_eq := h.number_eq
  number_pos := h.number_pos
  live := h.live
  cancelled_le := h.cancelled_le
  working_le := h.working_le
  working_eq := h.working_eq
  sent_le c hc := h.sent_le c (sent_subset hc)
  sent_eq c hc := h.sent_eq c (sent_subset hc)
where
  sent_subset : s.outgoing ++ rest ⊆ s.outgoing ++ s.queue :=
    List.append_subset.2
      ⟨List.subset_append_left _ _, fun _ hx => List.mem_append_right _ (hr hx)⟩

theorem judge_of_ne {c : Completion} (h : s.running ≠ some c.number) : s.judge c = (.ok none, s) :=
  if_neg fun hc => h hc.1

/-- The completion of the current request settles it; its answer is passed on. -/
theorem Coherent.judge_current (h : s.Coherent) {r : Request} {c : Completion}
    (hr : s.current = some r) (hc : r.completion? = some c) :
    s.judge c = (c.answer.map some, { s with current := none }) := by
  have hn : c.number = r.number := (Request.completion?_fields hc).1
  have hcond : s.running = some c.number ∧ c.number ∉ s.cancelled :=
    ⟨running_eq_some.2 ⟨r, hr, hn.symm⟩, hn ▸ h.live r hr⟩
  rw [judge, if_pos hcond]
  cases hres : c.result with
  | ok spans => simp [Completion.answer, hres, Except.map]
  | error error =>
    cases error with
    | cancelled k => exact absurd hres (Request.result_ne_cancelled hc k)
    | lengthMismatch _ _ _ => simp [Completion.answer, hres, Except.map]
    | languageFailed _ _ => simp [Completion.answer, hres, Except.map]

/-- A completion of the queue is of no current request, or it is that of the current request. -/
theorem Coherent.belongs (h : s.Coherent) {c : Completion} (hc : c ∈ s.queue) :
    s.running ≠ some c.number ∨ ∃ r, s.current = some r ∧ r.completion? = some c := by
  by_cases hn : s.running = some c.number
  · obtain ⟨r, hr, hrn⟩ := running_eq_some.1 hn
    exact .inr ⟨r, hr, h.sent_eq c (List.mem_append_right _ hc) r hr hrn.symm⟩
  · exact .inl hn

theorem Coherent.collectFrom_cases {queue : List Completion} (h : s.Coherent)
    (hq : s.queue = queue) :
    ((∀ c ∈ queue, s.running ≠ some c.number) ∧
        s.collectFrom queue = (.ok none, { s with queue := [] })) ∨
      ∃ stale c rest r, queue = stale ++ c :: rest ∧
        (∀ x ∈ stale, s.running ≠ some x.number) ∧ s.current = some r ∧ r.completion? = some c ∧
        s.collectFrom queue = (c.answer.map some, { s with current := none, queue := rest }) := by
  induction queue generalizing s with
  | nil =>
    refine .inl ⟨fun _ hc => (nomatch hc), ?_⟩
    show (Except.ok none, s) = _
    rw [← hq]
  | cons c rest ih =>
    have hleft : Coherent { s with queue := rest } :=
      h.leave (hq ▸ List.subset_cons_self c rest)
    rcases h.belongs (hq ▸ List.mem_cons_self) with hn | ⟨r, hr, hrc⟩
    · have hstep : s.collectFrom (c :: rest) = { s with queue := rest }.collectFrom rest := by
        rw [collectFrom, judge_of_ne (s := { s with queue := rest }) hn]
      rw [hstep]
      rcases ih hleft rfl with ⟨hall, he⟩ | ⟨st, d, tl, r, he, hst, hrest⟩
      · exact .inl ⟨List.forall_mem_cons.2 ⟨hn, hall⟩, he⟩
      · exact .inr ⟨c :: st, d, tl, r, by rw [he]; rfl, List.forall_mem_cons.2 ⟨hn, hst⟩, hrest⟩
    · refine .inr ⟨[], c, rest, r, rfl, fun _ hx => (nomatch hx), hr, hrc, ?_⟩
      rw [collectFrom, hleft.judge_current hr hrc]
      cases c.answer <;> rfl

/-- The queue is passed over, or all of it that is before the completion of the current request. -/
theorem Coherent.collect_cases (h : s.Coherent) :
    ((∀ c ∈ s.queue, s.running ≠ some c.number) ∧ s.collect = (.ok none, { s with queue := [] })) ∨
      ∃ stale c rest r, s.queue = stale ++ c :: rest ∧
        (∀ x ∈ stale, s.running ≠ some x.number) ∧ s.current = some r ∧ r.completion? = some c ∧
        s.collect = (c.answer.map some, { s with current := none, queue := rest }) :=
  h.collectFrom_cases rfl

theorem Coherent.collect (h : s.Coherent) : s.collect.2.Coherent := by
  rcases h.collect_cases with ⟨-, he⟩ | ⟨stale, c, rest, r, hq, -, -, -, he⟩
  · rw [he]
    exact h.leave (List.nil_subset _)
  · rw [he]
    have hsub : rest ⊆ s.queue := by
      rw [hq]
      exact fun x hx => List.mem_append_right _ (List.mem_cons_of_mem _ hx)
    exact (h.leave hsub).settle

end Requests

end Highlight
