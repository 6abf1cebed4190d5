import Highlight.Proofs.Requests.Coherence

/-!
# The completion of the current request is never lost

As long as a request is current, its computation has not ended, or its completion is on its way or
has arrived (`Requests.Awaited`), unless it ends without sending one. So whoever waits for the
current request and lets its worker come to its end finds the completion in the queue
(`Awaited.mem_queue_finish`).
-/

namespace Highlight.Requests

variable {s : Requests}

/-- What the current request sends in the end is being computed or was sent. -/
def Awaited (s : Requests) : Prop :=
  ∀ r c, s.current = some r → r.completion? = some c → r ∈ s.working ∨ c ∈ s.outgoing ++ s.queue

theorem awaited_of_idle (h : s.current = none) : s.Awaited := by
  intro r c hr
  rw [h] at hr
  cases hr

theorem awaited_issue (s : Requests) (snapshot : Snapshot) (language : Language) :
    (s.issue snapshot language).Awaited := by
  intro r c hr _
  cases hr
  exact .inl (List.mem_append_right _ (List.mem_singleton_self _))

/-- The computation for the current request ends with its completion, since it was not cancelled. -/
theorem Awaited.conclude (h : s.Awaited) (hs : s.Coherent) (n : RequestNumber) :
    (s.conclude n).Awaited := by
  intro r c hr hc
  by_cases hn : r.number = n
  · have hlive : n ∉ s.cancelled := hn ▸ hs.live r hr
    simp only [Requests.conclude, if_neg hlive]
    rcases h r c hr hc with hw | hsent
    · have hmem : c ∈ (s.working.filter (·.number == n)).filterMap (·.completion?) :=
        List.mem_filterMap.2 ⟨r, List.mem_filter.2 ⟨hw, beq_iff_eq.2 hn⟩, hc⟩
      exact .inr (List.mem_append_left _ (List.mem_append_right _ hmem))
    · rcases List.mem_append.1 hsent with ho | hq
      · exact .inr (List.mem_append_left _ (List.mem_append_left _ ho))
      · exact .inr (List.mem_append_right _ hq)
  · rcases h r c hr hc with hw | hsent
    · exact .inl (List.mem_filter.2 ⟨hw, bne_iff_ne.2 hn⟩)
    · refine .inr ?_
      rcases List.mem_append.1 hsent with ho | hq
      · refine List.mem_append_left _ ?_
        simp only [Requests.conclude]
        split
        · exact ho
        · exact List.mem_append_left _ ho
      · exact List.mem_append_right _ hq

theorem Awaited.arrive (h : s.Awaited) (n : RequestNumber) : (s.arrive n).Awaited := by
  intro r c hr hc
  refine (h r c hr hc).imp_right fun hsent => ?_
  simp only [Requests.arrive, List.mem_append, List.mem_filter, beq_iff_eq, bne_iff_ne]
  rcases List.mem_append.1 hsent with ho | hq
  · by_cases hn : c.number = n
    · exact .inr (.inr ⟨ho, hn⟩)
    · exact .inl ⟨ho, hn⟩
  · exact .inr (.inl hq)

/-- A completion that is not the current request's may be taken from the queue. -/
theorem Awaited.leave (h : s.Awaited) {c : Completion} {rest : List Completion}
    (hq : s.queue = c :: rest) (hn : s.running ≠ some c.number) :
    Awaited { s with queue := rest } := by
  intro r d hr hd
  refine (h r d hr hd).imp_right fun hsent => ?_
  rcases List.mem_append.1 hsent with ho | hmem
  · exact List.mem_append_left _ ho
  · rw [hq] at hmem
    rcases List.mem_cons.1 hmem with rfl | hrest
    · exact absurd (running_eq_some.2 ⟨r, hr, (Request.completion?_fields hd).1.symm⟩) hn
    · exact List.mem_append_right _ hrest

/-- When the worker of the current request has come to its end, its completion is in the queue. -/
theorem Awaited.mem_queue_finish (h : s.Awaited) (hs : s.Coherent) {r : Request} {c : Completion}
    (hr : s.current = some r) (hc : r.completion? = some c) : c ∈ s.finish.queue := by
  have hnum : c.number = r.number := (Request.completion?_fields hc).1
  have hrun : s.running = some r.number := running_eq_some.2 ⟨r, hr, rfl⟩
  -- The computation has ended, so the completion was sent; then it arrives, if it has not before.
  have hsent : c ∈ (s.conclude r.number).outgoing ++ s.queue := by
    refine (h.conclude hs r.number r c hr hc).resolve_left fun hw => ?_
    exact bne_iff_ne.1 (List.mem_filter.1 hw).2 rfl
  simp only [finish, hrun, Requests.arrive]
  rcases List.mem_append.1 hsent with ho | hq
  · exact List.mem_append_right _ (List.mem_filter.2 ⟨ho, beq_iff_eq.2 hnum⟩)
  · exact List.mem_append_left _ hq

end Highlight.Requests
