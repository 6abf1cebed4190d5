import Highlight.Requests
import Highlight.Proofs.Spans.Length

/-!
# What computations of styles end in

Styles that a computation ends with cover its snapshot, and it ends in a cancellation only if its
request was cancelled by then (`honest_highlight`). Hence the completion that a worker sends is
never a cancellation (`Request.result_ne_cancelled`), and holds the styles of its request
(`Request.result_eq_ok_iff`). A worker sends one if there are styles (`Request.exists_completion`),
and in any case if no contributor cancels the request (`Request.exists_completion_of_detached`).
Styles depend on the text, on the language and on what the contributors give, and on nothing else
(`result_highlight_congr`).
-/

namespace Highlight

/-- What holds of a computation for a text of `length` characters, however it ended: its styles
cover the text, it has styles only if its request was not cancelled, and it is a cancellation only
if the request was. -/
structure Computation.Honest (c : Computation) (length : Nat) : Prop where
  covers : ∀ styles, c.result = .ok (.ok styles) → styles.length = length
  completes : ∀ styles, c.result = .ok (.ok styles) → c.cancelled = false
  cancelled : ∀ k, c.result = .ok (.error (.cancelled k)) → c.cancelled = true

/-- A contributor that never cancels the request it works for. One that is given nothing but the
snapshot has no means to. -/
def Contributor.Detached (c : Contributor) : Prop :=
  ∀ worker snapshot, (c.contribute worker snapshot).cancels = false

/-- A contributor that looks at nothing but the snapshot. -/
def Contributor.Pure (c : Contributor) : Prop :=
  ∀ worker worker' snapshot, c.contribute worker snapshot = c.contribute worker' snapshot

namespace Computation

theorem honest_faulted (fault : Fault) (cancelled : Bool) (n : Nat) :
    (faulted fault cancelled).Honest n :=
  ⟨fun _ h => (nomatch h), fun _ h => (nomatch h), fun _ h => (nomatch h)⟩

theorem honest_cancelled (number : RequestNumber) (n : Nat) :
    (failed (.cancelled number) true).Honest n :=
  ⟨fun _ h => (nomatch h), fun _ h => (nomatch h), fun _ _ => rfl⟩

theorem honest_mismatch (name : String) (expected actual : Nat) (cancelled : Bool) (n : Nat) :
    (failed (.lengthMismatch name expected actual) cancelled).Honest n :=
  ⟨fun _ h => (nomatch h), fun _ h => (nomatch h), fun _ h => (nomatch h)⟩

theorem honest_done {spans : Spans} {n : Nat} (h : spans.length = n) :
    (done spans false).Honest n :=
  ⟨fun _ hs => by cases hs; exact h, fun _ _ => rfl, fun _ h => (nomatch h)⟩

end Computation

section

variable {number : RequestNumber} {worker : String} {snapshot : Snapshot}

theorem honest_overlayContributors {contributors : List Contributor} {spans : Spans}
    (hs : spans.length = snapshot.length) :
    (overlayContributors number worker snapshot false spans contributors).Honest
      snapshot.length := by
  induction contributors generalizing spans with
  | nil => exact Computation.honest_done hs
  | cons c rest ih =>
    simp only [overlayContributors, Bool.false_or]
    split
    · exact Computation.honest_faulted _ _ _
    · split
      · exact Computation.honest_mismatch _ _ _ _ _
      · rename_i more _ hlen
        split
        · exact Computation.honest_faulted _ _ _
        · rename_i merged hm
          split
          · exact Computation.honest_cancelled _ _
          · rename_i hc
            rw [Bool.not_eq_true] at hc
            rw [hc]
            refine ih ?_
            rw [Spans.length_of_merge hm]
            omega

/-- Whatever the language and the contributors do, the computation is honest about its snapshot. -/
theorem honest_highlight (language : Language) (extensions : List Contributor) :
    (highlight number worker snapshot language extensions false).Honest snapshot.length := by
  unfold highlight
  split
  · exact Computation.honest_done (Spans.length_plain _)
  · rename_i pattern _
    simp only
    split
    · exact Computation.honest_faulted _ _ _
    · rename_i spans hspans
      refine honest_overlayContributors ?_
      cases hm : pattern.scan language.labelling snapshot.text with
      | error fault =>
        rw [hm] at hspans
        cases hspans
      | ok marks =>
        rw [hm] at hspans
        exact Spans.length_of_ofMarks hspans

/-- Contributors that never cancel leave the request alone. -/
theorem cancelled_overlayContributors {contributors : List Contributor} (spans : Spans)
    (h : ∀ c ∈ contributors, c.Detached) :
    (overlayContributors number worker snapshot false spans contributors).cancelled = false := by
  induction contributors generalizing spans with
  | nil => rfl
  | cons c rest ih =>
    have hc : (c.contribute worker snapshot).cancels = false :=
      h c List.mem_cons_self worker snapshot
    simp only [overlayContributors, Bool.false_or, hc]
    split
    · rfl
    · split
      · rfl
      · split
        · rfl
        · exact ih _ fun d hd => h d (List.mem_cons_of_mem c hd)

theorem cancelled_highlight {language : Language} {extensions : List Contributor}
    (h : ∀ c ∈ language.contributors ++ extensions, c.Detached) :
    (highlight number worker snapshot language extensions false).cancelled = false := by
  unfold highlight
  split
  · rfl
  · simp only
    split
    · rfl
    · exact cancelled_overlayContributors _ h

/-! ## What styles depend on -/

variable {number' : RequestNumber} {worker' : String} {snapshot' : Snapshot}

theorem result_overlayContributors_congr {contributors : List Contributor} {spans styles : Spans}
    {cancelled : Bool} (hlen : snapshot'.length = snapshot.length)
    (h : ∀ c ∈ contributors, c.contribute worker' snapshot' = c.contribute worker snapshot)
    (hs : (overlayContributors number worker snapshot cancelled spans contributors).result =
      .ok (.ok styles)) :
    (overlayContributors number' worker' snapshot' cancelled spans contributors).result =
      .ok (.ok styles) := by
  induction contributors generalizing spans cancelled with
  | nil => exact hs
  | cons c rest ih =>
    obtain ⟨hc, hrest⟩ := List.forall_mem_cons.1 h
    simp only [overlayContributors, hc, hlen] at hs ⊢
    split at hs
    · cases hs
    · split at hs
      · cases hs
      · rename_i hfits
        rw [if_neg hfits]
        split at hs
        · cases hs
        · split at hs
          · cases hs
          · rename_i hlive
            rw [if_neg hlive]
            exact ih hrest hs

/-- Neither the request's number nor the worker's name, nor anything else than the text and what the
contributors give, makes a difference to styles. -/
theorem result_highlight_congr {language : Language} {extensions : List Contributor} {styles : Spans}
    (htext : snapshot'.text = snapshot.text)
    (h : ∀ c ∈ language.contributors ++ extensions,
      c.contribute worker' snapshot' = c.contribute worker snapshot)
    (hs : (highlight number worker snapshot language extensions false).result = .ok (.ok styles)) :
    (highlight number' worker' snapshot' language extensions false).result = .ok (.ok styles) := by
  have hlen : snapshot'.length = snapshot.length := congrArg String.length htext
  unfold highlight at hs ⊢
  rw [htext, hlen]
  split
  · rename_i hp
    rw [hp] at hs
    exact hs
  · rename_i pattern hp
    rw [hp] at hs
    simp only at hs ⊢
    split at hs
    · cases hs
    · exact result_overlayContributors_congr hlen h hs

end

namespace Request

variable {r : Request} {c : Completion}

/-- A completion carries the number, the version and the length of what was asked for. -/
theorem completion?_fields (h : r.completion? = some c) :
    c.number = r.number ∧ c.version = r.snapshot.version ∧ c.length = r.snapshot.length := by
  simp only [completion?] at h
  split at h <;> cases h
  exact ⟨rfl, rfl, rfl⟩

/-- A worker whose request was cancelled sends nothing, so what arrives is no cancellation. -/
theorem result_ne_cancelled (h : r.completion? = some c) (k : RequestNumber) :
    c.result ≠ .error (.cancelled k) := by
  intro hk
  simp only [completion?] at h
  split at h
  · cases h
  · rename_i hc
    cases h
    refine hc ?_
    simp only at hk
    split at hk
    · rename_i result hr
      rw [hk] at hr
      exact (honest_highlight ..).cancelled _ hr
    · cases hk

/-- The styles that arrive are those computed for the request. -/
theorem result_eq_ok_iff (h : r.completion? = some c) {spans : Spans} :
    c.result = .ok spans ↔ r.compute.result = .ok (.ok spans) := by
  simp only [completion?] at h
  split at h
  · cases h
  · cases h
    simp only
    split <;> rename_i hr <;> rw [hr] <;> simp

/-- The styles of a request cover its snapshot. -/
theorem length_of_result (h : r.completion? = some c) {spans : Spans} (hs : c.result = .ok spans) :
    spans.length = r.snapshot.length :=
  (honest_highlight ..).covers _ ((result_eq_ok_iff h).1 hs)

/-- The worker sends something if the request was not cancelled. -/
theorem exists_completion_of_cancelled (h : r.compute.cancelled = false) :
    ∃ c, r.completion? = some c := by
  simp only [completion?, h]
  exact ⟨_, rfl⟩

/-- The worker sends something if there are styles. -/
theorem exists_completion {spans : Spans} (h : r.compute.result = .ok (.ok spans)) :
    ∃ c, r.completion? = some c :=
  exists_completion_of_cancelled ((honest_highlight ..).completes _ h)

/-- The worker sends something if no contributor interferes. -/
theorem exists_completion_of_detached
    (h : ∀ c ∈ r.language.contributors ++ r.extensions, c.Detached) :
    ∃ c, r.completion? = some c :=
  exists_completion_of_cancelled (cancelled_highlight h)

end Request

end Highlight
