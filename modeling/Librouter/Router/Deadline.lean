/-
# Whether the deadline is respected

At the top of its loop `route` reads how much of its budget remains, and the timeout of the vendor
call is cut to that.  In between it awaits the bucket, and the timeout does not know how long that
took: a call that starts two seconds late may end one and a half seconds over the budget
(`slow_acquire_overruns`).

With the default knobs every call ends in time exactly when no acquire takes longer than what the
cap of the timeout leaves free (`deadline_respected_iff`).
-/
import Librouter.Router

namespace Librouter

/-! ## 1. The property and the condition -/

/-- Every call of `vendor.chat`, from the moment it is made, is over by `limit`. -/
def EndsBy (router : Router) (t₀ : RouteTask) (limit : ℚ) (es : List RouteEvent) : Prop :=
  ∀ p t, p <+: es → Runs.run (RouteTask.step router) t₀ p = some t →
    ∀ cand startedAt timeoutS, t.pc = .chatting cand startedAt timeoutS →
      startedAt + timeoutS ≤ limit

/-- If a call of `vendor.chat` comes next, the acquire before it took no longer than the time by
which what remained exceeds the cap of the timeout and the buffer; nothing, if it does not. -/
def AcquiredInTime (router : Router) (t : RouteTask) (event : RouteEvent) : Prop :=
  match t.pc, event with
  | .acquiring remaining cand, .acquired true t0 _ => cand.provider ∈ router.vendors →
      t0 - (t.deadline - remaining) ≤ max 0 (remaining - (8 + 1 / 2))
  | _, _ => True

instance (router : Router) (t : RouteTask) (event : RouteEvent) :
    Decidable (AcquiredInTime router t event) := by
  unfold AcquiredInTime
  split <;> infer_instance

/-- The knobs nobody has set. -/
structure DefaultKnobs (router : Router) : Prop where
  totalBudgetS : router.totalBudgetS = 10
  perAttemptMaxS : router.perAttemptMaxS = 8
  bufferS : router.bufferS = 1 / 2

/-! ## 2. One call -/

/-- **A call made after an acquire** ends before the buffer exactly when the acquire was in time. -/
theorem attemptTimeout_le_iff {router : Router} (hknobs : DefaultKnobs router)
    {remaining deadline t0 : ℚ} (hremaining : 3 / 2 ≤ remaining) :
    t0 + router.attemptTimeout remaining ≤ deadline - router.bufferS ↔
      t0 - (deadline - remaining) ≤ max 0 (remaining - (8 + 1 / 2)) := by
  rw [Router.attemptTimeout, hknobs.bufferS, hknobs.perAttemptMaxS]
  have hfloor : max (1 / 10) (remaining - 1 / 2) = remaining - 1 / 2 :=
    max_eq_right (by linarith)
  rw [hfloor]
  rcases le_total (remaining - 1 / 2) 8 with hle | hge
  · rw [min_eq_left hle, max_eq_left (by linarith)]
    constructor <;> intro h <;> linarith
  · rw [min_eq_right hge, max_eq_right (by linarith)]
    constructor <;> intro h <;> linarith

/-! ## 3. Every run -/

/-- The deadline of the call, and what remained when the bucket was asked. -/
def RouteTask.Paced (t : RouteTask) (deadline : ℚ) : Prop :=
  t.deadline = deadline ∧ ∀ remaining cand, t.pc = .acquiring remaining cand → 3 / 2 ≤ remaining

theorem Router.paced_loopTop (router : Router) {t : RouteTask} {deadline : ℚ}
    (hdeadline : t.deadline = deadline) (input : LoopInput) :
    (router.loopTop t input).Paced deadline := by
  refine ⟨hdeadline, fun remaining cand hpc => ?_⟩
  rcases router.loopTop_cases t input with ⟨error, -, heq⟩ | ⟨picked, -, hlate, heq⟩
  · rw [heq] at hpc
    cases hpc
  · rw [heq] at hpc
    cases hpc
    exact hlate

/-- No call is made at the top of the loop. -/
theorem Router.loopTop_ne_chatting (router : Router) (t : RouteTask) (input : LoopInput)
    (cand : CandidateRef) (startedAt timeoutS : ℚ) :
    (router.loopTop t input).pc ≠ .chatting cand startedAt timeoutS := by
  rcases router.loopTop_cases t input with ⟨error, -, heq⟩ | ⟨picked, -, -, heq⟩
  · rw [heq]
    exact nofun
  · rw [heq]
    exact nofun

theorem Router.begin_ne_chatting (router : Router) (req : ChatCompletionRequest) (caller : Caller)
    (requestId : String) (now : ℚ) (input : LoopInput) (cand : CandidateRef)
    (startedAt timeoutS : ℚ) :
    (router.begin req caller requestId now input).pc ≠ .chatting cand startedAt timeoutS := by
  unfold Router.begin
  split
  · exact router.loopTop_ne_chatting _ _ _ _ _
  · intro hpc
    cases hpc

theorem Router.paced_begin (router : Router) (req : ChatCompletionRequest) (caller : Caller)
    (requestId : String) (now : ℚ) (input : LoopInput) :
    (router.begin req caller requestId now input).Paced (now + router.totalBudgetS) := by
  unfold Router.begin
  split
  · exact router.paced_loopTop rfl input
  · refine ⟨rfl, ?_⟩
    intro _ _ hpc
    cases hpc

theorem RouteTask.Paced.step {router : Router} {t t' : RouteTask} {deadline : ℚ}
    {event : RouteEvent} (h : t.Paced deadline) (hstep : t.step router event = some t') :
    t'.Paced deadline := by
  have hround : ∀ cand why input, (router.failover t cand why input).Paced deadline :=
    fun cand why input => router.paced_loopTop (t := { t with
      tried := t.tried ++ [(cand, why)], exclude := t.exclude ++ [cand] }) h.1 input
  cases moves_of_step hstep with
  | bucketEmpty | vendorMissing | retry => exact hround _ _ _
  | crash | call | callFailed | callUnrecorded | callOk | giveUp | recordFails | answer
    | noMessage => exact ⟨h.1, nofun⟩

/-- A call that is being made, and the step that made it. -/
theorem RouteTask.chatting_step {router : Router} {t t' : RouteTask} {event : RouteEvent}
    (hstep : t.step router event = some t') {cand : CandidateRef} {startedAt timeoutS : ℚ}
    (hpc : t'.pc = .chatting cand startedAt timeoutS) :
    ∃ remaining next, t.pc = .acquiring remaining cand ∧ event = .acquired true startedAt next ∧
      cand.provider ∈ router.vendors ∧ timeoutS = router.attemptTimeout remaining := by
  cases moves_of_step hstep with
  | bucketEmpty | vendorMissing | retry =>
    exact absurd hpc (router.loopTop_ne_chatting _ _ _ _ _)
  | crash | callFailed | callUnrecorded | callOk | giveUp | recordFails | answer
    | noMessage => cases hpc
  | @call remaining t0 picked next hacquiring hvendor =>
    cases hpc
    exact ⟨remaining, next, hacquiring, rfl, hvendor, rfl⟩

/-- **With the default knobs every call of `vendor.chat` ends by the deadline less the buffer if and
only if** every acquire before a call is in time. -/
theorem deadline_respected_iff {router : Router} (hknobs : DefaultKnobs router)
    (req : ChatCompletionRequest) (caller : Caller) (requestId : String) (entry : ℚ)
    (input : LoopInput) {es : List RouteEvent} {t : RouteTask}
    (hrun : Runs.run (RouteTask.step router) (router.begin req caller requestId entry input) es =
      some t) :
    EndsBy router (router.begin req caller requestId entry input)
        (entry + router.totalBudgetS - router.bufferS) es ↔
      Runs.Along (RouteTask.step router) (AcquiredInTime router)
        (router.begin req caller requestId entry input) es := by
  have hpaced : ∀ {p m}, Runs.run (RouteTask.step router)
      (router.begin req caller requestId entry input) p = some m →
      m.Paced (entry + router.totalBudgetS) := fun hm =>
    Runs.invariant_along _ (fun _ t => t.Paced (entry + router.totalBudgetS))
      (router.paced_begin _ _ _ _ _) (fun _ _ _ _ h _ hstep => h.step hstep) hm
      (Runs.along_true _ _)
  rw [Runs.along_iff]
  constructor
  · rintro h before event after rfl m hm
    obtain ⟨hdeadline, hremaining⟩ := hpaced hm
    unfold AcquiredInTime
    split
    · -- the call that follows ends in time
      rename_i remaining cand t0 next hpc
      intro hvendor
      have hstep : m.step router (.acquired true t0 next) =
          some { m with pc := .chatting cand t0 (router.attemptTimeout remaining) } := by
        simp [RouteTask.step, hpc, hvendor]
      have hends := h (before ++ [.acquired true t0 next]) _ (by simp)
        (Runs.run_concat_iff.mpr ⟨m, hm, hstep⟩) cand t0 _ rfl
      rw [hdeadline]
      exact (attemptTimeout_le_iff hknobs (hremaining _ _ hpc)).mp hends
    · trivial
  · rintro h p m hp hm cand startedAt timeoutS hpc
    rcases List.eq_nil_or_concat' p with rfl | ⟨before, event, rfl⟩
    · obtain rfl := Option.some.inj hm
      exact absurd hpc (router.begin_ne_chatting _ _ _ _ _ _ _ _)
    · obtain ⟨after, rfl⟩ := hp
      obtain ⟨m₀, hm₀, hstep⟩ := Runs.run_concat_iff.mp hm
      obtain ⟨remaining, next, hacquiring, rfl, hvendor, rfl⟩ :=
        RouteTask.chatting_step hstep hpc
      obtain ⟨hdeadline, hremaining⟩ := hpaced hm₀
      have hintime := h before _ after (List.append_assoc _ _ _) m₀ hm₀
      simp only [AcquiredInTime, hacquiring] at hintime
      rw [hdeadline] at hintime
      exact (attemptTimeout_le_iff hknobs (hremaining _ _ hacquiring)).mpr (hintime hvendor)

/-! ## 4. A slow acquire -/

/-- What the clock reads in an event. -/
def RouteEvent.readings : RouteEvent → List ℚ
  | .acquired _ t0 next => [t0, next.now]
  | .replied _ now => [now]
  | .recorded next => [next.now]
  | .failed => []

theorem defaultKnobs_soleRouter : DefaultKnobs soleRouter := ⟨rfl, rfl, rfl⟩

/-- A second after the beginning the bucket has answered at once. -/
theorem deadline_respected_iff_quick : EndsBy soleRouter
    (soleRouter.begin hiRequest webCaller "r1" 0 (firstAt 1)) (0 + 10 - 1 / 2)
    [.acquired true 1 (firstAt 1)] := by
  have hend : (Runs.run (RouteTask.step soleRouter)
      (soleRouter.begin hiRequest webCaller "r1" 0 (firstAt 1))
      [.acquired true 1 (firstAt 1)]).isSome = true := by
    decide +kernel
  obtain ⟨t, hrun⟩ := Option.isSome_iff_exists.mp hend
  exact (deadline_respected_iff defaultKnobs_soleRouter hiRequest webCaller "r1" 0 (firstAt 1)
    hrun).mpr (by decide +kernel)

/-- The bucket takes two seconds to answer: the call starts at 2 with a timeout of 8. -/
theorem slow_acquire_overruns : ¬ ∀ (router : Router), DefaultKnobs router →
    ∀ (req : ChatCompletionRequest) (caller : Caller) (requestId : String) (entry : ℚ)
      (input : LoopInput) (es : List RouteEvent) (t : RouteTask),
      (entry :: input.now :: es.flatMap RouteEvent.readings).Pairwise (· ≤ ·) →
      Runs.run (RouteTask.step router) (router.begin req caller requestId entry input) es =
        some t →
      EndsBy router (router.begin req caller requestId entry input)
        (entry + router.totalBudgetS - router.bufferS) es := by
  intro h
  have hend : (Runs.run (RouteTask.step soleRouter)
      (soleRouter.begin hiRequest webCaller "r1" 0 (firstAt 0))
      [.acquired true 2 (firstAt 2)]).any (fun t => match t.pc with
        | .chatting _ startedAt timeoutS => decide (startedAt = 2 ∧ timeoutS = 8)
        | _ => false) = true := by
    decide +kernel
  obtain ⟨t, hrun, hend⟩ := (Option.any_eq_true _ _).mp hend
  split at hend
  · rename_i cand startedAt timeoutS hpc
    obtain ⟨rfl, rfl⟩ := of_decide_eq_true hend
    have hlate := h soleRouter defaultKnobs_soleRouter hiRequest webCaller "r1" 0 (firstAt 0) _ t
      (by decide +kernel) hrun _ t List.prefix_rfl hrun cand 2 8 hpc
    norm_num [soleRouter] at hlate
  · cases hend

end Librouter
