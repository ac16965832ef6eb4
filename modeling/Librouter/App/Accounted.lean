/-
# Which requests are accounted for

Every vendor call should leave one record in the accounting queue.  `route` does keep the records
(`RouteTask.Recorded`), but only its `RouterResult` carries them: `chat_completions` enqueues
`result.attempts`, and has nothing to enqueue when `route` raises.  A `RouterError` is raised only
when every call has failed, so the calls of a request are accounted for exactly when there are none
or one of them succeeds (`attempts_accounted_iff`).
-/
import Librouter.App.ChatCompletions
import Librouter.Router.Attempts
import Librouter.Foundations.Runs

namespace Librouter

/-! ## 1. The invariant -/

/-- What the vendors replied in the course of the events. -/
def vendorReplies (es : List ChatEvent) : List (Except ProviderError ChatResult) :=
  es.filterMap fun e => match e with
    | .route event => event.reply?
    | _ => none

/-- What can be said of the records of a request, wherever it stands. -/
def ChatTask.Audited (c : ChatTask) : Prop :=
  match c.pc with
  | .resolving => c.calls = [] ∧ c.enqueued = []
  | .checkingCap _ _ => c.calls = [] ∧ c.enqueued = []
  | .routing task => c.calls = task.calls ∧ c.enqueued = [] ∧ task.Recorded
  | .done (.ok _) => Accounted c.calls c.enqueued ∧ ∃ call ∈ c.calls, call.Succeeded
  | .done (.httpException _ _) => c.enqueued = [] ∧ ∀ call ∈ c.calls, ¬ call.Succeeded
  | .done .serverError => True

/-- **When `route` has come to its next await or to its end**, the request is audited. -/
theorem ChatTask.audited_proceed {c : ChatTask} {task : RouteTask} (hnone : c.enqueued = [])
    (h : task.Recorded) : (c.proceed task).Audited := by
  unfold proceed
  unfold RouteTask.Recorded at h
  split
  · rename_i outcome hpc
    rw [hpc] at h
    cases outcome with
    | returned response attempts =>
      -- the result carries the records
      simp only [Audited, RouteOutcome.reply, RouteOutcome.enqueues, hnone, List.nil_append]
      exact h
    | raised error =>
      -- the error does not
      simp only [Audited, RouteOutcome.reply, RouteOutcome.enqueues, hnone, List.nil_append]
      exact ⟨trivial, h⟩
    | crashed => trivial
  · exact ⟨rfl, hnone, h⟩

theorem ChatTask.audited_enter {router : Router} {c : ChatTask} (hnone : c.enqueued = [])
    (caller : Caller) (input : RouteInput) : (c.enter router caller input).Audited :=
  audited_proceed hnone (router.recorded_begin _ _ _ _ _)

/-- **Every step of a request keeps it audited.** -/
theorem ChatTask.Audited.step {router : Router} {c c' : ChatTask} {event : ChatEvent}
    (h : c.Audited) (hstep : c.step router event = some c') : c'.Audited := by
  cases moves_of_step hstep with
  | noCaller hpc | exhausted hpc hused =>
    simp only [Audited, hpc] at h
    simp [Audited, unauthorized, capExhausted, h]
  | resolveFails hpc | usageFails hpc => trivial
  | capped hpc hcap =>
    simp only [Audited, hpc] at h
    exact h
  | uncapped hpc _ | underCap hpc _ =>
    simp only [Audited, hpc] at h
    exact audited_enter h.2 _ _
  | route hpc htask =>
    simp only [Audited, hpc] at h
    exact audited_proceed h.2.1 (h.2.2.step htask)

/-- The calls of a request are what the vendors replied to. -/
theorem ChatTask.replies_step {router : Router} {c c' : ChatTask} {event : ChatEvent}
    (h : c.Audited) (hstep : c.step router event = some c') :
    c'.calls.map VendorCall.reply = c.calls.map VendorCall.reply ++ vendorReplies [event] := by
  cases moves_of_step hstep with
  | noCaller | resolveFails | exhausted | usageFails | capped => simp [vendorReplies]
  | uncapped hpc _ | underCap hpc _ =>
    simp only [Audited, hpc] at h
    simp [vendorReplies, h.1]
  | @route task task' event hpc htask =>
    simp only [Audited, hpc] at h
    rw [proceed_calls, RouteTask.replies_step htask, h.1]
    cases hreply : event.reply? <;> simp [vendorReplies, hreply]

/-- What is known of a request after the events `es`. -/
structure ChatInv (es : List ChatEvent) (c : ChatTask) : Prop where
  replies : c.calls.map VendorCall.reply = vendorReplies es
  audited : c.Audited

/-- **After any events**, a request is audited and its calls are those the vendors replied to. -/
theorem chatInv_of_run {router : Router} {body : ChatCompletionRequest} {es : List ChatEvent}
    {c : ChatTask} (hrun : Runs.run (ChatTask.step router) (ChatTask.start body) es = some c) :
    ChatInv es c := by
  have hstart : ChatInv [] (ChatTask.start body) := ⟨rfl, rfl, rfl⟩
  refine Runs.invariant _ hstart (fun es c e c' h hstep => ?_) hrun
  refine ⟨?_, h.audited.step hstep⟩
  rw [ChatTask.replies_step h.audited hstep, h.replies]
  exact List.filterMap_append.symm

/-! ## 2. When the calls are accounted for -/

theorem exists_succeeded_iff {calls : List VendorCall} :
    (∃ call ∈ calls, call.Succeeded) ↔ ∃ result, .ok result ∈ calls.map VendorCall.reply := by
  simp only [VendorCall.Succeeded, List.mem_map]
  constructor
  · rintro ⟨call, hmem, result, hok⟩
    exact ⟨result, call, hmem, hok⟩
  · rintro ⟨result, call, hmem, hok⟩
    exact ⟨call, hmem, result, hok⟩

/-- **A request that has its answer, or the `HTTPException` for a `RouterError`, has enqueued one
record for each vendor call exactly when no vendor was called or one of them replied with a
result.** -/
theorem attempts_accounted_iff (router : Router) (body : ChatCompletionRequest)
    {es : List ChatEvent} {c : ChatTask} {reply : ChatReply}
    (hrun : Runs.run (ChatTask.step router) (ChatTask.start body) es = some c)
    (hdone : c.pc = .done reply) (hreply : reply ≠ .serverError) :
    Accounted c.calls c.enqueued ↔
      vendorReplies es = [] ∨ ∃ result, .ok result ∈ vendorReplies es := by
  obtain ⟨hreplies, haudit⟩ := chatInv_of_run hrun
  rw [← hreplies, List.map_eq_nil_iff, ← exists_succeeded_iff]
  unfold ChatTask.Audited at haudit
  rw [hdone] at haudit
  cases reply with
  | ok response => exact iff_of_true haudit.1 (Or.inr haudit.2)
  | httpException statusCode detail =>
    rw [haudit.1, accounted_nil_right_iff]
    refine (or_iff_left ?_).symm
    rintro ⟨call, hmem, hok⟩
    exact haudit.2 call hmem hok
  | serverError => exact absurd rfl hreply

/-! ## 3. A timeout that leaves no record -/

/-- At `now`, with the first candidate that is not excluded. -/
def firstLeft (now : ℚ) : LoopInput := ⟨now, fun cands exclude =>
  (cands.map TierEntry.ref).find? fun c => c ∉ exclude⟩

/-- The only candidate times out: a 503 after one vendor call. -/
def timeoutEvents : List ChatEvent :=
  [.resolved (some webCaller) ⟨"r1", 0, firstLeft 0⟩,
    .route (.acquired true 0 (firstLeft 0)),
    .route (.replied (.error ⟨.timeout, true, "Timeout"⟩) 1),
    .route (.recorded (firstLeft 1))]

theorem timeoutEvents_run : ∃ c reply, Runs.run (ChatTask.step soleRouter)
    (ChatTask.start hiRequest) timeoutEvents = some c ∧ c.pc = .done reply ∧
      reply ≠ .serverError ∧ c.calls.length = 1 ∧ c.enqueued = [] := by
  have hend : (Runs.run (ChatTask.step soleRouter) (ChatTask.start hiRequest) timeoutEvents).any
      (fun c => c.statusCode? = some 503 ∧ c.calls.length = 1 ∧ c.enqueued.isEmpty) = true := by
    decide +kernel
  obtain ⟨c, hrun, hc⟩ := (Option.any_eq_true _ _).mp hend
  obtain ⟨hstatus, hcalls, hnone⟩ := of_decide_eq_true hc
  unfold ChatTask.statusCode? at hstatus
  split at hstatus <;> cases hstatus
  rename_i detail hpc
  exact ⟨c, _, hrun, hpc, nofun, hcalls, List.isEmpty_iff.mp hnone⟩

/-- The record of the timeout is not enqueued. -/
theorem timeout_unaccounted : ¬ ∀ (router : Router) (body : ChatCompletionRequest)
    (es : List ChatEvent) (c : ChatTask) (reply : ChatReply),
    Runs.run (ChatTask.step router) (ChatTask.start body) es = some c → c.pc = .done reply →
      reply ≠ .serverError → Accounted c.calls c.enqueued := by
  intro h
  obtain ⟨c, reply, hrun, hdone, hreply, hcalls, hnone⟩ := timeoutEvents_run
  have haccounted := h _ _ _ c _ hrun hdone hreply
  rw [hnone, accounted_nil_right_iff] at haccounted
  rw [haccounted] at hcalls
  cases hcalls

theorem attempts_accounted_iff_timeout : ∃ c, Runs.run (ChatTask.step soleRouter)
    (ChatTask.start hiRequest) timeoutEvents = some c ∧ (Accounted c.calls c.enqueued ↔
      vendorReplies timeoutEvents = [] ∨ ∃ result, .ok result ∈ vendorReplies timeoutEvents) := by
  obtain ⟨c, reply, hrun, hdone, hreply, -⟩ := timeoutEvents_run
  exact ⟨c, hrun, attempts_accounted_iff soleRouter hiRequest hrun hdone hreply⟩

end Librouter
