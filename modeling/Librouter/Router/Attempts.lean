/-
# What `route` keeps on record of its vendor calls

`attempts` grows with the loop: one record after each failed call, one more after the call that
succeeds.  `RouteTask.Recorded` is the invariant: wherever the coroutine stands, the records so far
match the calls so far, one by one, except while the observer is being told of a success, when the
last call is not on record yet.

What becomes of the records depends on how `route` ends.  A `RouterResult` carries them
(`Recorded` at `returned`); a `RouterError` has no field for them, and it is raised only when every
call has failed (`Recorded` at `raised`).

All of a record but what is fixed for the request comes from its call (`RouteTask.Documented`).
-/
import Librouter.Router

namespace Librouter

/-! ## 1. Calls and records -/

/-- One record for each call, in call order: its index, its candidate and its status. -/
def Accounted (calls : List VendorCall) (attempts : List AttemptRecord) : Prop :=
  attempts.map (fun r => (r.attemptIdx, r.provider, r.model, r.status)) =
    calls.mapIdx fun i c => (i, c.cand.provider, c.cand.model, c.status)

/-- The vendor answered. -/
def VendorCall.Succeeded (c : VendorCall) : Prop := ∃ result, c.reply = .ok result

theorem accounted_nil : Accounted [] [] := rfl

theorem Accounted.length_eq {calls : List VendorCall} {attempts : List AttemptRecord}
    (h : Accounted calls attempts) : attempts.length = calls.length := by
  simpa using congrArg List.length h

/-- No record is right only if there was no call. -/
theorem accounted_nil_right_iff {calls : List VendorCall} : Accounted calls [] ↔ calls = [] := by
  constructor
  · intro h
    exact List.length_eq_zero_iff.mp h.length_eq.symm
  · rintro rfl
    exact accounted_nil

/-- The next record for the next call. -/
theorem Accounted.concat {calls : List VendorCall} {attempts : List AttemptRecord}
    (h : Accounted calls attempts) {c : VendorCall} {r : AttemptRecord}
    (hr : (r.attemptIdx, r.provider, r.model, r.status) =
      (attempts.length, c.cand.provider, c.cand.model, c.status)) :
    Accounted (calls ++ [c]) (attempts ++ [r]) := by
  rw [Accounted, List.map_append, List.mapIdx_concat, ← h.length_eq, List.map_singleton, hr]
  exact congrArg (· ++ _) h

/-! ## 2. The invariant -/

/-- What is on record, wherever the coroutine stands. -/
def RouteTask.Recorded (t : RouteTask) : Prop :=
  match t.pc with
  | .recordingSuccess cand _ result =>
    ∃ earlier t0 attemptTimeout endedAt,
      t.calls = earlier ++ [⟨cand, t0, attemptTimeout, endedAt, .ok result⟩] ∧
        Accounted earlier t.attempts
  | .finished (.returned _ attempts) => Accounted t.calls attempts ∧ ∃ c ∈ t.calls, c.Succeeded
  | .finished (.raised _) => ∀ c ∈ t.calls, ¬ c.Succeeded
  | .finished .crashed => True
  | _ => (∀ c ∈ t.calls, ¬ c.Succeeded) ∧ Accounted t.calls t.attempts

theorem Router.recorded_loopTop (router : Router) {t : RouteTask} (input : LoopInput)
    (hfailed : ∀ c ∈ t.calls, ¬ c.Succeeded) (h : Accounted t.calls t.attempts) :
    (router.loopTop t input).Recorded := by
  rcases router.loopTop_cases t input with ⟨error, -, heq⟩ | ⟨cand, -, -, heq⟩
  · rw [heq]
    exact hfailed
  · rw [heq]
    exact ⟨hfailed, h⟩

theorem Router.recorded_begin (router : Router) (req : ChatCompletionRequest) (caller : Caller)
    (requestId : String) (now : ℚ) (input : LoopInput) :
    (router.begin req caller requestId now input).Recorded := by
  unfold Router.begin
  split
  · exact router.recorded_loopTop input (by simp) accounted_nil
  · show ∀ c ∈ [], ¬ VendorCall.Succeeded c
    simp

/-- **Every step of `route` keeps its records in line with its calls.** -/
theorem RouteTask.Recorded.step {router : Router} {t t' : RouteTask} {event : RouteEvent}
    (h : t.Recorded) (hstep : t.step router event = some t') : t'.Recorded := by
  cases moves_of_step hstep with
  | crash hpc => trivial
  | bucketEmpty hpc | vendorMissing hpc hvendor =>
    simp only [Recorded, hpc] at h
    exact router.recorded_loopTop _ h.1 h.2
  | call hpc hvendor =>
    simp only [Recorded, hpc] at h
    exact h
  | callFailed hpc =>
    simp only [Recorded, hpc] at h
    refine ⟨fun c hc => ?_, h.2.concat rfl⟩
    rcases List.mem_append.mp hc with hc | hc
    · exact h.1 c hc
    · rw [List.mem_singleton.mp hc]
      exact nofun
  | callOk hpc =>
    simp only [Recorded, hpc] at h
    exact ⟨t.calls, _, _, _, rfl, h.2⟩
  | giveUp hpc he =>
    simp only [Recorded, hpc] at h
    exact h.1
  | retry hpc he =>
    simp only [Recorded, hpc] at h
    exact router.recorded_loopTop _ h.1 h.2
  | answer hpc hresponse hattempts =>
    simp only [Recorded, hpc] at h
    obtain ⟨earlier, t0, attemptTimeout, endedAt, hcalls, haccounted⟩ := h
    subst hattempts
    show Accounted t.calls _ ∧ ∃ c ∈ t.calls, c.Succeeded
    rw [hcalls]
    exact ⟨haccounted.concat rfl, _, List.mem_concat_self, _, rfl⟩
  | callUnrecorded | recordFails | noMessage => trivial

/-! ## 3. The replies -/

/-- What the vendor answers in an event. -/
def RouteEvent.reply? : RouteEvent → Option (Except ProviderError ChatResult)
  | .replied reply _ => some reply
  | _ => none

@[simp] theorem Router.loopTop_calls (router : Router) (t : RouteTask) (input : LoopInput) :
    (router.loopTop t input).calls = t.calls := rfl

@[simp] theorem Router.failover_calls (router : Router) (t : RouteTask) (cand : CandidateRef)
    (why : String) (input : LoopInput) : (router.failover t cand why input).calls = t.calls := rfl

@[simp] theorem Router.begin_calls (router : Router) (req : ChatCompletionRequest) (caller : Caller)
    (requestId : String) (now : ℚ) (input : LoopInput) :
    (router.begin req caller requestId now input).calls = [] := by
  unfold Router.begin
  split <;> rfl

/-- The calls are what the vendors replied to. -/
theorem RouteTask.replies_step {router : Router} {t t' : RouteTask} {event : RouteEvent}
    (hstep : t.step router event = some t') :
    t'.calls.map VendorCall.reply = t.calls.map VendorCall.reply ++ event.reply?.toList := by
  cases moves_of_step hstep <;> simp [RouteEvent.reply?]

/-! ## 4. What a record is made of -/

namespace VendorCall

variable (c : VendorCall)

/-- What a record says of the tokens: those of the answer. -/
def inputTokens : ℕ :=
  match c.reply with
  | .ok result => result.inputTokens
  | .error _ => 0

def outputTokens : ℕ :=
  match c.reply with
  | .ok result => result.outputTokens
  | .error _ => 0

def vendorReqId : Option PyStr :=
  match c.reply with
  | .ok result => result.vendorRequestId
  | .error _ => none

end VendorCall

/-- The record of the call with this index. -/
def Router.recordOf (router : Router) (t : RouteTask) (i : ℕ) (c : VendorCall) : AttemptRecord :=
  { router.record t c.cand (c.endedAt - c.startedAt) c.status c.inputTokens c.outputTokens
      c.vendorReqId with attemptIdx := i }

/-- The records are those of the calls; while the observer is being told of a success, the last one
is still to come. -/
def RouteTask.Documented (router : Router) (t : RouteTask) : Prop :=
  match t.pc with
  | .recordingSuccess cand elapsed result =>
    ∃ earlier t0 attemptTimeout endedAt,
      t.calls = earlier ++ [⟨cand, t0, attemptTimeout, endedAt, .ok result⟩] ∧
        elapsed = endedAt - t0 ∧ t.attempts = earlier.mapIdx (router.recordOf t)
  | .finished (.returned _ attempts) => attempts = t.calls.mapIdx (router.recordOf t)
  | .finished _ => True
  | _ => t.attempts = t.calls.mapIdx (router.recordOf t)

/-- One more call, and its record. -/
theorem Router.record_concat {router : Router} {t : RouteTask} {calls : List VendorCall}
    (h : t.attempts = calls.mapIdx (router.recordOf t)) (c : VendorCall) :
    t.attempts ++ [router.record t c.cand (c.endedAt - c.startedAt) c.status c.inputTokens
      c.outputTokens c.vendorReqId] = (calls ++ [c]).mapIdx (router.recordOf t) := by
  have hlength : t.attempts.length = calls.length := by rw [h, List.length_mapIdx]
  rw [List.mapIdx_concat, ← h, ← hlength]
  rfl

theorem Router.documented_loopTop (router : Router) {t : RouteTask} (input : LoopInput)
    (h : t.attempts = t.calls.mapIdx (router.recordOf t)) :
    (router.loopTop t input).Documented router := by
  rcases router.loopTop_cases t input with ⟨error, -, heq⟩ | ⟨cand, -, -, heq⟩
  · rw [heq]
    trivial
  · rw [heq]
    exact h

theorem Router.documented_begin (router : Router) (req : ChatCompletionRequest) (caller : Caller)
    (requestId : String) (now : ℚ) (input : LoopInput) :
    (router.begin req caller requestId now input).Documented router := by
  unfold Router.begin
  dsimp only
  split
  · exact router.documented_loopTop input rfl
  · trivial

/-- **Every step of `route` makes its records of its calls.** -/
theorem RouteTask.Documented.step {router : Router} {t t' : RouteTask} {event : RouteEvent}
    (h : t.Documented router) (hstep : t.step router event = some t') : t'.Documented router := by
  cases moves_of_step hstep with
  | crash | giveUp | callUnrecorded | recordFails | noMessage => trivial
  | bucketEmpty hpc | vendorMissing hpc | retry hpc =>
    simp only [Documented, hpc] at h
    exact router.documented_loopTop _ h
  | call hpc =>
    simp only [Documented, hpc] at h
    exact h
  | callFailed hpc =>
    simp only [Documented, hpc] at h
    exact Router.record_concat h ⟨_, _, _, _, .error _⟩
  | callOk hpc =>
    simp only [Documented, hpc] at h
    exact ⟨t.calls, _, _, _, rfl, rfl, h⟩
  | answer hpc hresponse hattempts =>
    simp only [Documented, hpc] at h
    obtain ⟨earlier, t0, attemptTimeout, endedAt, hcalls, rfl, hearlier⟩ := h
    subst hattempts
    show _ = t.calls.mapIdx (router.recordOf t)
    rw [hcalls]
    exact Router.record_concat hearlier ⟨_, t0, attemptTimeout, endedAt, .ok _⟩

end Librouter
