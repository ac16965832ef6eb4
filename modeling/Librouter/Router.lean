/-
# `router.py`: routing one request

`Router.route` picks a candidate, takes its tokens from the bucket, calls the vendor, and starts
over with the next candidate as long as the errors are retryable and the deadline is not near.  It
is modelled between its awaits (`RouteTask.step`): what the clock reads, which candidate the weight
engine picks, whether the bucket has the tokens and what the vendor replies are in the events, so
a run of the step function is one call of `route` in any environment.
-/
import Librouter.Errors
import Librouter.Ratelimit
import Librouter.Foundations.Runs

namespace Librouter

/-! ## 1. What `route` returns and raises -/

/-- `RouterErrorKind`. -/
inductive RouterErrorKind
  | invalidRequest
  | auth
  | upstreamUnavailable
  | deadlineExceeded
deriving DecidableEq

/-- `RouterError`. -/
structure RouterError where
  kind : RouterErrorKind
  body : ErrorBody
  tried : List (CandidateRef × String)

/-- How a call of `route` ends. -/
inductive RouteOutcome
  /-- `RouterResult` -/
  | returned (response : ChatCompletionResponse) (attempts : List AttemptRecord)
  | raised (error : RouterError)
  /-- another exception leaves `route`: Redis fails in an await, the record of an attempt cannot be
  made, or the text of the answer is not one of a `Message` -/
  | crashed

/-! ## 2. The router -/

/-- An entry of the pricing index. -/
structure PriceEntry where
  inputCostPerToken : ℚ
  outputCostPerToken : ℚ

/-- What `lifespan` builds the router from; the clock, the random numbers, the weight engine, the
bucket, the observer and the vendors answer through events. -/
structure Router where
  cfg : Config
  /-- the keys of the vendors dictionary -/
  vendors : List String
  totalBudgetS : ℚ := 10
  perAttemptMaxS : ℚ := 8
  bufferS : ℚ := 1 / 2
  pricing : Dict (String × String) PriceEntry := Dict.empty
  /-- `repr` of a string, for the message about an unknown tier -/
  repr : String → String

/-- `PricingTable.cost_usd`: zero for a model without a price. -/
def Router.costUsd (router : Router) (provider model : String) (inputTokens outputTokens : ℕ) : ℚ :=
  match router.pricing.get? (provider, model) with
  | none => 0
  | some entry =>
    inputTokens * entry.inputCostPerToken + outputTokens * entry.outputCostPerToken

/-- `estimate_tokens(prompt_chars, req.max_tokens)`. -/
def ChatCompletionRequest.est (req : ChatCompletionRequest) : ℕ :=
  estimateTokens (req.messages.map fun m => m.content.length).sum req.maxTokens

/-- The `request_id` of the metadata, cut to the width of its column. -/
def ChatCompletionRequest.clientTraceId (req : ChatCompletionRequest) : Option PyStr :=
  ((req.metadata.getD Dict.empty).get? (PyStr.of "request_id")).map (PyStr.take 128)

/-- The trace id as `AttemptRecord` takes it: its field has a constraint. -/
def ChatCompletionRequest.recordedTraceId (req : ChatCompletionRequest) : Option String :=
  req.clientTraceId.bind PyStr.text?

/-- `AttemptRecord` refuses the trace id. -/
def ChatCompletionRequest.traceRaises (req : ChatCompletionRequest) : Bool :=
  req.clientTraceId.any fun id => !id.isText

theorem ChatCompletionRequest.traceRaises_eq_false_iff {req : ChatCompletionRequest} :
    req.traceRaises = false ↔ ∀ id ∈ req.clientTraceId, id.isText = true := by
  unfold traceRaises
  cases req.clientTraceId <;> simp

/-- `_record` raises: `cost_usd` has a price, and a count to multiply it with that is no float, or
`AttemptRecord` refuses the cost, which is negative, or the trace id. -/
def Router.recordRaises (router : Router) (req : ChatCompletionRequest) (provider model : String)
    (inputTokens outputTokens : ℕ) : Bool :=
  (router.pricing.contains (provider, model) &&
    (decide (floatOverflow ≤ inputTokens) || decide (floatOverflow ≤ outputTokens) ||
      decide (router.costUsd provider model inputTokens outputTokens < 0))) || req.traceRaises

/-- A call of `vendor.chat` and what it came to. -/
structure VendorCall where
  cand : CandidateRef
  startedAt : ℚ
  timeoutS : ℚ
  endedAt : ℚ
  reply : Except ProviderError ChatResult

/-- The status of the call. -/
def VendorCall.status (c : VendorCall) : String :=
  match c.reply with
  | .ok _ => "ok"
  | .error e => e.status

/-! ## 3. A call of `route` -/

/-- Where the coroutine stands. -/
inductive RoutePc
  /-- in `bucket.try_acquire(...)` -/
  | acquiring (remaining : ℚ) (cand : CandidateRef)
  /-- in `vendor.chat(...)` -/
  | chatting (cand : CandidateRef) (t0 attemptTimeout : ℚ)
  /-- in `observer.record_failure(...)` -/
  | recordingFailure (cand : CandidateRef) (e : ProviderError)
  /-- in `observer.record_success(...)` -/
  | recordingSuccess (cand : CandidateRef) (elapsed : ℚ) (result : ChatResult)
  | finished (outcome : RouteOutcome)

/-- A call of `route`. -/
structure RouteTask where
  req : ChatCompletionRequest
  caller : Caller
  requestId : String
  deadline : ℚ
  exclude : List CandidateRef := []
  tried : List (CandidateRef × String) := []
  attempts : List AttemptRecord := []
  /-- history: the calls of `vendor.chat` that have come back -/
  calls : List VendorCall := []
  pc : RoutePc

/-- What the loop reads when it comes round: the clock, and the weight engine's choice. -/
structure LoopInput where
  now : ℚ
  pick : List TierEntry → List CandidateRef → Option CandidateRef

/-- What an await of `route` comes back with, and what is read before the next one. -/
inductive RouteEvent
  | acquired (ok : Bool) (t0 : ℚ) (next : LoopInput)
  | replied (reply : Except ProviderError ChatResult) (now : ℚ)
  | recorded (next : LoopInput)
  /-- the await raises an exception that is no `ProviderError` -/
  | failed

namespace Router

variable (router : Router)

/-- The candidates of the tier. -/
def tierCandidates (tier : String) : List TierEntry :=
  ((router.cfg.tiers.get? tier).map TierConfig.candidates).getD []

def unknownTier (tier : String) : RouterError where
  kind := .invalidRequest
  body := { type := "invalid_request", message := "unknown tier " ++ router.repr tier }
  tried := []

def deadlineExceeded (tried : List (CandidateRef × String)) : RouterError where
  kind := .deadlineExceeded
  body := { type := "deadline_exceeded", message := "ran out of budget mid-failover",
            retryable := true }
  tried := tried

def upstreamUnavailable (tried : List (CandidateRef × String)) : RouterError where
  kind := .upstreamUnavailable
  body := { type := "upstream_unavailable", message := "all candidates exhausted",
            retryable := true }
  tried := tried

/-- The error for a non-retryable `e`. -/
def callerError (tried : List (CandidateRef × String)) (cand : CandidateRef) (e : ProviderError) :
    RouterError where
  kind := if (callerErrorFor e).1 = 400 then .invalidRequest else .auth
  body := (callerErrorFor e).2
  tried := tried ++ [(cand, e.status)]

/-- `_record`. -/
def record (t : RouteTask) (cand : CandidateRef) (latencyS : ℚ) (status : String)
    (inputTokens outputTokens : ℕ) (vendorReqId : Option PyStr) : AttemptRecord where
  requestId := t.requestId
  caller := t.caller.name
  tier := t.req.model
  provider := cand.provider
  model := cand.model
  attemptIdx := t.attempts.length
  inputTokens := inputTokens
  outputTokens := outputTokens
  costUsd := router.costUsd cand.provider cand.model inputTokens outputTokens
  latencyMs := ⌊latencyS * 1000⌋.toNat
  status := status
  vendorReqId := vendorReqId
  clientTraceId := t.req.recordedTraceId

/-- `attempt_timeout`. -/
def attemptTimeout (remaining : ℚ) : ℚ :=
  min (max (1 / 10) (remaining - router.bufferS)) router.perAttemptMaxS

/-- From the top of the loop to its next await, or out of it. -/
def loopTop (t : RouteTask) (input : LoopInput) : RouteTask :=
  let remaining := t.deadline - input.now
  { t with pc :=
      if remaining < 3 / 2 then
        if t.attempts ≠ [] then .finished (.raised (deadlineExceeded t.tried))
        else .finished (.raised (upstreamUnavailable t.tried))
      else
        match input.pick (router.tierCandidates t.req.model) t.exclude with
        | none => .finished (.raised (upstreamUnavailable t.tried))
        | some cand => .acquiring remaining cand }

/-- The next candidate: this one was tried. -/
def failover (t : RouteTask) (cand : CandidateRef) (why : String) (input : LoopInput) : RouteTask :=
  router.loopTop { t with tried := t.tried ++ [(cand, why)], exclude := t.exclude ++ [cand] } input

/-- The beginning of `route`, up to its first await. -/
def begin (req : ChatCompletionRequest) (caller : Caller) (requestId : String) (now : ℚ)
    (input : LoopInput) : RouteTask :=
  let t : RouteTask := { req := req, caller := caller, requestId := requestId,
                         deadline := now + router.totalBudgetS,
                         pc := .finished (.raised (router.unknownTier req.model)) }
  if router.cfg.tiers.contains req.model then router.loopTop t input else t

end Router

/-- The response to the caller, if the text can be a message. -/
def RouteTask.response (t : RouteTask) (result : ChatResult) : Option ChatCompletionResponse :=
  (Message.ofContent .assistant result.text).map fun message => {
    id := t.requestId
    model := t.req.model
    choices := [⟨0, message, result.finishReason⟩]
    usage := ⟨result.inputTokens, result.outputTokens, result.inputTokens + result.outputTokens⟩ }

/-- What an await that has come back leads to. -/
def RouteTask.step (router : Router) (t : RouteTask) (event : RouteEvent) : Option RouteTask :=
  match t.pc, event with
  | .finished _, _ => none
  | _, .failed => some { t with pc := .finished .crashed }
  | .acquiring remaining cand, .acquired ok t0 next =>
    if ok = false then some (router.failover t cand "bucket_empty" next)
    else if cand.provider ∉ router.vendors then some (router.failover t cand "vendor_missing" next)
    else some { t with pc := .chatting cand t0 (router.attemptTimeout remaining) }
  | .chatting cand t0 attemptTimeout, .replied (.error e) now =>
    let calls := t.calls ++ [⟨cand, t0, attemptTimeout, now, .error e⟩]
    if router.recordRaises t.req cand.provider cand.model 0 0 then
      some { t with calls := calls, pc := .finished .crashed }
    else
    let attempt := router.record t cand (now - t0) e.status 0 0 none
    some { t with
      calls := calls
      attempts := t.attempts ++ [attempt]
      pc := .recordingFailure cand e }
  | .chatting cand t0 attemptTimeout, .replied (.ok result) now =>
    some { t with
      calls := t.calls ++ [⟨cand, t0, attemptTimeout, now, .ok result⟩]
      pc := .recordingSuccess cand (now - t0) result }
  | .recordingFailure cand e, .recorded next =>
    if e.nonRetryable then
      some { t with pc := .finished (.raised (Router.callerError t.tried cand e)) }
    else some (router.failover t cand e.status next)
  | .recordingSuccess cand elapsed result, .recorded _ =>
    if router.recordRaises t.req cand.provider cand.model result.inputTokens
        result.outputTokens then
      some { t with pc := .finished .crashed }
    else
    let attempt := router.record t cand elapsed "ok" result.inputTokens result.outputTokens
      result.vendorRequestId
    let attempts := t.attempts ++ [attempt]
    match t.response result with
    | some response => some { t with
        attempts := attempts
        pc := .finished (.returned response attempts) }
    | none => some { t with
        attempts := attempts
        pc := .finished .crashed }
  | _, _ => none

/-! ## 4. The transitions -/

/-- From the top of the loop: out of it with an error, or to the bucket of the candidate the weight
engine picked, with at least one and a half seconds left. -/
theorem Router.loopTop_cases (router : Router) (t : RouteTask) (input : LoopInput) :
    (∃ error, error.tried = t.tried ∧
      router.loopTop t input = { t with pc := .finished (.raised error) }) ∨
      ∃ cand, input.pick (router.tierCandidates t.req.model) t.exclude = some cand ∧
        3 / 2 ≤ t.deadline - input.now ∧
        router.loopTop t input = { t with pc := .acquiring (t.deadline - input.now) cand } := by
  unfold Router.loopTop
  by_cases hlate : t.deadline - input.now < 3 / 2
  · left
    simp only [if_pos hlate]
    split
    · exact ⟨Router.deadlineExceeded t.tried, rfl, rfl⟩
    · exact ⟨Router.upstreamUnavailable t.tried, rfl, rfl⟩
  · simp only [if_neg hlate]
    cases hpick : input.pick (router.tierCandidates t.req.model) t.exclude with
    | none => exact Or.inl ⟨Router.upstreamUnavailable t.tried, rfl, rfl⟩
    | some cand => exact Or.inr ⟨cand, rfl, not_lt.mp hlate, rfl⟩

/-- The top of the loop returns nothing. -/
theorem Router.not_returned_loopTop (router : Router) (t : RouteTask) (input : LoopInput)
    (response : ChatCompletionResponse) (attempts : List AttemptRecord) :
    (router.loopTop t input).pc ≠ .finished (.returned response attempts) := by
  rcases router.loopTop_cases t input with ⟨error, -, heq⟩ | ⟨cand, -, -, heq⟩ <;>
    · rw [heq]
      exact nofun

theorem Router.begin_caller (router : Router) (req : ChatCompletionRequest) (caller : Caller)
    (requestId : String) (now : ℚ) (input : LoopInput) :
    (router.begin req caller requestId now input).caller = caller := by
  unfold Router.begin
  dsimp only
  split <;> rfl

theorem Router.costUsd_zero (router : Router) (provider model : String) :
    router.costUsd provider model 0 0 = 0 := by
  unfold costUsd
  split <;> simp

/-- The record of a failed call has no tokens: only the trace id can be refused. -/
theorem Router.recordRaises_zero (router : Router) (req : ChatCompletionRequest)
    (provider model : String) : router.recordRaises req provider model 0 0 = req.traceRaises := by
  have hlarge : 2 ^ 0 < floatOverflow := two_pow_lt_floatOverflow_iff.mpr (by norm_num)
  simp [recordRaises, router.costUsd_zero, (Nat.zero_lt_of_lt hlarge).ne']

/-- The transitions of `route`, with everything each of them changes. -/
inductive RouteTask.Moves (router : Router) (t : RouteTask) : RouteEvent → RouteTask → Prop
  | crash (hpc : ∀ outcome, t.pc ≠ .finished outcome) :
      Moves router t .failed { t with pc := .finished .crashed }
  | bucketEmpty {remaining t0 : ℚ} {cand : CandidateRef} {next : LoopInput}
      (hpc : t.pc = .acquiring remaining cand) :
      Moves router t (.acquired false t0 next) (router.failover t cand "bucket_empty" next)
  | vendorMissing {remaining t0 : ℚ} {cand : CandidateRef} {next : LoopInput}
      (hpc : t.pc = .acquiring remaining cand) (hvendor : cand.provider ∉ router.vendors) :
      Moves router t (.acquired true t0 next) (router.failover t cand "vendor_missing" next)
  | call {remaining t0 : ℚ} {cand : CandidateRef} {next : LoopInput}
      (hpc : t.pc = .acquiring remaining cand) (hvendor : cand.provider ∈ router.vendors) :
      Moves router t (.acquired true t0 next)
        { t with pc := .chatting cand t0 (router.attemptTimeout remaining) }
  | callFailed {t0 attemptTimeout now : ℚ} {cand : CandidateRef} {e : ProviderError}
      (hpc : t.pc = .chatting cand t0 attemptTimeout) (htrace : t.req.traceRaises = false) :
      Moves router t (.replied (.error e) now)
        { t with
          calls := t.calls ++ [⟨cand, t0, attemptTimeout, now, .error e⟩]
          attempts := t.attempts ++ [router.record t cand (now - t0) e.status 0 0 none]
          pc := .recordingFailure cand e }
  | callUnrecorded {t0 attemptTimeout now : ℚ} {cand : CandidateRef} {e : ProviderError}
      (hpc : t.pc = .chatting cand t0 attemptTimeout) (htrace : t.req.traceRaises = true) :
      Moves router t (.replied (.error e) now)
        { t with
          calls := t.calls ++ [⟨cand, t0, attemptTimeout, now, .error e⟩]
          pc := .finished .crashed }
  | callOk {t0 attemptTimeout now : ℚ} {cand : CandidateRef} {result : ChatResult}
      (hpc : t.pc = .chatting cand t0 attemptTimeout) :
      Moves router t (.replied (.ok result) now)
        { t with
          calls := t.calls ++ [⟨cand, t0, attemptTimeout, now, .ok result⟩]
          pc := .recordingSuccess cand (now - t0) result }
  | giveUp {cand : CandidateRef} {e : ProviderError} {next : LoopInput}
      (hpc : t.pc = .recordingFailure cand e) (he : e.nonRetryable = true) :
      Moves router t (.recorded next)
        { t with pc := .finished (.raised (Router.callerError t.tried cand e)) }
  | retry {cand : CandidateRef} {e : ProviderError} {next : LoopInput}
      (hpc : t.pc = .recordingFailure cand e) (he : e.nonRetryable = false) :
      Moves router t (.recorded next) (router.failover t cand e.status next)
  | recordFails {cand : CandidateRef} {elapsed : ℚ} {result : ChatResult} {next : LoopInput}
      (hpc : t.pc = .recordingSuccess cand elapsed result)
      (hraises : router.recordRaises t.req cand.provider cand.model result.inputTokens
        result.outputTokens = true) :
      Moves router t (.recorded next) { t with pc := .finished .crashed }
  | answer {cand : CandidateRef} {elapsed : ℚ} {result : ChatResult} {next : LoopInput}
      {response : ChatCompletionResponse} {attempts : List AttemptRecord}
      (hpc : t.pc = .recordingSuccess cand elapsed result)
      (hresponse : t.response result = some response)
      (hattempts : attempts = t.attempts ++ [router.record t cand elapsed "ok" result.inputTokens
        result.outputTokens result.vendorRequestId])
      (hrecord : router.recordRaises t.req cand.provider cand.model result.inputTokens
        result.outputTokens = false) :
      Moves router t (.recorded next)
        { t with attempts := attempts, pc := .finished (.returned response attempts) }
  | noMessage {cand : CandidateRef} {elapsed : ℚ} {result : ChatResult} {next : LoopInput}
      {attempts : List AttemptRecord}
      (hpc : t.pc = .recordingSuccess cand elapsed result) (hresponse : t.response result = none)
      (hattempts : attempts = t.attempts ++ [router.record t cand elapsed "ok" result.inputTokens
        result.outputTokens result.vendorRequestId])
      (hrecord : router.recordRaises t.req cand.provider cand.model result.inputTokens
        result.outputTokens = false) :
      Moves router t (.recorded next) { t with attempts := attempts, pc := .finished .crashed }

/-- A step is one of the transitions. -/
theorem RouteTask.moves_of_step {router : Router} {t t' : RouteTask} {event : RouteEvent}
    (h : t.step router event = some t') : t.Moves router event t' := by
  unfold RouteTask.step at h
  split at h
  · cases h
  · rename_i hpc
    cases h
    exact .crash hpc
  · rename_i hpc
    split at h
    · rename_i hok
      cases h
      rw [hok]
      exact .bucketEmpty hpc
    · rename_i hok
      rw [Bool.not_eq_false] at hok
      subst hok
      split at h <;> cases h
      · exact .vendorMissing hpc ‹_›
      · exact .call hpc (not_not.mp ‹_›)
  · dsimp only at h
    rw [Router.recordRaises_zero] at h
    split at h <;> cases h
    · exact .callUnrecorded ‹_› ‹_›
    · exact .callFailed ‹_› (Bool.not_eq_true _ ▸ ‹_›)
  · cases h
    exact .callOk ‹_›
  · split at h <;> cases h
    · exact .giveUp ‹_› ‹_›
    · exact .retry ‹_› (Bool.not_eq_true _ ▸ ‹_›)
  · rename_i hpc
    split at h
    · cases h
      exact .recordFails hpc ‹_›
    · rename_i hrecord
      rw [Bool.not_eq_true] at hrecord
      dsimp only at h
      split at h <;> cases h
      · exact .answer hpc ‹_› rfl hrecord
      · exact .noMessage hpc ‹_› rfl hrecord
  · cases h

/-- The arguments of `route` and its locals of before the loop stay as they are. -/
theorem RouteTask.frame_step {router : Router} {t t' : RouteTask} {event : RouteEvent}
    (h : t.step router event = some t') : t'.req = t.req ∧ t'.caller = t.caller ∧
      t'.requestId = t.requestId ∧ t'.deadline = t.deadline := by
  cases moves_of_step h <;> exact ⟨rfl, rfl, rfl, rfl⟩

/-! ## 5. A sample -/

/-- The router of the tier with one candidate. -/
def soleRouter : Router where
  cfg := fastConfig
  vendors := ["openai"]
  repr := fun s => "'" ++ s ++ "'"

/-- The first candidate, whatever the clock reads. -/
def firstAt (now : ℚ) : LoopInput := ⟨now, fun cands _ => (cands.map TierEntry.ref).head?⟩

end Librouter
