/-
# What becomes of a vendor's answer

Between the call that succeeds and the `RouterResult` lie the observer's write to Redis, the record
of the attempt and the response, and `route` guards none of them.  The write raises when Redis does.
The record prices the tokens in floats, which not every count converts to, and carries the trace id
of the caller, which cannot always be encoded.  And the response puts the text into a `Message`,
which takes no text that cannot be encoded, and whose bound is there for the messages of requests.

The answer is returned, with its tokens on record, exactly when none of this happens
(`success_kept_iff`).
-/
import Librouter.Router

namespace Librouter

/-! ## 1. The answer and the result -/

/-- How the observer's write comes back. -/
inductive ObservationWrite
  | done (next : LoopInput)
  | raises

def ObservationWrite.event : ObservationWrite → RouteEvent
  | .done next => .recorded next
  | .raises => .failed

/-- The response carries the text and the usage of the answer. -/
structure ChatCompletionResponse.Carries (response : ChatCompletionResponse)
    (result : ChatResult) : Prop where
  choices : response.choices.map (fun c => (PyStr.of c.message.content, c.finishReason))
    = [(result.text, result.finishReason)]
  promptTokens : response.usage.promptTokens = result.inputTokens
  completionTokens : response.usage.completionTokens = result.outputTokens
  totalTokens : response.usage.totalTokens = result.inputTokens + result.outputTokens

/-- The record is that of the answer. -/
structure AttemptRecord.Records (rec : AttemptRecord) (result : ChatResult) : Prop where
  status : rec.status = "ok"
  inputTokens : rec.inputTokens = result.inputTokens
  outputTokens : rec.outputTokens = result.outputTokens

/-- The vendor answers, the observer's write comes back, and `route` returns the answer. -/
def SuccessKept (router : Router) (t : RouteTask) (result : ChatResult) (now : ℚ)
    (write : ObservationWrite) : Prop :=
  ∃ t₁ t₂ response attempts, t.step router (.replied (.ok result) now) = some t₁ ∧
    t₁.step router write.event = some t₂ ∧ t₂.pc = .finished (.returned response attempts) ∧
    response.Carries result ∧ ∃ rec, attempts.getLast? = some rec ∧ rec.Records result

/-! ## 2. What can go wrong -/

/-- A response is built of every text that fits, and says what the vendor said. -/
theorem RouteTask.response_iff {t : RouteTask} {result : ChatResult}
    {response : ChatCompletionResponse} (h : t.response result = some response) :
    (result.text.isText = true ∧ result.text.length ≤ 200000) ∧ response.Carries result := by
  obtain ⟨message, hmessage, rfl⟩ := Option.map_eq_some_iff.mp h
  have hcontent := (Message.ofContent_eq_some_iff.mp hmessage).2
  refine ⟨Message.ofContent_isSome_iff.mp (Option.isSome_of_mem hmessage), ?_, rfl, rfl, rfl⟩
  rw [← hcontent]
  rfl

theorem RouteTask.response_isSome {t : RouteTask} {result : ChatResult}
    (hfits : result.text.isText = true ∧ result.text.length ≤ 200000) :
    ∃ response, t.response result = some response := by
  obtain ⟨message, hmessage⟩ := Option.isSome_iff_exists.mp (Message.ofContent_isSome_iff.mpr hfits)
  exact ⟨_, Option.map_eq_some_iff.mpr ⟨message, hmessage, rfl⟩⟩

/-- What a router can record: there is no price, or the counts convert and the cost is not
negative; and the trace id is a text. -/
theorem Router.recordRaises_eq_false_iff {router : Router} {req : ChatCompletionRequest}
    {provider model : String} {n m : ℕ} :
    router.recordRaises req provider model n m = false ↔
      ((provider, model) ∈ router.pricing.keys →
        n < floatOverflow ∧ m < floatOverflow ∧ 0 ≤ router.costUsd provider model n m) ∧
      ∀ id ∈ req.clientTraceId, id.isText = true := by
  rw [← ChatCompletionRequest.traceRaises_eq_false_iff]
  simp [Router.recordRaises, Dict.contains, and_assoc]

section Steps

variable {router : Router} {t : RouteTask} {cand : CandidateRef} {t0 timeout : ℚ}

/-- The vendor's answer is held while the observer writes. -/
theorem RouteTask.step_answered (hpc : t.pc = .chatting cand t0 timeout) (result : ChatResult)
    (now : ℚ) : ∃ t₁, t.step router (.replied (.ok result) now) = some t₁ ∧
      t₁.pc = .recordingSuccess cand (now - t0) result ∧ t₁.req = t.req := by
  unfold RouteTask.step
  rw [hpc]
  exact ⟨_, rfl, rfl, rfl⟩

/-- The await of the write raises, and `route` with it. -/
theorem SuccessKept.not_raises {result : ChatResult} {now : ℚ} {write : ObservationWrite}
    (h : SuccessKept router t result now write) : write ≠ .raises := by
  rintro rfl
  obtain ⟨t₁, t₂, response, attempts, -, hwrite, hreturned, -, -⟩ := h
  cases RouteTask.moves_of_step hwrite with
  | crash => cases hreturned

/-- **When the answer gets through.**  For every request, every attempt whose call the vendor
answers, and however the observer's write comes back: exactly when the write does not raise, the
text can be a message, the cost can be computed and recorded, and so can the trace id. -/
theorem success_kept_iff (router : Router) (t : RouteTask) (hpc : t.pc = .chatting cand t0 timeout)
    (result : ChatResult) (now : ℚ) (write : ObservationWrite) :
    SuccessKept router t result now write ↔
      write ≠ .raises ∧ (result.text.isText = true ∧ result.text.length ≤ 200000) ∧
        ((cand.provider, cand.model) ∈ router.pricing.keys →
          result.inputTokens < floatOverflow ∧ result.outputTokens < floatOverflow ∧
          0 ≤ router.costUsd cand.provider cand.model result.inputTokens result.outputTokens) ∧
        ∀ id ∈ t.req.clientTraceId, id.isText = true := by
  obtain ⟨t₁, hanswered, hpc₁, hreq⟩ := RouteTask.step_answered hpc result now
  rw [← Router.recordRaises_eq_false_iff, ← hreq]
  constructor
  · intro hkept
    refine ⟨hkept.not_raises, ?_⟩
    have ⟨t₁', t₂, response, attempts, hanswered', hwrite, hreturned, _, _⟩ := hkept
    obtain rfl := Option.some.inj (hanswered.symm.trans hanswered')
    cases write with
    | raises => exact absurd rfl hkept.not_raises
    | done next =>
      have hmoves : t₁.Moves router (.recorded next) t₂ := RouteTask.moves_of_step hwrite
      cases hmoves with
      | giveUp hpc' | retry hpc' =>
        rw [hpc₁] at hpc'
        cases hpc'
      | recordFails | noMessage => cases hreturned
      | answer hpc' hresponse hattempts hrecord =>
        rw [hpc₁] at hpc'
        cases hpc'
        exact ⟨(RouteTask.response_iff hresponse).1, hrecord⟩
  · rintro ⟨hwrite, hfits, hrecord⟩
    cases write with
    | raises => exact absurd rfl hwrite
    | done next =>
      obtain ⟨response, hresponse⟩ := RouteTask.response_isSome (t := t₁) hfits
      have hstep : ∃ t₂, t₁.step router (.recorded next) = some t₂ ∧
          t₂.pc = .finished (.returned response (t₁.attempts ++ [router.record t₁ cand (now - t0)
            "ok" result.inputTokens result.outputTokens result.vendorRequestId])) := by
        unfold RouteTask.step
        rw [hpc₁]
        simp only [hrecord, hresponse]
        exact ⟨_, rfl, rfl⟩
      obtain ⟨t₂, hrecorded, hreturned⟩ := hstep
      exact ⟨t₁, t₂, response, _, hanswered, hrecorded, hreturned,
        (RouteTask.response_iff hresponse).2, _, List.getLast?_concat, rfl, rfl, rfl⟩

end Steps

/-! ## 3. An answer that is lost -/

/-- The request "hi" while its only candidate is called. -/
theorem run_calling : ∃ t, Runs.run (RouteTask.step soleRouter)
    (soleRouter.begin hiRequest webCaller "r1" 0 (firstAt 0)) [.acquired true 0 (firstAt 0)]
      = some t ∧ ∃ cand timeout, t.pc = .chatting cand 0 timeout := by
  have hcalling : (Runs.run (RouteTask.step soleRouter)
      (soleRouter.begin hiRequest webCaller "r1" 0 (firstAt 0))
      [.acquired true 0 (firstAt 0)]).any (fun t => match t.pc with
        | .chatting _ startedAt _ => decide (startedAt = 0)
        | _ => false) = true := by
    decide +kernel
  obtain ⟨t, hrun, hpc⟩ := (Option.any_eq_true _ _).mp hcalling
  refine ⟨t, hrun, ?_⟩
  split at hpc
  · rename_i cand startedAt timeout hchatting
    obtain rfl := of_decide_eq_true hpc
    exact ⟨cand, timeout, hchatting⟩
  · cases hpc

/-- The vendor answers with ten tokens. -/
def helloResult : ChatResult := ⟨"hello", some "stop", 4, 6, none⟩

/-- `success_kept_iff` on that answer, observed without a hitch. -/
theorem success_kept_iff_hello : ∃ (t : RouteTask) (cand : CandidateRef),
    Runs.run (RouteTask.step soleRouter)
    (soleRouter.begin hiRequest webCaller "r1" 0 (firstAt 0)) [.acquired true 0 (firstAt 0)]
      = some t ∧
    (SuccessKept soleRouter t helloResult 1 (.done (firstAt 1)) ↔
      ObservationWrite.done (firstAt 1) ≠ .raises ∧
        (helloResult.text.isText = true ∧ helloResult.text.length ≤ 200000) ∧
        ((cand.provider, cand.model) ∈ soleRouter.pricing.keys →
          helloResult.inputTokens < floatOverflow ∧ helloResult.outputTokens < floatOverflow ∧
          0 ≤ soleRouter.costUsd cand.provider cand.model helloResult.inputTokens
            helloResult.outputTokens) ∧
        ∀ id ∈ t.req.clientTraceId, id.isText = true) := by
  obtain ⟨t, hrun, cand, timeout, hpc⟩ := run_calling
  exact ⟨t, cand, hrun, success_kept_iff soleRouter t hpc helloResult 1 (.done (firstAt 1))⟩

/-- **Redis fails after the vendor has answered**, and the answer is lost: `route` returns
nothing. -/
theorem success_lost : ∃ t, Runs.run (RouteTask.step soleRouter)
    (soleRouter.begin hiRequest webCaller "r1" 0 (firstAt 0)) [.acquired true 0 (firstAt 0)]
      = some t ∧ (∃ cand timeout, t.pc = .chatting cand 0 timeout) ∧
    ¬ SuccessKept soleRouter t helloResult 1 .raises := by
  obtain ⟨t, hrun, hpc⟩ := run_calling
  exact ⟨t, hrun, hpc, fun h => h.not_raises rfl⟩

end Librouter
