/-
# Requests without their metadata

The metadata of a request goes into one field of its records and nowhere else.  Without the metadata
(`untraced`) the request takes the same steps, as long as it can be recorded with it, and its records
are the same but for that field (`ChatTask.untraced_step`).

Two runs that differ only in metadata go side by side then, as long as the database takes what both
of them write (`LedgerState.Alike.step`).  Some callers may be watched more closely: if their
requests are the same in both runs, so are their records, with the field.
-/
import Librouter.App.Ledger
import Librouter.Accounting.Blind

namespace Librouter

/-! ## 1. Without the metadata -/

/-- No metadata is within the bounds. -/
theorem noMetadata_bounds : ∀ d ∈ (none : Option (Dict PyStr PyStr)),
    d.items.length ≤ 16 ∧ ∀ e ∈ d.items, e.1.length ≤ 64 ∧ e.2.length ≤ 256 :=
  fun _ h => absurd h (Option.not_mem_none _)

/-- The request without its metadata. -/
def ChatCompletionRequest.untraced (req : ChatCompletionRequest) : ChatCompletionRequest :=
  { req with metadata := none, metadata_bounds := noMetadata_bounds }

/-- The record without its trace id. -/
def AttemptRecord.untraced (rec : AttemptRecord) : AttemptRecord :=
  { rec with clientTraceId := none }

def RouteOutcome.untraced : RouteOutcome → RouteOutcome
  | .returned response attempts => .returned response (attempts.map AttemptRecord.untraced)
  | outcome => outcome

def RoutePc.untraced : RoutePc → RoutePc
  | .finished outcome => .finished outcome.untraced
  | pc => pc

def RouteTask.untraced (t : RouteTask) : RouteTask :=
  { t with
    req := t.req.untraced
    attempts := t.attempts.map AttemptRecord.untraced
    pc := t.pc.untraced }

def ChatPc.untraced : ChatPc → ChatPc
  | .routing task => .routing task.untraced
  | pc => pc

/-- Only in a call of `route` is there anything to forget. -/
theorem ChatPc.cases_of_untraced_eq {pc pc₂ : ChatPc} (h : pc₂.untraced = pc.untraced) :
    pc₂ = pc ∨ ∃ t t₂, pc = .routing t ∧ pc₂ = .routing t₂ ∧ t₂.untraced = t.untraced := by
  cases pc with
  | routing t =>
    cases pc₂ with
    | routing t₂ => exact Or.inr ⟨t, t₂, rfl, rfl, ChatPc.routing.inj h⟩
    | resolving | checkingCap | done => cases h
  | resolving | checkingCap | done =>
    cases pc₂ <;> first
      | exact Or.inl h
      | cases h

def ChatTask.untraced (c : ChatTask) : ChatTask :=
  { c with
    body := c.body.untraced
    pc := c.pc.untraced
    enqueued := c.enqueued.map AttemptRecord.untraced }

/-- A request that arrives, without its metadata. -/
def LedgerEvent.untraced : LedgerEvent → LedgerEvent
  | ⟨now, .arrive body⟩ => ⟨now, .arrive body.untraced⟩
  | e => e

/-! ## 2. The same steps -/

/-- The step makes a record of an attempt: `_record` is called in it. -/
def RouteTask.makesRecord (t : RouteTask) (event : RouteEvent) : Bool :=
  match t.pc, event with
  | .chatting _ _ _, .replied (.error _) _ => true
  | .recordingSuccess _ _ _, .recorded _ => true
  | _, _ => false

def ChatTask.makesRecord (c : ChatTask) (event : ChatEvent) : Bool :=
  match c.pc, event with
  | .routing t, .route event => t.makesRecord event
  | _, _ => false

/-- A record that the step makes takes the trace id. -/
def RouteTask.CanRecord (t : RouteTask) (event : RouteEvent) : Prop :=
  t.makesRecord event = true → t.req.traceRaises = false

def ChatTask.CanRecord (c : ChatTask) (event : ChatEvent) : Prop :=
  ∀ t ev, c.pc = .routing t → event = .route ev → t.CanRecord ev

/-- Without metadata there is no trace id to refuse. -/
theorem Router.recordRaises_untraced (router : Router) {req : ChatCompletionRequest}
    (h : req.traceRaises = false) (provider model : String) (inputTokens outputTokens : ℕ) :
    router.recordRaises req.untraced provider model inputTokens outputTokens =
      router.recordRaises req provider model inputTokens outputTokens := by
  have hnone : req.untraced.traceRaises = false := rfl
  rw [recordRaises, recordRaises, h, hnone]

namespace RouteTask

variable (router : Router) (t : RouteTask)

theorem untraced_loopTop (input : LoopInput) :
    router.loopTop t.untraced input = (router.loopTop t input).untraced := by
  have hnone : t.untraced.attempts ≠ [] ↔ t.attempts ≠ [] := List.map_eq_nil_iff.not
  have htier : t.untraced.req.model = t.req.model := rfl
  have hexclude : t.untraced.exclude = t.exclude := rfl
  have hdeadline : t.untraced.deadline = t.deadline := rfl
  simp only [Router.loopTop, hnone, htier, hexclude, hdeadline]
  split
  · split <;> rfl
  · cases input.pick (router.tierCandidates t.req.model) t.exclude <;> rfl

theorem untraced_failover (cand : CandidateRef) (why : String) (input : LoopInput) :
    router.failover t.untraced cand why input = (router.failover t cand why input).untraced :=
  untraced_loopTop router
    { t with tried := t.tried ++ [(cand, why)], exclude := t.exclude ++ [cand] } input

theorem untraced_record (cand : CandidateRef) (latencyS : ℚ) (status : String)
    (inputTokens outputTokens : ℕ) (vendorReqId : Option PyStr) :
    router.record t.untraced cand latencyS status inputTokens outputTokens vendorReqId =
      (router.record t cand latencyS status inputTokens outputTokens vendorReqId).untraced := by
  simp only [Router.record, AttemptRecord.untraced, RouteTask.untraced, List.length_map]
  rfl

theorem untraced_response (result : ChatResult) :
    t.untraced.response result = t.response result := rfl

/-- **`route` goes on the same without the metadata.** -/
theorem untraced_step {event : RouteEvent} (h : t.CanRecord event) :
    t.untraced.step router event = (t.step router event).map untraced := by
  have huntraced : t.untraced.pc = t.pc.untraced := rfl
  have hreq : t.untraced.req = t.req.untraced := rfl
  unfold step
  rw [huntraced]
  cases hpc : t.pc with
  | finished outcome => rfl
  | acquiring remaining cand =>
    cases event with
    | acquired ok t0 next =>
      simp only [RoutePc.untraced, untraced_failover]
      split
      · rfl
      · split <;> rfl
    | failed => rfl
    | replied | recorded => rfl
  | chatting cand t0 timeout =>
    cases event with
    | replied reply now =>
      cases reply with
      | error e =>
        have htrace := h (by simp [makesRecord, hpc])
        simp only [RoutePc.untraced, untraced_record, hreq, router.recordRaises_untraced htrace]
        split
        · rfl
        · simp [untraced, RoutePc.untraced]
      | ok result => rfl
    | failed => rfl
    | acquired | recorded => rfl
  | recordingFailure cand e =>
    cases event with
    | recorded next =>
      simp only [RoutePc.untraced, untraced_failover]
      split <;> rfl
    | failed => rfl
    | acquired | replied => rfl
  | recordingSuccess cand elapsed result =>
    cases event with
    | recorded next =>
      have htrace := h (by simp [makesRecord, hpc])
      simp only [RoutePc.untraced, untraced_record, untraced_response, hreq,
        router.recordRaises_untraced htrace]
      split
      · rfl
      · split <;> simp [untraced, RoutePc.untraced, RouteOutcome.untraced]
    | failed => rfl
    | acquired | replied => rfl

end RouteTask

theorem Router.untraced_begin (router : Router) (req : ChatCompletionRequest) (caller : Caller)
    (requestId : String) (now : ℚ) (input : LoopInput) :
    router.begin req.untraced caller requestId now input =
      (router.begin req caller requestId now input).untraced := by
  have htier : req.untraced.model = req.model := rfl
  unfold Router.begin
  dsimp only
  rw [htier]
  split
  · exact RouteTask.untraced_loopTop router { req := req, .. } input
  · rfl

namespace ChatTask

variable (router : Router) (c : ChatTask)

theorem untraced_proceed (task : RouteTask) :
    c.untraced.proceed task.untraced = (c.proceed task).untraced := by
  have huntraced : task.untraced.pc = task.pc.untraced := rfl
  unfold proceed
  rw [huntraced]
  cases hpc : task.pc with
  | finished outcome => cases outcome <;> simp [RoutePc.untraced, RouteOutcome.untraced, untraced,
      RouteTask.untraced, ChatPc.untraced, RouteOutcome.reply, RouteOutcome.enqueues]
  | acquiring | chatting | recordingFailure | recordingSuccess => rfl

theorem untraced_enter (caller : Caller) (input : RouteInput) :
    c.untraced.enter router caller input = (c.enter router caller input).untraced := by
  unfold enter
  rw [← untraced_proceed, ← Router.untraced_begin]
  rfl

/-- **A request goes on the same without its metadata.** -/
theorem untraced_step {event : ChatEvent} (h : c.CanRecord event) :
    c.untraced.step router event = (c.step router event).map untraced := by
  have huntraced : c.untraced.pc = c.pc.untraced := rfl
  unfold step
  rw [huntraced]
  cases hpc : c.pc with
  | resolving =>
    cases event with
    | resolved caller input =>
      cases caller with
      | none => rfl
      | some caller =>
        simp only [ChatPc.untraced, untraced_enter]
        split <;> rfl
    | failed => rfl
    | tokensUsed | route => rfl
  | checkingCap caller cap =>
    cases event with
    | tokensUsed used input =>
      simp only [ChatPc.untraced, untraced_enter]
      split <;> rfl
    | failed => rfl
    | resolved | route => rfl
  | routing task =>
    cases event with
    | route event =>
      simp only [ChatPc.untraced, task.untraced_step router (h task event hpc rfl),
        Option.map_map]
      refine congrArg (fun g => (task.step router event).map g) (funext fun task' => ?_)
      exact c.untraced_proceed task'
    | resolved | tokensUsed | failed => rfl
  | done reply => rfl

/-- Requests that are the same without their metadata go on together. -/
theorem step_of_untraced_eq {c c₂ d : ChatTask} {event : ChatEvent}
    (h : c₂.untraced = c.untraced) (hcan : c.CanRecord event) (hcan₂ : c₂.CanRecord event)
    (hstep : c.step router event = some d) :
    ∃ d₂, c₂.step router event = some d₂ ∧ d₂.untraced = d.untraced := by
  have hmapped := c₂.untraced_step router hcan₂
  rw [h, untraced_step router c hcan, hstep] at hmapped
  exact Option.map_eq_some_iff.mp hmapped.symm

end ChatTask

/-! ## 3. Whose records these are -/

/-- The records of the call are its caller's, with its trace id; a result carries all of them. -/
structure RouteTask.Attributed (t : RouteTask) : Prop where
  records : ∀ rec ∈ t.attempts, rec.caller = t.caller.name ∧ rec.clientTraceId = t.req.recordedTraceId
  returned : ∀ response attempts, t.pc = .finished (.returned response attempts) →
    attempts = t.attempts ∧ attempts ≠ []

/-- So are those of a request, and only a request that was answered has enqueued any. -/
def ChatTask.Attributed (c : ChatTask) : Prop :=
  match c.pc with
  | .routing t => c.enqueued = [] ∧ t.req = c.body ∧ t.Attributed
  | .done (.ok _) =>
    c.enqueued ≠ [] ∧ ∀ rec ∈ c.enqueued, rec.clientTraceId = c.body.recordedTraceId
  | _ => c.enqueued = []

namespace RouteTask

variable {router : Router} {t t' : RouteTask}

theorem attributed_begin (router : Router) (req : ChatCompletionRequest) (caller : Caller)
    (requestId : String) (now : ℚ) (input : LoopInput) :
    (router.begin req caller requestId now input).attempts = [] ∧
      (router.begin req caller requestId now input).req = req ∧
      (router.begin req caller requestId now input).Attributed := by
  unfold Router.begin
  dsimp only
  split
  · refine ⟨rfl, rfl, fun rec hrec => absurd hrec List.not_mem_nil, fun response attempts hpc => ?_⟩
    exact absurd hpc (router.not_returned_loopTop _ _ _ _)
  · refine ⟨rfl, rfl, fun rec hrec => absurd hrec List.not_mem_nil, ?_⟩
    intro _ _ hpc
    cases hpc

/-- One more record. -/
theorem Attributed.record (h : t.Attributed) (router : Router) (cand : CandidateRef) (latencyS : ℚ)
    (status : String) (inputTokens outputTokens : ℕ) (vendorReqId : Option PyStr) :
    ∀ rec ∈ t.attempts ++
        [router.record t cand latencyS status inputTokens outputTokens vendorReqId],
      rec.caller = t.caller.name ∧ rec.clientTraceId = t.req.recordedTraceId := by
  rw [List.forall_mem_append, List.forall_mem_singleton]
  exact ⟨h.records, rfl, rfl⟩

theorem Attributed.step (h : t.Attributed) {event : RouteEvent}
    (hstep : t.step router event = some t') : t'.Attributed := by
  cases moves_of_step hstep with
  | crash | call | giveUp | callUnrecorded | callOk | recordFails => exact ⟨h.records, nofun⟩
  | bucketEmpty | vendorMissing | retry =>
    exact ⟨h.records, fun _ _ hpc => absurd hpc (router.not_returned_loopTop _ _ _ _)⟩
  | callFailed => exact ⟨h.record router _ _ _ _ _ _, nofun⟩
  | answer hpc hresponse hattempts =>
    subst hattempts
    refine ⟨h.record router _ _ _ _ _ _, fun response attempts hpc => ?_⟩
    cases hpc
    exact ⟨rfl, List.concat_ne_nil _ _⟩
  | noMessage hpc hresponse hattempts =>
    subst hattempts
    exact ⟨h.record router _ _ _ _ _ _, nofun⟩

end RouteTask

namespace ChatTask

variable {router : Router} {c d : ChatTask} {event : ChatEvent}

theorem attributed_proceed {task : RouteTask} (hnone : c.enqueued = []) (hreq : task.req = c.body)
    (h : task.Attributed) :
    (c.proceed task).Attributed ∧ ∀ rec ∈ (c.proceed task).enqueued, rec ∈ task.attempts := by
  unfold proceed
  split
  · rename_i outcome hpc
    cases outcome with
    | returned response attempts =>
      obtain ⟨rfl, hsome⟩ := h.returned response attempts hpc
      have hall : c.enqueued ++ task.attempts = task.attempts := by rw [hnone, List.nil_append]
      refine ⟨?_, fun rec hrec => hall ▸ hrec⟩
      show c.enqueued ++ task.attempts ≠ [] ∧
        ∀ rec ∈ c.enqueued ++ task.attempts, rec.clientTraceId = c.body.recordedTraceId
      rw [hall, ← hreq]
      exact ⟨hsome, fun rec hrec => (h.records rec hrec).2⟩
    | raised | crashed =>
      have hall : c.enqueued ++ [] = [] := by rw [hnone, List.nil_append]
      exact ⟨hall, fun rec hrec => absurd (hall ▸ hrec) List.not_mem_nil⟩
  · exact ⟨⟨hnone, hreq, h⟩, fun rec hrec => absurd (hnone ▸ hrec) List.not_mem_nil⟩

/-- What `enter` does: no records. -/
theorem attributed_enter (router : Router) (hnone : c.enqueued = []) (caller : Caller)
    (input : RouteInput) :
    (c.enter router caller input).Attributed ∧ (c.enter router caller input).enqueued = [] := by
  obtain ⟨hattempts, hreq, htask⟩ :=
    RouteTask.attributed_begin router c.body caller input.requestId input.now input.next
  obtain ⟨hattributed, hrecords⟩ := attributed_proceed hnone hreq htask
  refine ⟨hattributed, List.eq_nil_iff_forall_not_mem.mpr fun rec hrec => ?_⟩
  have hmem := hrecords rec hrec
  rw [hattempts] at hmem
  cases hmem

/-- **A step enqueues records of the caller in whose name `route` runs**, and the request stays
attributed. -/
theorem Attributed.step (h : c.Attributed) (hstep : c.step router event = some d) :
    d.Attributed ∧ ∀ rec ∈ d.enqueued.drop c.enqueued.length,
      ∃ t, c.pc = .routing t ∧ rec.caller = t.caller.name := by
  unfold Attributed at h
  have hsame : ∀ rec ∈ c.enqueued.drop c.enqueued.length,
      ∃ t, c.pc = .routing t ∧ rec.caller = t.caller.name := by
    intro rec hrec
    rw [List.drop_length] at hrec
    cases hrec
  cases moves_of_step hstep with
  | noCaller hpc | capped hpc | exhausted hpc | resolveFails hpc | usageFails hpc =>
    rw [hpc] at h
    exact ⟨h, hsame⟩
  | @uncapped caller input hpc | @underCap caller cap used input hpc =>
    rw [hpc] at h
    obtain ⟨hattributed, hnone⟩ := attributed_enter router h caller input
    refine ⟨hattributed, fun rec hrec => ?_⟩
    rw [hnone, List.drop_nil] at hrec
    cases hrec
  | @route task task' event hpc htask =>
    rw [hpc] at h
    obtain ⟨hnone, hreq, hattributed⟩ := h
    obtain ⟨hreq', hcaller', -, -⟩ := RouteTask.frame_step htask
    obtain ⟨hproceed, hrecords⟩ :=
      attributed_proceed hnone (hreq'.trans hreq) (hattributed.step htask)
    refine ⟨hproceed, fun rec hrec => ⟨task, hpc, ?_⟩⟩
    have hmem := hrecords rec (List.mem_of_mem_drop hrec)
    rw [← hcaller']
    exact ((hattributed.step htask).records rec hmem).1

/-- The request is known to be one of the watched callers'. -/
def Watched (keep : String → Bool) (c : ChatTask) : Prop :=
  match c.pc with
  | .checkingCap caller _ => keep caller.name = true
  | .routing t => keep t.caller.name = true
  | _ => False

/-- It is known once the caller is resolved. -/
theorem watched_of_step {keep : String → Bool} (hstep : c.step router event = some d)
    (h : d.Watched keep) : c.Watched keep ∨
      c.pc = .resolving ∧ ∃ caller input, event = .resolved (some caller) input ∧
        keep caller.name = true := by
  have hproceed : ∀ task, (c.proceed task).Watched keep → keep task.caller.name = true := by
    intro task hwatched
    unfold proceed at hwatched
    split at hwatched
    · exact hwatched.elim
    · exact hwatched
  have henter : ∀ caller input, (c.enter router caller input).Watched keep →
      keep caller.name = true := by
    intro caller input hwatched
    have hkeep := hproceed _ hwatched
    rwa [Router.begin_caller] at hkeep
  cases moves_of_step hstep with
  | noCaller | exhausted | resolveFails | usageFails => exact h.elim
  | @capped caller cap input hpc hcap => exact Or.inr ⟨hpc, caller, input, rfl, h⟩
  | @uncapped caller input hpc hcap => exact Or.inr ⟨hpc, caller, input, rfl, henter _ _ h⟩
  | @underCap caller cap used input hpc hused =>
    left
    unfold Watched
    rw [hpc]
    exact henter _ _ h
  | @route task task' event hpc htask =>
    left
    unfold Watched
    rw [hpc]
    have hkeep := hproceed _ h
    rwa [(RouteTask.frame_step htask).2.1] at hkeep

end ChatTask

/-- The request runs with its body. -/
theorem ChatTask.Attributed.canRecord {c : ChatTask} (h : c.Attributed) {event : ChatEvent}
    (htrace : c.makesRecord event = true → c.body.traceRaises = false) : c.CanRecord event := by
  rintro t ev hpc rfl hmakes
  unfold Attributed at h
  rw [hpc] at h
  rw [h.2.1]
  exact htrace (by simpa [makesRecord, hpc] using hmakes)

/-- The two requests make records in the same steps. -/
theorem ChatTask.makesRecord_untraced (c : ChatTask) (event : ChatEvent) :
    c.untraced.makesRecord event = c.makesRecord event := by
  have huntraced : c.untraced.pc = c.pc.untraced := rfl
  unfold makesRecord
  rw [huntraced]
  cases c.pc with
  | routing t =>
    cases event with
    | route event =>
      show t.untraced.makesRecord event = t.makesRecord event
      have htask : t.untraced.pc = t.pc.untraced := rfl
      unfold RouteTask.makesRecord
      rw [htask]
      cases t.pc <;> rfl
    | resolved | tokensUsed | failed => rfl
  | resolving | checkingCap | done => rfl

/-! ## 4. Two runs side by side -/

/-- A record, with its trace id if its caller is watched. -/
def AttemptRecord.seen (keep : String → Bool) (rec : AttemptRecord) : AttemptRecord :=
  if keep rec.caller then rec else rec.untraced

def RequestRow.seen (keep : String → Bool) (row : RequestRow) : RequestRow :=
  { row with record := row.record.seen keep }

def LedgerRequest.untraced (r : LedgerRequest) : LedgerRequest := { r with chat := r.chat.untraced }

/-- The two states differ in metadata only, and in none of a watched caller. -/
structure LedgerState.Alike (keep : String → Bool) (s s₂ : LedgerState) : Prop where
  clock : s₂.clock = s.clock
  requests : s₂.requests.map LedgerRequest.untraced = s.requests.map LedgerRequest.untraced
  watched : ∀ (i : ℕ) (r r₂ : LedgerRequest), s.requests[i]? = some r → s₂.requests[i]? = some r₂ →
    r.chat.Watched keep → r₂.chat = r.chat
  queue : s₂.queue.mapRecords (.seen keep) = s.queue.mapRecords (.seen keep)
  rows : s₂.rows.map (RequestRow.seen keep) = s.rows.map (RequestRow.seen keep)

namespace AttemptRecord

variable (keep : String → Bool) (rec : AttemptRecord)

@[simp] theorem seen_caller : (rec.seen keep).caller = rec.caller := by
  unfold seen
  split <;> rfl

@[simp] theorem seen_tokens : (rec.seen keep).tokens = rec.tokens := by
  unfold seen
  split <;> rfl

@[simp] theorem seen_untraced : (rec.seen keep).untraced = rec.untraced := by
  unfold seen
  split <;> rfl

/-- Nobody is watched. -/
theorem seen_of_not_keep {rec : AttemptRecord} (h : keep rec.caller ≠ true) :
    rec.seen keep = rec.untraced := if_neg h

end AttemptRecord

/-- Tokens are counted without looking at trace ids. -/
theorem tokensSince_seen (keep : String → Bool) (rows : List RequestRow) (name : String)
    (since : ℚ) : tokensSince (rows.map (RequestRow.seen keep)) name since
      = tokensSince rows name since := by
  simp only [tokensSince, callerTokens, List.filter_map, List.map_map, Function.comp_def,
    RequestRow.seen, AttemptRecord.seen_caller, AttemptRecord.seen_tokens]
  rfl

theorem DrainState.mapRecords_enqueueAll (f : AttemptRecord → AttemptRecord)
    (recs : List AttemptRecord) : ∀ s : DrainState,
    (s.mapRecords f).enqueueAll (recs.map f) = (s.enqueueAll recs).mapRecords f := by
  induction recs with
  | nil => exact fun s => rfl
  | cons rec recs ih =>
    intro s
    have hfirst := s.mapRecords_enqueue f rec
    show ((s.mapRecords f).enqueue (f rec)).enqueueAll (recs.map f)
      = ((s.enqueue rec).enqueueAll recs).mapRecords f
    rw [hfirst]
    exact ih (s.enqueue rec)

namespace LedgerState.Alike

variable {keep : String → Bool} {s s₂ : LedgerState}

/-- The request at the same place. -/
theorem request (h : s.Alike keep s₂) {i : ℕ} {r : LedgerRequest} (hr : s.requests[i]? = some r) :
    ∃ r₂, s₂.requests[i]? = some r₂ ∧ r₂.chat.untraced = r.chat.untraced ∧ r₂.since = r.since ∧
      r₂.answer = r.answer := by
  have hget := congrArg (fun l => l[i]?) h.requests
  simp only [List.getElem?_map, hr, Option.map_some] at hget
  obtain ⟨r₂, hr₂, huntraced⟩ := Option.map_eq_some_iff.mp hget
  obtain ⟨chat, since, answer⟩ := r
  obtain ⟨chat₂, since₂, answer₂⟩ := r₂
  obtain ⟨hchat, hsince, hanswer⟩ := LedgerRequest.mk.inj huntraced
  exact ⟨_, hr₂, hchat, hsince, hanswer⟩

theorem request_left (h : s.Alike keep s₂) {i : ℕ} {r₂ : LedgerRequest}
    (hr₂ : s₂.requests[i]? = some r₂) :
    ∃ r, s.requests[i]? = some r ∧ r₂.chat.untraced = r.chat.untraced := by
  have hget := congrArg (fun l => l[i]?) h.requests
  simp only [List.getElem?_map, hr₂, Option.map_some] at hget
  obtain ⟨r, hr, huntraced⟩ := Option.map_eq_some_iff.mp hget.symm
  exact ⟨r, hr, (congrArg LedgerRequest.chat huntraced).symm⟩

theorem refl (keep : String → Bool) (s : LedgerState) : s.Alike keep s :=
  ⟨rfl, rfl, fun i r r₂ hr hr₂ _ => by rw [Option.some.inj (hr.symm.trans hr₂)], rfl, rfl⟩

theorem tokensSince_eq (h : s.Alike keep s₂) (name : String) (since : ℚ) :
    tokensSince s₂.rows name since = tokensSince s.rows name since := by
  rw [← tokensSince_seen keep s₂.rows, h.rows, tokensSince_seen]

/-- A watched caller has the same rows. -/
theorem rows_eq (h : s.Alike keep s₂) {name : String} (hkeep : keep name = true) :
    s₂.rows.filter (fun row => row.record.caller = name)
      = s.rows.filter fun row => row.record.caller = name := by
  have hseen : ∀ rows : List RequestRow,
      (rows.map (RequestRow.seen keep)).filter (fun row => row.record.caller = name)
        = rows.filter fun row => row.record.caller = name := by
    intro rows
    rw [List.filter_map]
    simp only [Function.comp_def, RequestRow.seen, AttemptRecord.seen_caller]
    refine (List.map_congr_left fun row hrow => ?_).trans (List.map_id _)
    have hcaller := of_decide_eq_true (List.mem_filter.mp hrow).2
    have hsame : row.record.seen keep = row.record := if_pos (hcaller ▸ hkeep)
    rw [RequestRow.seen, hsame]
    rfl
  rw [← hseen s₂.rows, h.rows, hseen]

/-- One request of each state is replaced. -/
theorem set_watched (h : s.Alike keep s₂) {i : ℕ} {r r₂ : LedgerRequest}
    (hsame : r.chat.Watched keep → r₂.chat = r.chat) :
    ∀ (j : ℕ) (x x₂ : LedgerRequest), (s.requests.set i r)[j]? = some x →
      (s₂.requests.set i r₂)[j]? = some x₂ → x.chat.Watched keep → x₂.chat = x.chat := by
  intro j x x₂ hx hx₂ hwatched
  rw [List.getElem?_set] at hx hx₂
  split at hx
  · rename_i hij
    rw [if_pos hij] at hx₂
    split at hx <;> cases hx
    split at hx₂ <;> cases hx₂
    exact hsame hwatched
  · rename_i hij
    rw [if_neg hij] at hx₂
    exact h.watched j x x₂ hx hx₂ hwatched

variable {ledger : Ledger}

end LedgerState.Alike

theorem ChatTask.watched_untraced (keep : String → Bool) (c : ChatTask) :
    c.untraced.Watched keep ↔ c.Watched keep := by
  have huntraced : c.untraced.pc = c.pc.untraced := rfl
  unfold Watched
  rw [huntraced]
  cases c.pc <;> rfl

/-- Of the records of a request that is not watched, only what is left without the trace id is
seen. -/
theorem ChatTask.Attributed.seen_new {router : Router} {keep : String → Bool} {c d : ChatTask}
    {event : ChatEvent} (h : c.Attributed) (hstep : c.step router event = some d)
    (hwatched : ¬ c.Watched keep) :
    (d.enqueued.drop c.enqueued.length).map (AttemptRecord.seen keep)
      = d.untraced.enqueued.drop c.untraced.enqueued.length := by
  have hlength : c.untraced.enqueued.length = c.enqueued.length := List.length_map _
  rw [hlength, ChatTask.untraced, ← List.map_drop]
  refine List.map_congr_left fun rec hrec => AttemptRecord.seen_of_not_keep keep fun hkeep => ?_
  obtain ⟨t, hpc, hcaller⟩ := (h.step hstep).2 rec hrec
  rw [hcaller] at hkeep
  unfold Watched at hwatched
  rw [hpc] at hwatched
  exact hwatched hkeep

/-- **What a request enqueues looks the same in both runs.** -/
theorem ChatTask.seen_new_eq {router : Router} {keep : String → Bool} {c c₂ d d₂ : ChatTask}
    {event : ChatEvent} (h : c.Attributed) (h₂ : c₂.Attributed) (hc : c₂.untraced = c.untraced)
    (hsame : c.Watched keep → c₂ = c) (hstep : c.step router event = some d)
    (hstep₂ : c₂.step router event = some d₂) (hd : d₂.untraced = d.untraced) :
    (d₂.enqueued.drop c₂.enqueued.length).map (AttemptRecord.seen keep)
      = (d.enqueued.drop c.enqueued.length).map (AttemptRecord.seen keep) := by
  by_cases hwatched : c.Watched keep
  · obtain rfl := hsame hwatched
    obtain rfl := Option.some.inj (hstep₂.symm.trans hstep)
    rfl
  · have hwatched₂ : ¬ c₂.Watched keep := by
      rwa [← watched_untraced, hc, watched_untraced]
    rw [h.seen_new hstep hwatched, h₂.seen_new hstep₂ hwatched₂, hc, hd]

/-- A watched request is the same after a step, if it was, or is the same when it turns out to be
watched. -/
theorem ChatTask.same_of_step {router : Router} {keep : String → Bool} {c c₂ d d₂ : ChatTask}
    {event : ChatEvent} (h : c.Attributed) (h₂ : c₂.Attributed) (hc : c₂.untraced = c.untraced)
    (hsame : c.Watched keep → c₂ = c)
    (hbody : ∀ caller input, event = .resolved (some caller) input → keep caller.name = true →
      c₂.body = c.body)
    (hstep : c.step router event = some d) (hstep₂ : c₂.step router event = some d₂)
    (hwatched : d.Watched keep) : d₂ = d := by
  have heq : c₂ = c := by
    rcases watched_of_step hstep hwatched with hold | ⟨hpc, caller, input, hevent, hkeep⟩
    · exact hsame hold
    · have hpcs : c₂.untraced.pc = c.untraced.pc := congrArg ChatTask.pc hc
      have hcalls : c₂.untraced.calls = c.untraced.calls := congrArg ChatTask.calls hc
      have hpc₂ : c₂.pc = .resolving := by
        rcases ChatPc.cases_of_untraced_eq hpcs with hsamePc | ⟨t, t₂, ht, -, -⟩
        · exact hsamePc.trans hpc
        · rw [hpc] at ht
          cases ht
      unfold Attributed at h h₂
      rw [hpc] at h
      rw [hpc₂] at h₂
      have hbodies := hbody caller input hevent hkeep
      obtain ⟨body, pc, calls, enqueued⟩ := c
      obtain ⟨body₂, pc₂, calls₂, enqueued₂⟩ := c₂
      cases hbodies
      cases hpc
      cases hpc₂
      obtain rfl : calls₂ = calls := hcalls
      cases h
      cases h₂
      rfl
  rw [heq] at hstep₂
  exact Option.some.inj (hstep₂.symm.trans hstep)

/-- The requests are attributed. -/
def LedgerState.Attributed (s : LedgerState) : Prop := ∀ r ∈ s.requests, r.chat.Attributed

theorem LedgerState.Attributed.step {ledger : Ledger} {s s' : LedgerState} {e : LedgerEvent}
    (h : s.Attributed) (hstep : ledger.step s e = some s') : s'.Attributed := by
  obtain ⟨-, hmoves⟩ := Ledger.moves_of_step hstep
  generalize e.action = action at hmoves
  cases hmoves with
  | arrive body =>
    intro r hr
    rcases List.mem_append.mp hr with hr | hr
    · exact h r hr
    · obtain rfl := List.mem_singleton.mp hr
      exact rfl
  | @sum i r caller cap hr =>
    intro r' hr'
    rcases List.mem_or_eq_of_mem_set hr' with hr' | rfl
    · exact h r' hr'
    · exact h r (List.mem_of_getElem? hr)
  | @chat i r event chat hr hpermits hchat =>
    intro r' hr'
    rcases List.mem_or_eq_of_mem_set hr' with hr' | rfl
    · exact h r' hr'
    · exact ((h r (List.mem_of_getElem? hr)).step hchat).1
  | drain | write | refuse => exact h

/-- Events that are the same without metadata are the same, or arrivals of two requests that are. -/
theorem LedgerEvent.cases_of_untraced_eq {e e₂ : LedgerEvent} (h : e₂.untraced = e.untraced) :
    e₂ = e ∨ ∃ now body body₂, e = ⟨now, .arrive body⟩ ∧ e₂ = ⟨now, .arrive body₂⟩ ∧
      body₂.untraced = body.untraced := by
  obtain ⟨now, action⟩ := e
  obtain ⟨now₂, action₂⟩ := e₂
  cases action with
  | arrive body =>
    cases action₂ with
    | arrive body₂ =>
      have hnow : now₂ = now := congrArg LedgerEvent.now h
      have haction := congrArg LedgerEvent.action h
      have hbody : body₂.untraced = body.untraced := LedgerAction.arrive.inj haction
      exact Or.inr ⟨now, body, body₂, rfl, by rw [hnow], hbody⟩
    | sum | chat | drain | write => cases h
  | sum | chat | drain | write =>
    cases action₂ <;> first
      | exact Or.inl h
      | cases h

namespace LedgerState.Alike

variable {ledger : Ledger} {keep : String → Bool} {s s₂ t : LedgerState}

theorem arrive (h : s.Alike keep s₂) {body body₂ : ChatCompletionRequest}
    (hbody : body₂.untraced = body.untraced) :
    Alike keep { s with requests := s.requests ++ [{ chat := ChatTask.start body }] }
      { s₂ with requests := s₂.requests ++ [{ chat := ChatTask.start body₂ }] } := by
  have hlength : s₂.requests.length = s.requests.length := by
    simpa using congrArg List.length h.requests
  refine ⟨h.clock, ?_, fun i r r₂ hr hr₂ hwatched => ?_, h.queue, h.rows⟩
  · rw [List.map_append, List.map_append, h.requests]
    simp only [List.map_cons, List.map_nil, LedgerRequest.untraced, ChatTask.untraced,
      ChatTask.start, hbody]
  · rw [List.getElem?_append] at hr hr₂
    rw [hlength] at hr₂
    split at hr
    · rw [if_pos ‹_›] at hr₂
      exact h.watched i r r₂ hr hr₂ hwatched
    · obtain rfl := List.mem_singleton.mp (List.mem_of_getElem? hr)
      exact hwatched.elim

/-- The database sums up the same. -/
theorem stepSum (h : s.Alike keep s₂) {i : ℕ} (hstep : Ledger.stepSum s i = some t) :
    ∃ t₂, Ledger.stepSum s₂ i = some t₂ ∧ t.Alike keep t₂ := by
  obtain ⟨r, hr, hstep⟩ := Option.bind_eq_some_iff.mp hstep
  obtain ⟨r₂, hr₂, hchat, hsince, hanswer⟩ := h.request hr
  split at hstep <;> cases hstep
  rename_i caller cap hpc hnone
  have hpc₂ : r₂.chat.pc = .checkingCap caller cap := by
    rcases ChatPc.cases_of_untraced_eq (congrArg ChatTask.pc hchat) with hsame | ⟨t, t₂, ht, -, -⟩
    · exact hsame.trans hpc
    · rw [hpc] at ht
      cases ht
  refine ⟨_, by simp only [Ledger.stepSum, hr₂, Option.bind_some, hpc₂, hanswer, hnone]; rfl, ?_⟩
  refine ⟨h.clock, ?_, h.set_watched fun hwatched => h.watched i r r₂ hr hr₂ hwatched, h.queue,
    h.rows⟩
  rw [List.map_set, List.map_set, h.requests]
  simp only [LedgerRequest.untraced, hchat, hsince, h.tokensSince_eq]

/-- A request goes on in both runs. -/
theorem stepChat (h : s.Alike keep s₂) (hattributed : s.Attributed)
    (hattributed₂ : s₂.Attributed) {now : ℚ} {i : ℕ} {event : ChatEvent}
    (hbody : ∀ caller input, event = .resolved (some caller) input → keep caller.name = true →
      ∀ (r r₂ : LedgerRequest), s.requests[i]? = some r → s₂.requests[i]? = some r₂ →
        r₂.chat.body = r.chat.body)
    (hcan : ∀ r, s.requests[i]? = some r → r.chat.CanRecord event)
    (hcan₂ : ∀ r₂, s₂.requests[i]? = some r₂ → r₂.chat.CanRecord event)
    (hstep : ledger.stepChat s now i event = some t) :
    ∃ t₂, ledger.stepChat s₂ now i event = some t₂ ∧ t.Alike keep t₂ := by
  obtain ⟨r, hr, hstep⟩ := Option.bind_eq_some_iff.mp hstep
  obtain ⟨r₂, hr₂, hchat, -, hanswer⟩ := h.request hr
  obtain ⟨hpermits, hstep⟩ := Option.ite_none_right_eq_some.mp hstep
  obtain ⟨d, hd, rfl⟩ := Option.map_eq_some_iff.mp hstep
  obtain ⟨d₂, hd₂, huntraced₂⟩ :=
    ChatTask.step_of_untraced_eq ledger.router hchat (hcan r hr) (hcan₂ r₂ hr₂) hd
  have hpermits₂ : ledger.permits r₂ event = true := by
    rw [← hpermits]
    unfold Ledger.permits
    rw [hanswer]
  have hattr := hattributed r (List.mem_of_getElem? hr)
  have hattr₂ := hattributed₂ r₂ (List.mem_of_getElem? hr₂)
  have hsame : r.chat.Watched keep → r₂.chat = r.chat := h.watched i r r₂ hr hr₂
  have hnew := ChatTask.seen_new_eq hattr hattr₂ hchat hsame hd hd₂ huntraced₂
  refine ⟨_, by simp only [Ledger.stepChat, hr₂, Option.bind_some, hpermits₂, if_true, hd₂,
    Option.map_some]; rfl, ?_⟩
  refine ⟨h.clock, ?_, h.set_watched fun hwatched => ?_, ?_, h.rows⟩
  · rw [List.map_set, List.map_set, h.requests]
    simp only [LedgerRequest.untraced, huntraced₂]
  · exact ChatTask.same_of_step hattr hattr₂ hchat hsame
      (fun caller input hevent hkeep => hbody caller input hevent hkeep r r₂ hr hr₂) hd hd₂ hwatched
  · dsimp only
    rw [← DrainState.mapRecords_enqueueAll, ← DrainState.mapRecords_enqueueAll, h.queue, hnew]

/-- The queue goes on in both runs. -/
theorem queue_step (h : s.Alike keep s₂) {event : DrainEvent} {queue : DrainState}
    (hstep : s.queue.step event = some queue) :
    ∃ queue₂, s₂.queue.step event = some queue₂ ∧
      queue₂.mapRecords (.seen keep) = queue.mapRecords (.seen keep) := by
  have hmapped := s₂.queue.mapRecords_step (.seen keep) event
  rw [h.queue, s.queue.mapRecords_step, hstep] at hmapped
  exact Option.map_eq_some_iff.mp hmapped.symm

theorem stepDrain (h : s.Alike keep s₂) {event : DrainEvent}
    (hstep : Ledger.stepDrain s event = some t) :
    ∃ t₂, Ledger.stepDrain s₂ event = some t₂ ∧ t.Alike keep t₂ := by
  cases event with
  | enqueue | settled => cases hstep
  | start | stop | check | wake | joined =>
    obtain ⟨queue, hqueue, rfl⟩ := Option.map_eq_some_iff.mp hstep
    obtain ⟨queue₂, hqueue₂, hseen⟩ := h.queue_step hqueue
    exact ⟨_, Option.map_eq_some_iff.mpr ⟨queue₂, hqueue₂, rfl⟩, h.clock, h.requests, h.watched,
      hseen, h.rows⟩

/-- The same batch is written in both runs. -/
theorem stepWrite (h : s.Alike keep s₂) {now : ℚ} {who : Flusher}
    (haccepted : (s.queue.batch who).all ledger.accepts = true)
    (haccepted₂ : (s₂.queue.batch who).all ledger.accepts = true)
    (hstep : ledger.stepWrite s now who = some t) :
    ∃ t₂, ledger.stepWrite s₂ now who = some t₂ ∧ t.Alike keep t₂ := by
  obtain ⟨queue, hqueue, rfl⟩ := Option.map_eq_some_iff.mp hstep
  rw [haccepted] at hqueue
  obtain ⟨queue₂, hqueue₂, hseen⟩ := h.queue_step hqueue
  have hbatch : (s₂.queue.batch who).map (AttemptRecord.seen keep)
      = (s.queue.batch who).map (AttemptRecord.seen keep) :=
    congrArg (fun q => q.batch who) h.queue
  have hnew : ∀ batch : List AttemptRecord,
      (batch.map fun rec => RequestRow.mk now rec).map (RequestRow.seen keep)
        = (batch.map (AttemptRecord.seen keep)).map fun rec => RequestRow.mk now rec := by
    intro batch
    rw [List.map_map, List.map_map]
    rfl
  refine ⟨_, Option.map_eq_some_iff.mpr ⟨queue₂, haccepted₂.symm ▸ hqueue₂, rfl⟩, ?_⟩
  refine ⟨h.clock, h.requests, h.watched, hseen, ?_⟩
  simp only [haccepted, haccepted₂, if_true, List.map_append, h.rows, hnew, hbatch]

end LedgerState.Alike

/-- **Two runs go on side by side**, as long as what is being written in both of them is accepted,
records can be made in both, and a request that turns out to be of a watched caller is the same in
both. -/
theorem LedgerState.Alike.step {ledger : Ledger} {keep : String → Bool} {s s₂ t : LedgerState}
    {e e₂ : LedgerEvent} (h : s.Alike keep s₂) (hattributed : s.Attributed)
    (hattributed₂ : s₂.Attributed) (haccepted : ∀ who, (s.queue.batch who).all ledger.accepts = true)
    (haccepted₂ : ∀ who, (s₂.queue.batch who).all ledger.accepts = true)
    (hevent : e₂.untraced = e.untraced)
    (hbody : ∀ i caller input, e.action = .chat i (.resolved (some caller) input) →
      keep caller.name = true → ∀ (r r₂ : LedgerRequest), s.requests[i]? = some r →
        s₂.requests[i]? = some r₂ → r₂.chat.body = r.chat.body)
    (hcan : ∀ i event, e.action = .chat i event → ∀ r, s.requests[i]? = some r →
      r.chat.CanRecord event)
    (hcan₂ : ∀ i event, e.action = .chat i event → ∀ r₂, s₂.requests[i]? = some r₂ →
      r₂.chat.CanRecord event)
    (hstep : ledger.step s e = some t) : ∃ t₂, ledger.step s₂ e₂ = some t₂ ∧ t.Alike keep t₂ := by
  obtain ⟨hclock, hstep⟩ := Option.ite_none_right_eq_some.mp hstep
  obtain ⟨m, hact, rfl⟩ := Option.map_eq_some_iff.mp hstep
  suffices hsuff : e₂.now = e.now ∧ ∃ m₂, ledger.act s₂ e₂ = some m₂ ∧ m.Alike keep m₂ by
    obtain ⟨hnow, m₂, hact₂, hm⟩ := hsuff
    refine ⟨{ m₂ with clock := e₂.now }, ?_, hnow, hm.requests, hm.watched, hm.queue, hm.rows⟩
    exact Option.ite_none_right_eq_some.mpr
      ⟨by rw [h.clock, hnow]; exact hclock, Option.map_eq_some_iff.mpr ⟨m₂, hact₂, rfl⟩⟩
  rcases LedgerEvent.cases_of_untraced_eq hevent with rfl | ⟨now, body, body₂, rfl, rfl, hbodies⟩
  · refine ⟨rfl, ?_⟩
    obtain ⟨now, action⟩ := e₂
    cases action with
    | arrive body =>
      cases hact
      exact ⟨_, rfl, h.arrive rfl⟩
    | sum i => exact h.stepSum hact
    | chat i event =>
      refine h.stepChat hattributed hattributed₂ (fun caller input hresolved => ?_)
        (hcan i event rfl) (hcan₂ i event rfl) hact
      exact hbody i caller input (by rw [hresolved])
    | drain event => exact h.stepDrain hact
    | write who => exact h.stepWrite (haccepted who) (haccepted₂ who) hact
  · cases hact
    exact ⟨rfl, _, rfl, h.arrive hbodies⟩

end Librouter
