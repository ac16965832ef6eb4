/-
# `app.py`: the endpoint `/v1/chat/completions`

One request: who is calling, how much of the daily cap is used, `route`, and what is enqueued for
accounting before the reply goes out.  Between its awaits it is a state machine (`ChatTask.step`)
with the one of `route` inside.
-/
import Librouter.Router
import Librouter.Foundations.Json

namespace Librouter

/-! ## 1. Replies -/

/-- `body.model_dump()`. -/
def ErrorBody.dump (body : ErrorBody) : Json :=
  .obj [("type", .str body.type), ("message", .str body.message), ("retryable", .bool body.retryable)]

/-- How the endpoint ends; what it returns is rendered after that. -/
inductive ChatReply
  | ok (response : ChatCompletionResponse)
  | httpException (statusCode : ℕ) (detail : Json)
  /-- any other exception: a 500 without a body of ours -/
  | serverError

/-- `_http_status_for`. -/
def httpStatusFor : RouterErrorKind → ℕ
  | .invalidRequest => 400
  | .auth => 401
  | .upstreamUnavailable => 503
  | .deadlineExceeded => 504

/-- The exception of `_resolve_caller`. -/
def unauthorized : ChatReply :=
  .httpException 401
    (.obj [("type", .str "auth"), ("message", .str "invalid or missing API key")])

/-- The exception of the daily cap. -/
def capExhausted : ChatReply :=
  .httpException 429
    (.obj [("type", .str "caller_rate_limit"), ("message", .str "daily token cap exhausted"),
      ("retryable", .bool false)])

/-- What `chat_completions` makes of the end of `route`. -/
def RouteOutcome.reply : RouteOutcome → ChatReply
  | .returned response _ => .ok response
  | .raised error => .httpException (httpStatusFor error.kind) error.body.dump
  | .crashed => .serverError

/-- The records `chat_completions` then calls `accounting.enqueue` with, one after another: those
of `result.attempts`. -/
def RouteOutcome.enqueues : RouteOutcome → List AttemptRecord
  | .returned _ attempts => attempts
  | .raised _ => []
  | .crashed => []

/-! ## 2. A request -/

/-- Where the request stands. -/
inductive ChatPc
  /-- in `auth.resolve_bearer(...)` -/
  | resolving
  /-- in `db.caller_tokens_used_today(...)` -/
  | checkingCap (caller : Caller) (cap : ℕ)
  /-- in `router.route(...)` -/
  | routing (task : RouteTask)
  | done (reply : ChatReply)

/-- A request in flight. -/
structure ChatTask where
  body : ChatCompletionRequest
  pc : ChatPc
  /-- history: the vendor calls made for it that have come back -/
  calls : List VendorCall := []
  /-- history: the records it has enqueued -/
  enqueued : List AttemptRecord := []

/-- What `route` reads before its first await. -/
structure RouteInput where
  requestId : String
  now : ℚ
  next : LoopInput

/-- What an await of the request comes back with, and what is read before the next one. -/
inductive ChatEvent
  | resolved (caller : Option Caller) (input : RouteInput)
  | tokensUsed (used : ℕ) (input : RouteInput)
  | route (event : RouteEvent)
  /-- the database raises -/
  | failed

namespace ChatTask

/-- The request arrives, validated. -/
def start (body : ChatCompletionRequest) : ChatTask := { body := body, pc := .resolving }

/-- `route` has come to its next await, or to its end. -/
def proceed (c : ChatTask) (task : RouteTask) : ChatTask :=
  match task.pc with
  | .finished outcome =>
    { c with
      pc := .done outcome.reply
      calls := task.calls
      enqueued := c.enqueued ++ outcome.enqueues }
  | _ => { c with pc := .routing task, calls := task.calls }

/-- `router.route(body, caller)`. -/
def enter (router : Router) (c : ChatTask) (caller : Caller) (input : RouteInput) : ChatTask :=
  c.proceed (router.begin c.body caller input.requestId input.now input.next)

/-- What an await that has come back leads to. -/
def step (router : Router) (c : ChatTask) (event : ChatEvent) : Option ChatTask :=
  match c.pc, event with
  | .resolving, .resolved none _ => some { c with pc := .done unauthorized }
  | .resolving, .resolved (some caller) input =>
    match caller.dailyTokenCap with
    | some cap => some { c with pc := .checkingCap caller cap }
    | none => some (c.enter router caller input)
  | .checkingCap caller cap, .tokensUsed used input =>
    if cap ≤ used then some { c with pc := .done capExhausted }
    else some (c.enter router caller input)
  | .routing task, .route event => (task.step router event).map c.proceed
  | .resolving, .failed => some { c with pc := .done .serverError }
  | .checkingCap _ _, .failed => some { c with pc := .done .serverError }
  | _, _ => none

end ChatTask

/-- The status code of the reply, once there is one. -/
def ChatTask.statusCode? (c : ChatTask) : Option ℕ :=
  match c.pc with
  | .done (.ok _) => some 200
  | .done (.httpException code _) => some code
  | .done .serverError => some 500
  | _ => none

/-! ## 3. The transitions -/

/-- The transitions of a request. -/
inductive ChatTask.Moves (router : Router) (c : ChatTask) : ChatEvent → ChatTask → Prop
  | noCaller {input : RouteInput} (hpc : c.pc = .resolving) :
      Moves router c (.resolved none input) { c with pc := .done unauthorized }
  | capped {caller : Caller} {cap : ℕ} {input : RouteInput} (hpc : c.pc = .resolving)
      (hcap : caller.dailyTokenCap = some cap) :
      Moves router c (.resolved (some caller) input) { c with pc := .checkingCap caller cap }
  | uncapped {caller : Caller} {input : RouteInput} (hpc : c.pc = .resolving)
      (hcap : caller.dailyTokenCap = none) :
      Moves router c (.resolved (some caller) input) (c.enter router caller input)
  | exhausted {caller : Caller} {cap used : ℕ} {input : RouteInput}
      (hpc : c.pc = .checkingCap caller cap) (hused : cap ≤ used) :
      Moves router c (.tokensUsed used input) { c with pc := .done capExhausted }
  | underCap {caller : Caller} {cap used : ℕ} {input : RouteInput}
      (hpc : c.pc = .checkingCap caller cap) (hused : used < cap) :
      Moves router c (.tokensUsed used input) (c.enter router caller input)
  | route {task task' : RouteTask} {event : RouteEvent} (hpc : c.pc = .routing task)
      (htask : task.step router event = some task') :
      Moves router c (.route event) (c.proceed task')
  | resolveFails (hpc : c.pc = .resolving) :
      Moves router c .failed { c with pc := .done .serverError }
  | usageFails {caller : Caller} {cap : ℕ} (hpc : c.pc = .checkingCap caller cap) :
      Moves router c .failed { c with pc := .done .serverError }

/-- A step is one of the transitions. -/
theorem ChatTask.moves_of_step {router : Router} {c c' : ChatTask} {event : ChatEvent}
    (h : c.step router event = some c') : c.Moves router event c' := by
  unfold ChatTask.step at h
  split at h
  · cases h
    exact .noCaller ‹_›
  · rename_i hpc
    split at h <;> cases h
    · exact .capped hpc ‹_›
    · exact .uncapped hpc ‹_›
  · rename_i hpc
    split at h <;> cases h
    · exact .exhausted hpc ‹_›
    · exact .underCap hpc (not_le.mp ‹_›)
  · obtain ⟨task', htask, rfl⟩ := Option.map_eq_some_iff.mp h
    exact .route ‹_› htask
  · cases h
    exact .resolveFails ‹_›
  · cases h
    exact .usageFails ‹_›
  · cases h

@[simp] theorem ChatTask.proceed_calls (c : ChatTask) (task : RouteTask) :
    (c.proceed task).calls = task.calls := by
  unfold proceed
  split <;> rfl

@[simp] theorem ChatTask.enter_calls (router : Router) (c : ChatTask) (caller : Caller)
    (input : RouteInput) :
    (c.enter router caller input).calls =
      (router.begin c.body caller input.requestId input.now input.next).calls :=
  proceed_calls _ _

end Librouter
