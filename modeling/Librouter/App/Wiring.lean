/-
# `app.py`: the wired app

`lifespan` builds the router, the observer, the breakers, the bucket, the weight engine and the
refresh task around one config and one Redis.  `App.step` runs them together: a tick of the refresh
task and any number of requests are in flight, and each event lets one of them go on from the await
it stands at.  What the callers send, what the database answers, what the vendors reply and what
`rng.random()` draws are in the events; what Redis answers and which candidate is picked is computed.

There is one clock, which does not go backwards.
-/
import Librouter.App.ChatCompletions
import Librouter.Accounting
import Librouter.Routing.Refresh

namespace Librouter

/-! ## 1. What `lifespan` builds -/

/-- What `lifespan` has to go on. -/
structure App where
  cfg : Config
  /-- the keys of `build_vendors(cfg, secrets)` -/
  vendors : List String
  pricing : Dict (String × String) PriceEntry := Dict.empty
  repr : String → String

namespace App

variable (app : App)

/-- `bucket`: the limits of all candidates, by `provider/model`. -/
def bucket : RedisTokenBucket where
  limits := Dict.ofList <| (app.cfg.tiers.values.flatMap TierConfig.candidates).map fun cand =>
    (candidateKey cand.provider cand.model, cand.rateLimits)

/-- `breakers`, with the defaults. -/
def breakers : BreakerSet := {}

/-- `observer`. -/
def observer : Observer := { windowS := app.cfg.routing.healthWindowS }

/-- `refresh`. -/
def refresh : RefreshTask where
  cfg := app.cfg
  observer := app.observer
  bucket := app.bucket
  breakers := breakers
  availableProviders := app.vendors

/-- `router`. -/
def router : Router where
  cfg := app.cfg
  vendors := app.vendors
  pricing := app.pricing
  repr := app.repr

end App

/-! ## 2. States and events -/

/-- A call of `vendor.chat` that `route` made, with the instant it came back. -/
structure RoutedOutcome where
  time : ℚ
  cand : CandidateRef
  reply : Except ProviderError ChatResult

/-- The state of the app. -/
structure AppState where
  clock : ℚ
  redis : Redis
  refresh : RefreshState := {}
  requests : List ChatTask := []
  accounting : AccountingQueue := {}
  /-- the first tick is done -/
  serving : Bool := false
  /-- history: the vendor calls of `route` -/
  outcomes : List RoutedOutcome := []

/-- What an await of a request comes back with. -/
inductive Answer
  | resolved (caller : Option Caller) (requestId : String) (draw : UnitDraw)
  | tokensUsed (used : ℕ) (requestId : String) (draw : UnitDraw)
  | acquired (draw : UnitDraw)
  | replied (reply : Except ProviderError ChatResult)
  | recorded (draw : UnitDraw)
  /-- an exception: Redis or the database is unreachable -/
  | failed

/-- What happens next. -/
inductive AppAction
  /-- `tick()` is called -/
  | tick
  /-- the Redis command of the tick is executed -/
  | tickStep
  /-- it raises -/
  | tickFails
  /-- a request arrives -/
  | arrive (body : ChatCompletionRequest)
  /-- an await of request `i` comes back -/
  | request (i : ℕ) (answer : Answer)

/-- What happens next, and when. -/
structure AppEvent where
  now : ℚ
  action : AppAction

/-! ## 3. Steps -/

namespace App

variable (app : App)

/-- The weight engine. -/
def engine (s : AppState) : WeightEngine := ⟨app.cfg.routing, s.refresh.cache⟩

/-- What the loop of `route` reads: the clock, and the pick. -/
def loopInput (s : AppState) (now : ℚ) (draw : UnitDraw) : LoopInput :=
  ⟨now, fun cands exclude => (app.engine s).pick cands exclude draw⟩

/-- `now`, the name and the pick for a `route` that is entered. -/
def routeInput (s : AppState) (now : ℚ) (requestId : String) (draw : UnitDraw) : RouteInput :=
  ⟨requestId, now, app.loopInput s now draw⟩

/-- An answer to the await in which a call of `route` stands: what it does to Redis, and what the
call makes of it. -/
def routeAnswer (s : AppState) (now : ℚ) (t : RouteTask) (answer : Answer) :
    Option (Redis × RouteEvent) :=
  match t.pc, answer with
  | .acquiring _ cand, .acquired draw =>
    match app.bucket.acquireAt s.redis now cand t.req.est with
    | .ok (redis, reply) => some (redis, .acquired reply.ok now (app.loopInput s now draw))
    | .error _ => some (s.redis, .failed)
  | .chatting _ _ _, .replied reply => some (s.redis, .replied reply now)
  | .recordingFailure cand e, .recorded draw =>
    some (app.observer.recordFailure s.redis now cand e.typeName,
      .recorded (app.loopInput s now draw))
  | .recordingSuccess cand elapsed _, .recorded draw =>
    some (app.observer.recordSuccess s.redis now cand elapsed,
      .recorded (app.loopInput s now draw))
  | _, .failed => some (s.redis, .failed)
  | _, _ => none

/-- The same for a request. -/
def chatAnswer (s : AppState) (now : ℚ) (c : ChatTask) (answer : Answer) :
    Option (Redis × ChatEvent) :=
  match c.pc, answer with
  | .routing t, answer => (app.routeAnswer s now t answer).map fun a => (a.1, .route a.2)
  | _, .resolved caller requestId draw =>
    some (s.redis, .resolved caller (app.routeInput s now requestId draw))
  | _, .tokensUsed used requestId draw =>
    some (s.redis, .tokensUsed used (app.routeInput s now requestId draw))
  | _, .failed => some (s.redis, .failed)
  | _, _ => none

/-- The vendor call that has come back between `c` and `c'`. -/
def newOutcomes (now : ℚ) (c c' : ChatTask) : List RoutedOutcome :=
  (c'.calls.drop c.calls.length).map fun call => ⟨now, call.cand, call.reply⟩

/-- Request `i` goes on. -/
def stepRequest (s : AppState) (now : ℚ) (i : ℕ) (answer : Answer) : Option AppState :=
  (s.requests[i]?).bind fun c =>
  (app.chatAnswer s now c answer).bind fun (redis, event) =>
  (c.step app.router event).map fun c' =>
    { s with
      redis := redis
      requests := s.requests.set i c'
      accounting := s.accounting.enqueueAll (c'.enqueued.drop c.enqueued.length)
      outcomes := s.outcomes ++ newOutcomes now c c' }

/-- The tick goes on.  When the first one is done the app starts to serve. -/
def stepTick (s : AppState) (now : ℚ) : Option AppState :=
  (app.refresh.step s.redis now s.refresh).map fun (redis, refresh) =>
    { s with
      redis := redis
      refresh := refresh
      serving := s.serving || refresh.isIdle }

/-- What an event does, apart from the time it takes.  A first tick that fails is the end of the
app. -/
def act (s : AppState) (e : AppEvent) : Option AppState :=
  match e.action with
  | .tick => (RefreshTask.start e.now s.refresh).map fun refresh => { s with refresh := refresh }
  | .tickStep => app.stepTick s e.now
  | .tickFails =>
    if s.serving then
      (RefreshTask.abort s.refresh).map fun refresh => { s with refresh := refresh }
    else none
  | .arrive body =>
    if s.serving then some { s with requests := s.requests ++ [ChatTask.start body] } else none
  | .request i answer => app.stepRequest s e.now i answer

/-- One event. -/
def step (s : AppState) (e : AppEvent) : Option AppState :=
  if s.clock ≤ e.now then (app.act s e).map fun s' => { s' with clock := e.now } else none

/-- The app before its first tick, on a Redis that may hold anything. -/
def boot (redis : Redis) (now : ℚ) : AppState := { clock := now, redis := redis }

end App

/-- A whole tick of an app with one candidate, when no breaker has samples. -/
def soleTick (now : ℚ) : List AppEvent :=
  [⟨now, .tick⟩, ⟨now, .tickStep⟩, ⟨now, .tickStep⟩, ⟨now, .tickStep⟩, ⟨now, .tickStep⟩]

end Librouter
