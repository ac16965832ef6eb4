/-
# What a fleet may ask of a vendor

Every replica takes a request and its estimated tokens from the bucket of a candidate before it
calls the vendor; the bucket is one hash in Redis, and the refresh tasks draw on it as well.
`GatewayFleet.step` runs any number of calls of `route`, in any number of processes, against it.
They read one clock, but before the await: a script comes to Redis later than the reading it
carries, it may come after one with a later reading, and even when its call has failed.  Its answer
may get lost.

`calls_throttled` is the promise of the limits, for the calls themselves.  Each call of a candidate
that the fleet has started has its own acquire, and all scripts of a candidate are accepted for at
most a full bucket and the refill of the time they are credited: the steps forward from reading to
reading, as in `Ratelimit.Skew`.  Scripts that reach Redis in the order of their readings are
credited no more than the readings span; then the calls are at most a full bucket and the refill
since the fleet began, and so are their tokens.
-/
import Librouter.Ratelimit.Window
import Librouter.Ratelimit.Skew
import Librouter.RedisState.Keys
import Librouter.Foundations.Mutex
import Librouter.App.ChatCompletions

namespace Librouter

open TokenBucket

/-! ## 1. The fleet -/

/-- Processes with one config on one Redis. -/
structure GatewayFleet where
  router : Router
  bucket : RedisTokenBucket

/-- A script on its way to Redis, with the reading of the clock that it carries. -/
structure SentScript where
  readMs : ℤ
  cand : CandidateRef

/-- A call of `route`. -/
structure FleetCall where
  task : RouteTask
  /-- its acquire, until it is executed -/
  script : Option SentScript := none
  /-- what the script has answered, while the answer is on its way -/
  answer : Option Bool := none

/-- A script that was executed, with what it left in the bucket. -/
structure Execution where
  readMs : ℤ
  atMs : ℤ
  cand : CandidateRef
  /-- for a call, not for a refresh task -/
  forCall : Bool
  tokens : ℕ
  ok : Bool
  rpmLeft : ℚ
  tpmLeft : ℚ

/-- The time in milliseconds, Redis, the calls, and the reads of the refresh tasks on their way. -/
structure FleetState where
  clockMs : ℤ
  redis : Redis := Dict.empty
  calls : List FleetCall := []
  reads : List SentScript := []
  /-- history: the scripts -/
  executed : List Execution := []
  /-- history: the vendor calls that were started, with the tokens they were estimated at -/
  started : List (CandidateRef × ℕ) := []

/-- What happens. -/
inductive FleetAction
  /-- a request comes to `route` -/
  | begin (req : ChatCompletionRequest) (caller : Caller) (input : RouteInput)
  /-- Redis executes the script that call `i` has sent -/
  | acquire (i : ℕ)
  /-- an await of call `i` comes back -/
  | resume (i : ℕ) (event : RouteEvent)
  /-- a refresh task asks for the level of a candidate -/
  | read (cand : CandidateRef)
  /-- Redis executes the script of read `k` -/
  | remaining (k : ℕ)

/-- What happens, and when: the processes and Redis read one clock, which does not go back. -/
structure FleetEvent where
  nowMs : ℤ
  action : FleetAction

/-- An acquire returns what the script has answered. -/
def FleetCall.permits (call : FleetCall) : RouteEvent → Bool
  | .acquired ok _ _ => decide (call.answer = some ok)
  | _ => true

/-- The candidate whose bucket is waited for. -/
def RouteTask.awaited (t : RouteTask) : Option CandidateRef :=
  match t.pc with
  | .acquiring _ cand => some cand
  | _ => none

/-- The vendor call that begins with this state of `route`. -/
def RouteTask.callStarted (t : RouteTask) : List (CandidateRef × ℕ) :=
  match t.pc with
  | .chatting cand _ _ => [(cand, t.req.est)]
  | _ => []

/-- The state a call is in when `route` has gone on to `task`: if this is an acquire, the clock is
read and the script is sent. -/
def RouteTask.proceed (task : RouteTask) (nowMs : ℤ) (script : Option SentScript) : FleetCall where
  task := task
  script := (task.awaited.map (SentScript.mk nowMs)).or script

/-- The answer of the script is for the call, if this still waits for it. -/
def FleetCall.answered (call : FleetCall) (script : SentScript) (ok : Bool) : FleetCall :=
  { call with
    script := none
    answer := if call.task.awaited = some script.cand then some ok else none }

namespace GatewayFleet

variable (fleet : GatewayFleet)

/-- Redis executes a script.  The key lives for ten minutes from the execution. -/
def execute (s : FleetState) (nowMs : ℤ) (script : SentScript) (forCall : Bool) (tokens : ℕ) :
    Option (Bool × FleetState) :=
  let cand := script.cand
  let key := bucketKey cand.provider cand.model
  match fleet.bucket.tryAcquire cand.provider cand.model tokens script.readMs
      (s.redis.read nowMs key) with
  | .ok (entry, reply) => some (reply.ok,
      { s with
        redis := s.redis.set key (entry.pexpire nowMs 600000)
        executed := s.executed ++
          [{ readMs := script.readMs
             atMs := nowMs
             cand := cand
             forCall := forCall
             tokens := tokens
             ok := reply.ok
             rpmLeft := (entry.fields "rpm_remaining").getD 0
             tpmLeft := (entry.fields "tpm_remaining").getD 0 }] })
  | .error _ => none

/-- The script of call `i` is executed. -/
def stepAcquire (s : FleetState) (nowMs : ℤ) (i : ℕ) : Option FleetState :=
  (s.calls[i]?).bind fun call =>
  call.script.bind fun script =>
  (fleet.execute s nowMs script true call.task.req.est).map fun (ok, s') =>
    { s' with calls := s.calls.set i (call.answered script ok) }

/-- Call `i` goes on. -/
def stepResume (s : FleetState) (nowMs : ℤ) (i : ℕ) (event : RouteEvent) : Option FleetState :=
  (s.calls[i]?).bind fun call =>
  if call.permits event then
    (call.task.step fleet.router event).map fun task =>
      { s with
        calls := s.calls.set i (task.proceed nowMs call.script)
        started := s.started ++ task.callStarted }
  else none

/-- The script of a read is executed: an acquire of zero tokens. -/
def stepRemaining (s : FleetState) (nowMs : ℤ) (k : ℕ) : Option FleetState :=
  (s.reads[k]?).bind fun script =>
  (fleet.execute s nowMs script false 0).map fun (_, s') =>
    { s' with reads := s.reads.eraseIdx k }

/-- What an event does, apart from the time it takes. -/
def act (s : FleetState) (e : FleetEvent) : Option FleetState :=
  match e.action with
  | .begin req caller input =>
    let task := fleet.router.begin req caller input.requestId input.now input.next
    some { s with calls := s.calls ++ [task.proceed e.nowMs none] }
  | .acquire i => fleet.stepAcquire s e.nowMs i
  | .resume i event => fleet.stepResume s e.nowMs i event
  | .read cand => some { s with reads := s.reads ++ [⟨e.nowMs, cand⟩] }
  | .remaining k => fleet.stepRemaining s e.nowMs k

/-- One event. -/
def step (s : FleetState) (e : FleetEvent) : Option FleetState :=
  if s.clockMs ≤ e.nowMs then (fleet.act s e).map fun s' => { s' with clockMs := e.nowMs }
  else none

end GatewayFleet

/-- Nothing is in Redis yet. -/
def FleetState.boot (startMs : ℤ) : FleetState := { clockMs := startMs }

/-- The provider ends at the first `:` of the key. -/
def CandidateRef.Plain (cand : CandidateRef) : Prop := ':' ∉ cand.provider.toList

instance : DecidablePred CandidateRef.Plain := fun _ => inferInstanceAs (Decidable (¬ _))

/-- The weight engine has signals for the candidates of vendors only, and vendors have no `:`. -/
def LoopInput.Plain (input : LoopInput) : Prop :=
  ∀ tierCandidates exclude, ∀ cand ∈ input.pick tierCandidates exclude, cand.Plain

/-- What `route` reads when it comes round. -/
def RouteEvent.next? : RouteEvent → Option LoopInput
  | .acquired _ _ next => some next
  | .recorded next => some next
  | _ => none

/-- The candidates of the event are those of vendors. -/
def FleetEvent.Plain (e : FleetEvent) : Prop :=
  match e.action with
  | .begin _ _ input => input.next.Plain
  | .acquire _ => True
  | .resume _ event => ∀ next ∈ event.next?, next.Plain
  | .read cand => cand.Plain
  | .remaining _ => True

/-! ## 2. The transitions -/

/-- What is stored under the bucket key of a candidate. -/
def FleetState.bucketEntry (s : FleetState) (cand : CandidateRef) : RedisEntry :=
  (s.redis.get? (bucketKey cand.provider cand.model)).getD .missing

namespace SentScript

variable (script : SentScript) (nowMs : ℤ) (forCall : Bool) (tokens : ℕ) (c : BucketCaps)
  (e : RedisEntry)

/-- The row of the script, on what it finds. -/
def row : AcquireRow := acquireRow c e script.readMs tokens

/-- What goes into the history. -/
def execution : Execution where
  readMs := script.readMs
  atMs := nowMs
  cand := script.cand
  forCall := forCall
  tokens := tokens
  ok := (script.row tokens c e).ok
  rpmLeft := (script.row tokens c e).rpmLevel
  tpmLeft := (script.row tokens c e).tpmLevel

/-- What is under the key afterwards. -/
def leaves : RedisEntry := (callState c e (.acquire script.readMs tokens)).pexpire nowMs 600000

end SentScript

/-- The script is executed, with the limits of its candidate. -/
inductive FleetState.Executes (fleet : GatewayFleet) (s : FleetState) (now : ℤ)
    (script : SentScript) (forCall : Bool) (tokens : ℕ) : Execution → FleetState → Prop
  | intro {limits : RateLimitEntry} {found : RedisEntry}
      (hlimits : fleet.bucket.entry script.cand.provider script.cand.model = .ok limits)
      (hfound : found = (s.bucketEntry script.cand).expire now) :
      Executes fleet s now script forCall tokens
        (script.execution now forCall tokens limits.caps found)
        { s with
          redis := s.redis.set (bucketKey script.cand.provider script.cand.model)
            (script.leaves now tokens limits.caps found)
          executed := s.executed ++
            [script.execution now forCall tokens limits.caps found] }

/-- The transitions, with everything each of them changes. -/
inductive FleetState.Moves (fleet : GatewayFleet) (s : FleetState) (now : ℤ) :
    FleetAction → FleetState → Prop
  | begin (req : ChatCompletionRequest) (caller : Caller) (input : RouteInput) :
      Moves fleet s now (.begin req caller input)
        { s with
          clockMs := now
          calls := s.calls ++ [(fleet.router.begin req caller input.requestId input.now
            input.next).proceed now none] }
  | acquire {i : ℕ} {call : FleetCall} {script : SentScript} {x : Execution} {m : FleetState}
      (hcall : s.calls[i]? = some call) (hscript : call.script = some script)
      (hexec : s.Executes fleet now script true call.task.req.est x m) :
      Moves fleet s now (.acquire i)
        { m with
          clockMs := now
          calls := s.calls.set i (call.answered script x.ok) }
  | resume {i : ℕ} {event : RouteEvent} {call : FleetCall} {task : RouteTask}
      (hcall : s.calls[i]? = some call) (hpermits : call.permits event = true)
      (htask : call.task.step fleet.router event = some task) :
      Moves fleet s now (.resume i event)
        { s with
          clockMs := now
          calls := s.calls.set i (task.proceed now call.script)
          started := s.started ++ task.callStarted }
  | read (cand : CandidateRef) :
      Moves fleet s now (.read cand)
        { s with clockMs := now, reads := s.reads ++ [⟨now, cand⟩] }
  | remaining {k : ℕ} {script : SentScript} {x : Execution} {m : FleetState}
      (hread : s.reads[k]? = some script) (hexec : s.Executes fleet now script false 0 x m) :
      Moves fleet s now (.remaining k)
        { m with clockMs := now, reads := s.reads.eraseIdx k }

theorem RedisTokenBucket.tryAcquire_ok {b : RedisTokenBucket} {provider model : String} {n : ℕ}
    {nowMs : ℚ} {e : RedisEntry} {a : RedisEntry × RatelimitReply}
    (h : b.tryAcquire provider model n nowMs e = .ok a) :
    ∃ limits, b.entry provider model = .ok limits ∧
      ratelimitLua e (limits.caps.acquireArgs nowMs n) = a := by
  unfold tryAcquire at h
  cases hentry : b.entry provider model with
  | error e => simp [hentry, Except.map] at h
  | ok limits =>
    simp only [hentry, Except.map, Except.ok.injEq] at h
    exact ⟨limits, rfl, h⟩

theorem GatewayFleet.executes_of_execute {fleet : GatewayFleet} {s s' : FleetState} {now : ℤ}
    {script : SentScript} {forCall ok : Bool} {tokens : ℕ}
    (h : fleet.execute s now script forCall tokens = some (ok, s')) :
    ∃ x, s.Executes fleet now script forCall tokens x s' ∧ ok = x.ok := by
  unfold execute at h
  dsimp only at h
  split at h
  · rename_i entry reply hok
    cases h
    obtain ⟨limits, hlimits, hscript⟩ := RedisTokenBucket.tryAcquire_ok hok
    have hrpm := ratelimitLua_rpm (s.redis.read now (bucketKey script.cand.provider
      script.cand.model)) (limits.caps.acquireArgs script.readMs tokens)
    have htpm := ratelimitLua_tpm (s.redis.read now (bucketKey script.cand.provider
      script.cand.model)) (limits.caps.acquireArgs script.readMs tokens)
    rw [hscript] at hrpm htpm
    rw [hrpm, htpm]
    obtain ⟨rfl, rfl⟩ := Prod.mk.inj hscript
    exact ⟨_, .intro hlimits rfl, rfl⟩
  · cases h

/-- A step is one of the transitions, and takes time. -/
theorem GatewayFleet.moves_of_step {fleet : GatewayFleet} {s s' : FleetState} {e : FleetEvent}
    (h : fleet.step s e = some s') : s.clockMs ≤ e.nowMs ∧ s.Moves fleet e.nowMs e.action s' := by
  obtain ⟨hclock, h⟩ := Option.ite_none_right_eq_some.mp h
  obtain ⟨m, hact, rfl⟩ := Option.map_eq_some_iff.mp h
  refine ⟨hclock, ?_⟩
  obtain ⟨now, action⟩ := e
  cases action with
  | begin req caller input =>
    cases hact
    exact .begin req caller input
  | acquire i =>
    obtain ⟨call, hcall, hact⟩ := Option.bind_eq_some_iff.mp hact
    obtain ⟨script, hscript, hact⟩ := Option.bind_eq_some_iff.mp hact
    obtain ⟨⟨ok, m⟩, hexec, rfl⟩ := Option.map_eq_some_iff.mp hact
    obtain ⟨x, hexecutes, hok⟩ := executes_of_execute hexec
    rw [hok]
    have hmoves := FleetState.Moves.acquire hcall hscript hexecutes
    exact hmoves
  | resume i event =>
    obtain ⟨call, hcall, hact⟩ := Option.bind_eq_some_iff.mp hact
    obtain ⟨hpermits, hact⟩ := Option.ite_none_right_eq_some.mp hact
    obtain ⟨task, htask, rfl⟩ := Option.map_eq_some_iff.mp hact
    exact .resume hcall hpermits htask
  | read cand =>
    cases hact
    exact .read cand
  | remaining k =>
    obtain ⟨script, hread, hact⟩ := Option.bind_eq_some_iff.mp hact
    obtain ⟨⟨ok, m⟩, hexec, rfl⟩ := Option.map_eq_some_iff.mp hact
    obtain ⟨x, hexecutes, -⟩ := executes_of_execute hexec
    have hmoves := FleetState.Moves.remaining hread hexecutes
    exact hmoves

/-! ## 3. Each call has its own acquire -/

/-- The candidate and the tokens. -/
def Execution.bill (x : Execution) : CandidateRef × ℕ := (x.cand, x.tokens)

/-- The acquires of the calls that were accepted. -/
def FleetState.admitted (s : FleetState) : List Execution :=
  s.executed.filter fun x => x.forCall && x.ok

/-- What a call has been admitted for, while the answer is on its way. -/
def FleetCall.pending (call : FleetCall) : List (CandidateRef × ℕ) :=
  match call.task.pc, call.answer with
  | .acquiring _ cand, some true => [(cand, call.task.req.est)]
  | _, _ => []

/-- How often the calls are admitted to `x` with an answer on its way. -/
def FleetState.pendingCount (s : FleetState) (x : CandidateRef × ℕ) : ℕ :=
  Mutex.totalRank (fun call => call.pending.count x) s.calls

/-- Every call of a vendor, and every answer on its way that allows one, has its own acquire. -/
def FleetState.Backed (s : FleetState) : Prop :=
  ∀ x, s.started.count x + s.pendingCount x ≤ (s.admitted.map Execution.bill).count x

/-- A call of a vendor begins when its acquire returns. -/
theorem RouteTask.callStarted_of_step {router : Router} {call : FleetCall} {task : RouteTask}
    {event : RouteEvent} (hpermits : call.permits event = true)
    (hstep : call.task.step router event = some task) :
    task.callStarted = [] ∨ task.callStarted = call.pending := by
  have hloop : ∀ (t : RouteTask) (input : LoopInput),
      (router.loopTop t input).callStarted = [] := by
    intro t input
    rcases router.loopTop_cases t input with ⟨error, -, heq⟩ | ⟨cand, -, -, heq⟩ <;>
      rw [heq] <;> rfl
  cases moves_of_step hstep with
  | crash | callFailed | callUnrecorded | callOk | giveUp | recordFails | answer
    | noMessage => exact Or.inl rfl
  | bucketEmpty | vendorMissing | retry => exact Or.inl (hloop _ _)
  | call hpc hvendor =>
    have hanswer := of_decide_eq_true hpermits
    exact Or.inr (by simp only [callStarted, FleetCall.pending, hpc, hanswer])

/-- A call that has just gone on has no answer yet. -/
theorem RouteTask.pending_proceed (task : RouteTask) (now : ℤ) (script : Option SentScript) :
    (task.proceed now script).pending = [] := by
  unfold FleetCall.pending
  split
  · rename_i hanswer
    cases hanswer
  · rfl

/-- The answer of a script is for what the script was executed for. -/
theorem FleetCall.pending_answered (call : FleetCall) (script : SentScript) (ok : Bool) :
    (call.answered script ok).pending = [] ∨
      ok = true ∧ (call.answered script ok).pending = [(script.cand, call.task.req.est)] := by
  unfold pending
  split
  · rename_i remaining cand hpc hanswer
    obtain ⟨hawaited, hok⟩ := Option.ite_none_right_eq_some.mp hanswer
    have hpc' : call.task.pc = .acquiring remaining cand := hpc
    have hcand : cand = script.cand := by
      simpa only [RouteTask.awaited, hpc', Option.some.injEq] using hawaited
    exact Or.inr ⟨Option.some.inj hok, by rw [hcand]; rfl⟩
  · exact Or.inl rfl

theorem FleetState.Backed.step {fleet : GatewayFleet} {s s' : FleetState} {now : ℤ}
    {action : FleetAction} (h : s.Backed) (hmoves : s.Moves fleet now action s') : s'.Backed := by
  intro b
  have hb := h b
  cases hmoves with
  | begin req caller input =>
    simp only [pendingCount, Mutex.totalRank_concat, RouteTask.pending_proceed, List.count_nil,
      Nat.add_zero]
    exact hb
  | @acquire i call script x m hcall hscript hexec =>
    have hset := Mutex.totalRank_set (y := call.answered script x.ok)
      (fun call => call.pending.count b) hcall
    have hadmitted : m.admitted = s.admitted ++ [x].filter fun x => x.forCall && x.ok := by
      obtain ⟨hlimits, rfl⟩ := hexec
      exact List.filter_append ..
    have hstarted : m.started = s.started := by
      obtain ⟨hlimits, rfl⟩ := hexec
      rfl
    have hbill : x.forCall = true ∧ x.bill = (script.cand, call.task.req.est) := by
      obtain ⟨hlimits, rfl⟩ := hexec
      exact ⟨rfl, rfl⟩
    change m.started.count b + Mutex.totalRank (fun call => call.pending.count b)
      (s.calls.set i (call.answered script x.ok)) ≤ (m.admitted.map Execution.bill).count b
    rw [pendingCount] at hb
    rw [hstarted, hadmitted, List.map_append, List.count_append]
    rcases call.pending_answered script x.ok with hnone | ⟨hok, hsome⟩
    · rw [hnone, List.count_nil] at hset
      omega
    · rw [hsome, ← hbill.2] at hset
      have hkept : [x].filter (fun x => x.forCall && x.ok) = [x] := by
        simp [hbill.1, hok]
      rw [hkept, List.map_singleton]
      omega
  | @resume i event call task hcall hpermits htask =>
    have hset := Mutex.totalRank_set (y := task.proceed now call.script)
      (fun call => call.pending.count b) hcall
    simp only [RouteTask.pending_proceed, List.count_nil, Nat.add_zero] at hset
    change (s.started ++ task.callStarted).count b + Mutex.totalRank _
      (s.calls.set i (task.proceed now call.script)) ≤ (s.admitted.map Execution.bill).count b
    rw [pendingCount] at hb
    rcases RouteTask.callStarted_of_step hpermits htask with hstarted | hstarted
    · rw [hstarted, List.append_nil]
      omega
    · rw [hstarted, List.count_append]
      omega
  | read => exact hb
  | @remaining k script x m hread hexec =>
    obtain ⟨hlimits, rfl⟩ := hexec
    simp only [pendingCount, admitted, List.filter_append, List.map_append,
      List.count_append] at hb ⊢
    omega

/-! ## 4. What happens under one bucket key -/

/-- The row of the execution, by its reading. -/
def Execution.row (x : Execution) : AcquireRow where
  nowMs := x.readMs
  requestTokens := x.tokens
  ok := x.ok
  rpmLevel := x.rpmLeft
  tpmLevel := x.tpmLeft

/-- The milliseconds that the bucket is credited from `x` to `x'`: the step forward from reading to
reading, at most the minute that fills it; and a minute if Redis has dropped the key in between. -/
def Execution.creditMs (x x' : Execution) : ℚ :=
  if x.atMs + 600000 ≤ x'.atMs then 60000 else Librouter.creditMs x.readMs x'.readMs

/-- `x'` leaves and takes at most what `x` left and the refill of the credit. -/
def Execution.Pays (c : BucketCaps) (x x' : Execution) : Prop :=
  Paid (fun x => x.row.rpmSpent) Execution.rpmLeft Execution.creditMs (c.rpmCap / 60000) x x' ∧
    Paid (fun x => x.row.tpmSpent) Execution.tpmLeft Execution.creditMs (c.tpmCap / 60000) x x'

/-- What was left is under the key. -/
structure Execution.Left (x : Execution) (e : RedisEntry) : Prop where
  stored : Stored x.readMs x.rpmLeft x.tpmLeft e
  expireAt : e.expireAtMs = some ((x.atMs : ℚ) + 600000)

theorem SentScript.left_leaves (script : SentScript) (now : ℤ) (forCall : Bool) (tokens : ℕ)
    (c : BucketCaps) (e : RedisEntry) :
    (script.execution now forCall tokens c e).Left (script.leaves now tokens c e) := by
  obtain ⟨hlast, hrpm, htpm⟩ := stored_acquire c e script.readMs tokens
  exact ⟨⟨hlast, hrpm, htpm⟩, rfl⟩

/-- Redis has dropped the key, ten minutes after the script that left something there... -/
theorem Execution.Left.expire_due {x : Execution} {e : RedisEntry} (h : x.Left e) {now : ℤ}
    (hdue : x.atMs + 600000 ≤ now) : e.expire now = .missing := by
  have hle : (x.atMs : ℚ) + 600000 ≤ now := by exact_mod_cast hdue
  unfold RedisEntry.expire
  rw [h.expireAt]
  exact if_pos hle

/-- ...and not before. -/
theorem Execution.Left.expire_live {x : Execution} {e : RedisEntry} (h : x.Left e) {now : ℤ}
    (hdue : ¬ x.atMs + 600000 ≤ now) : e.expire now = e := by
  have hlt : ¬ (x.atMs : ℚ) + 600000 ≤ now := by exact_mod_cast hdue
  unfold RedisEntry.expire
  rw [h.expireAt]
  exact if_neg hlt

/-- **The refill of the credit pays**, whatever the readings. -/
theorem Execution.Left.pays {x : Execution} {e : RedisEntry} {c : BucketCaps} (h : x.Left e)
    (hx : x.row.Sound c) (script : SentScript) (now : ℤ) (forCall : Bool) (tokens : ℕ) :
    x.Pays c (script.execution now forCall tokens c (e.expire now)) := by
  have hcr := c.rpmCap_nonneg
  have hcp := c.tpmCap_nonneg
  have hr : 0 ≤ x.rpmLeft := hx.rpm_nonneg
  have hp : 0 ≤ x.tpmLeft := hx.tpm_nonneg
  by_cases hdue : x.atMs + 600000 ≤ now
  · have hcredit : ∀ found, x.creditMs (script.execution now forCall tokens c found) = 60000 :=
      fun _ => if_pos hdue
    rw [h.expire_due hdue]
    obtain ⟨hrpm, htpm⟩ := refilled_missing c script.readMs tokens
    constructor
    · refine (rpmLevel_add_spent c .missing script.readMs tokens).le.trans ?_
      rw [hrpm, hcredit]
      linarith
    · refine (tpmLevel_add_spent c .missing script.readMs tokens).le.trans ?_
      rw [htpm, hcredit]
      linarith
  · have hcredit : ∀ found, x.creditMs (script.execution now forCall tokens c found) =
        Librouter.creditMs x.readMs script.readMs := fun _ => if_neg hdue
    rw [h.expire_live hdue]
    constructor
    · refine (rpmLevel_add_spent c e script.readMs tokens).le.trans ?_
      rw [h.stored.refilledRpm, hcredit]
      exact refill_le_credit _ _ hcr hr
    · refine (tpmLevel_add_spent c e script.readMs tokens).le.trans ?_
      rw [h.stored.refilledTpm, hcredit]
      exact refill_le_credit _ _ hcp hp

/-- What is left under the key is never negative. -/
theorem Execution.Left.sound {x : Execution} {e : RedisEntry} {c : BucketCaps} (h : x.Left e)
    (hx : x.row.Sound c) (script : SentScript) (now : ℤ) (forCall : Bool) (tokens : ℕ) :
    (script.execution now forCall tokens c (e.expire now)).row.Sound c := by
  have hlevels : 0 ≤ ((e.expire now).fields "rpm_remaining").getD 0 ∧
      0 ≤ ((e.expire now).fields "tpm_remaining").getD 0 := by
    by_cases hdue : x.atMs + 600000 ≤ now
    · rw [h.expire_due hdue]
      exact ⟨le_rfl, le_rfl⟩
    · rw [h.expire_live hdue, h.stored.rpm, h.stored.tpm]
      exact ⟨hx.rpm_nonneg, hx.tpm_nonneg⟩
  exact sound_acquireRow (Nat.cast_nonneg _) hlevels.1 hlevels.2

/-- The scripts of a candidate, as Redis has executed them. -/
def FleetState.executedFor (s : FleetState) (cand : CandidateRef) : List Execution :=
  s.executed.filter fun x => x.cand = cand

/-- The log of a candidate: each script is paid for by the one before it, and what the last one left
is under the key. -/
structure FleetState.KeyLog (s : FleetState) (cand : CandidateRef) (c : BucketCaps) : Prop where
  paid : List.IsChain (Execution.Pays c) (s.executedFor cand)
  sound : ∀ x ∈ s.executedFor cand, x.row.Sound c
  empty : s.executedFor cand = [] → s.bucketEntry cand = .missing
  last : ∀ x ∈ (s.executedFor cand).getLast?, x.Left (s.bucketEntry cand)

/-- Nothing else matters for the log. -/
theorem FleetState.KeyLog.congr {s s' : FleetState} {cand : CandidateRef} {c : BucketCaps}
    (h : s.KeyLog cand c) (hentry : s'.bucketEntry cand = s.bucketEntry cand)
    (hlog : s'.executedFor cand = s.executedFor cand) : s'.KeyLog cand c where
  paid := hlog ▸ h.paid
  sound := hlog ▸ h.sound
  empty hnil := hentry.trans (h.empty (hlog ▸ hnil))
  last x hx := hentry ▸ h.last x (hlog ▸ hx)

/-- **A script goes on with the log of its candidate.** -/
theorem FleetState.KeyLog.execute {s s' : FleetState} {script : SentScript} {c : BucketCaps}
    (h : s.KeyLog script.cand c) (now : ℤ) (forCall : Bool) (tokens : ℕ)
    (hentry : s'.bucketEntry script.cand =
      script.leaves now tokens c ((s.bucketEntry script.cand).expire now))
    (hexecuted : s'.executedFor script.cand = s.executedFor script.cand ++
      [script.execution now forCall tokens c ((s.bucketEntry script.cand).expire now)]) :
    s'.KeyLog script.cand c := by
  have hnew : (script.execution now forCall tokens c
      ((s.bucketEntry script.cand).expire now)).row.Sound c := by
    cases hlast : (s.executedFor script.cand).getLast? with
    | none =>
      rw [h.empty (List.getLast?_eq_none_iff.mp hlast)]
      exact sound_acquireRow (Nat.cast_nonneg _) le_rfl le_rfl
    | some x => exact (h.last x hlast).sound (h.sound x (List.mem_of_getLast? hlast)) _ _ _ _
  refine ⟨?_, ?_, ?_, ?_⟩
  · rw [hexecuted, List.isChain_append]
    refine ⟨h.paid, List.isChain_singleton _, fun x hx y hy => ?_⟩
    obtain rfl : _ = y := by simpa using hy
    exact (h.last x hx).pays (h.sound x (List.mem_of_getLast? hx)) _ _ _ _
  · rw [hexecuted, List.forall_mem_append, List.forall_mem_singleton]
    exact ⟨h.sound, hnew⟩
  · intro hnil
    simp [hexecuted] at hnil
  · intro x hx
    obtain rfl : _ = x := by simpa [hexecuted] using hx
    rw [hentry]
    exact script.left_leaves _ _ _ _ _

/-- Two plain candidates with one bucket key are the same. -/
theorem CandidateRef.Plain.bucketKey_inj {cand cand' : CandidateRef} (h : cand.Plain)
    (h' : cand'.Plain)
    (heq : bucketKey cand.provider cand.model = bucketKey cand'.provider cand'.model) :
    cand = cand' := by
  have hkey : GatewayKey.bucket cand.provider cand.model = .bucket cand'.provider cand'.model :=
    GatewayKey.text_inj h h' heq
  cases cand
  cases cand'
  simpa using hkey

/-- The scripts on their way are for plain candidates. -/
structure FleetState.PlainScripts (s : FleetState) : Prop where
  calls : ∀ call ∈ s.calls, ∀ script ∈ call.script, script.cand.Plain
  reads : ∀ script ∈ s.reads, script.cand.Plain

/-- The invariant. -/
structure FleetState.Sound (fleet : GatewayFleet) (s : FleetState) : Prop where
  backed : s.Backed
  plain : s.PlainScripts
  keys : ∀ (cand : CandidateRef) (limits : RateLimitEntry), cand.Plain →
    fleet.bucket.entry cand.provider cand.model = .ok limits → s.KeyLog cand limits.caps

theorem Router.plain_loopTop (router : Router) {t : RouteTask} {input : LoopInput}
    (h : input.Plain) : ∀ cand ∈ (router.loopTop t input).awaited, cand.Plain := by
  rcases router.loopTop_cases t input with ⟨error, -, heq⟩ | ⟨cand, hpick, -, heq⟩
  · rw [heq]
    exact nofun
  · rw [heq]
    intro cand' hcand'
    obtain rfl := Option.some.inj hcand'
    exact h _ _ cand hpick

theorem Router.plain_begin (router : Router) (req : ChatCompletionRequest) (caller : Caller)
    (requestId : String) (now : ℚ) {input : LoopInput} (h : input.Plain) :
    ∀ cand ∈ (router.begin req caller requestId now input).awaited, cand.Plain := by
  unfold Router.begin
  dsimp only
  split
  · exact router.plain_loopTop h
  · intro cand hcand
    cases hcand

theorem RouteTask.plain_step {router : Router} {t t' : RouteTask} {event : RouteEvent}
    (hevent : ∀ next ∈ event.next?, next.Plain) (hstep : t.step router event = some t') :
    ∀ cand ∈ t'.awaited, cand.Plain := by
  cases moves_of_step hstep with
  | crash | call | callFailed | callUnrecorded | callOk | giveUp | recordFails | answer
    | noMessage => exact nofun
  | bucketEmpty | vendorMissing | retry => exact router.plain_loopTop (hevent _ rfl)

/-- The script of a call that goes on is the new one, or else the old one. -/
theorem RouteTask.plain_proceed {task : RouteTask} {now : ℤ} {script : Option SentScript}
    (htask : ∀ cand ∈ task.awaited, cand.Plain) (hscript : ∀ x ∈ script, x.cand.Plain) :
    ∀ x ∈ (task.proceed now script).script, x.cand.Plain := by
  intro x hx
  rcases Option.or_eq_some_iff.mp hx with hnew | ⟨-, hold⟩
  · obtain ⟨cand, hcand, rfl⟩ := Option.map_eq_some_iff.mp hnew
    exact htask cand hcand
  · exact hscript x hold

theorem FleetState.PlainScripts.step {fleet : GatewayFleet} {s s' : FleetState} {now : ℤ}
    {action : FleetAction} (h : s.PlainScripts) (he : FleetEvent.Plain ⟨now, action⟩)
    (hmoves : s.Moves fleet now action s') : s'.PlainScripts := by
  cases hmoves with
  | begin req caller input =>
    refine ⟨List.forall_mem_append.mpr ⟨h.calls, List.forall_mem_singleton.mpr ?_⟩, h.reads⟩
    exact RouteTask.plain_proceed (fleet.router.plain_begin req caller _ _ he) nofun
  | @acquire i call script x m hcall hscript hexec =>
    have hreads : m.reads = s.reads := by
      obtain ⟨hlimits, rfl⟩ := hexec
      rfl
    refine ⟨fun call' hcall' => ?_, fun script' hscript' => h.reads script' (hreads ▸ hscript')⟩
    rcases List.mem_or_eq_of_mem_set hcall' with hold | rfl
    · exact h.calls call' hold
    · exact nofun
  | @resume i event call task hcall hpermits htask =>
    refine ⟨fun call' hcall' => ?_, h.reads⟩
    rcases List.mem_or_eq_of_mem_set hcall' with hold | rfl
    · exact h.calls call' hold
    · exact RouteTask.plain_proceed (RouteTask.plain_step he htask)
        (h.calls call (List.mem_of_getElem? hcall))
  | read cand =>
    exact ⟨h.calls, List.forall_mem_append.mpr ⟨h.reads, List.forall_mem_singleton.mpr he⟩⟩
  | @remaining k script x m hread hexec =>
    have hcalls : m.calls = s.calls := by
      obtain ⟨hlimits, rfl⟩ := hexec
      rfl
    exact ⟨fun call hcall => h.calls call (hcalls ▸ hcall),
      fun script' hscript' => h.reads script' (List.mem_of_mem_eraseIdx hscript')⟩

/-- What a script does to the logs: the one of its candidate goes on, the others stay. -/
theorem FleetState.Executes.keys {fleet : GatewayFleet} {s m s' : FleetState} {now : ℤ}
    {script : SentScript} {forCall : Bool} {tokens : ℕ} {x : Execution}
    (hexec : s.Executes fleet now script forCall tokens x m) (h : s.Sound fleet)
    (hplain : script.cand.Plain) (hredis : s'.redis = m.redis)
    (hexecuted : s'.executed = m.executed) (cand : CandidateRef) (limits : RateLimitEntry)
    (hcand : cand.Plain) (hentry : fleet.bucket.entry cand.provider cand.model = .ok limits) :
    s'.KeyLog cand limits.caps := by
  obtain ⟨hlimits, rfl⟩ := hexec
  have hkey := h.keys cand limits hcand hentry
  by_cases heq : cand = script.cand
  · subst heq
    obtain rfl := Except.ok.inj (hlimits.symm.trans hentry)
    refine hkey.execute now forCall tokens ?_ ?_
    · rw [FleetState.bucketEntry, hredis, Dict.get?_set_self]
      rfl
    · rw [FleetState.executedFor, hexecuted, List.filter_append]
      simp [FleetState.executedFor, SentScript.execution]
  · have hne : bucketKey cand.provider cand.model ≠
        bucketKey script.cand.provider script.cand.model :=
      fun hsame => heq (hcand.bucketKey_inj hplain hsame)
    have hother : s'.bucketEntry cand = s.bucketEntry cand := by
      rw [FleetState.bucketEntry, hredis, Dict.get?_set_ne _ _ hne]
      rfl
    have hlog : s'.executedFor cand = s.executedFor cand := by
      rw [FleetState.executedFor, hexecuted, List.filter_append]
      simp [FleetState.executedFor, SentScript.execution, Ne.symm heq]
    exact hkey.congr hother hlog

/-- **Every step keeps the invariant.** -/
theorem FleetState.Sound.step {fleet : GatewayFleet} {s s' : FleetState} {e : FleetEvent}
    (h : s.Sound fleet) (he : e.Plain) (hstep : fleet.step s e = some s') : s'.Sound fleet := by
  obtain ⟨-, hmoves⟩ := GatewayFleet.moves_of_step hstep
  obtain ⟨now, action⟩ := e
  refine ⟨h.backed.step hmoves, h.plain.step he hmoves, ?_⟩
  cases hmoves with
  | begin | resume | read =>
    exact fun cand limits hcand hlimits => (h.keys cand limits hcand hlimits).congr rfl rfl
  | acquire hcall hscript hexec =>
    exact hexec.keys h (h.plain.calls _ (List.mem_of_getElem? hcall) _ hscript) rfl rfl
  | remaining hread hexec =>
    exact hexec.keys h (h.plain.reads _ (List.mem_of_getElem? hread)) rfl rfl

theorem FleetState.sound_boot (fleet : GatewayFleet) (startMs : ℤ) :
    (FleetState.boot startMs).Sound fleet where
  backed _ := Nat.zero_le _
  plain := ⟨fun _ h => absurd h List.not_mem_nil, fun _ h => absurd h List.not_mem_nil⟩
  keys _ _ _ _ := ⟨List.isChain_nil, nofun, fun _ => rfl, nofun⟩

/-! ## 5. The promise -/

/-- At most a full bucket and the refill of `ms`, in requests and in tokens. -/
def BucketCaps.Allows (c : BucketCaps) (ms : ℚ) (requests : List ℕ) : Prop :=
  (requests.length : ℚ) ≤ c.rpmCap + c.rpmCap / 60000 * ms ∧
    (requests.sum : ℚ) ≤ c.tpmCap + c.tpmCap / 60000 * ms

/-- More time allows more. -/
theorem BucketCaps.Allows.mono {c : BucketCaps} {ms ms' : ℚ} {requests : List ℕ}
    (h : c.Allows ms requests) (hms : ms ≤ ms') : c.Allows ms' requests := by
  have hminute : (0 : ℚ) ≤ 60000 := by norm_num
  have hrpm := mul_le_mul_of_nonneg_left hms (div_nonneg c.rpmCap_nonneg hminute)
  have htpm := mul_le_mul_of_nonneg_left hms (div_nonneg c.tpmCap_nonneg hminute)
  exact ⟨by linarith [h.1], by linarith [h.2]⟩

/-- Some of the requests are allowed with them all. -/
theorem BucketCaps.Allows.of_subperm {c : BucketCaps} {ms : ℚ} {requests requests' : List ℕ}
    (h : c.Allows ms requests) (hsub : requests'.Subperm requests) : c.Allows ms requests' := by
  have hlength : (requests'.length : ℚ) ≤ requests.length := by exact_mod_cast hsub.length_le
  have hsum : requests'.sum ≤ requests.sum := by
    obtain ⟨l, hperm, hsublist⟩ := hsub
    rw [← hperm.sum_eq]
    exact hsublist.sum_le_sum fun _ _ => Nat.zero_le _
  have hsum' : (requests'.sum : ℚ) ≤ requests.sum := by exact_mod_cast hsum
  exact ⟨hlength.trans h.1, hsum'.trans h.2⟩

/-- The tokens of each script that was accepted. -/
def acceptedOf (executed : List Execution) : List ℕ :=
  (executed.filter Execution.ok).map Execution.tokens

/-- What the scripts spend on requests is the number that is accepted... -/
theorem sum_rpmSpent : ∀ executed : List Execution,
    (executed.map fun x => x.row.rpmSpent).sum = (acceptedOf executed).length
  | [] => by simp [acceptedOf]
  | x :: executed => by
    rw [List.map_cons, List.sum_cons, sum_rpmSpent executed]
    cases h : x.ok <;> simp [acceptedOf, AcquireRow.rpmSpent, Execution.row, h, add_comm]

/-- ...and on tokens, what they are accepted for. -/
theorem sum_tpmSpent : ∀ executed : List Execution,
    (executed.map fun x => x.row.tpmSpent).sum = (acceptedOf executed).sum
  | [] => by simp [acceptedOf]
  | x :: executed => by
    rw [List.map_cons, List.sum_cons, sum_tpmSpent executed]
    cases h : x.ok <;> simp [acceptedOf, AcquireRow.tpmSpent, Execution.row, h]

/-- The milliseconds the scripts are credited. -/
def creditedTo (executed : List Execution) : ℚ := credited Execution.creditMs executed

/-- **What is paid for is allowed.** -/
theorem allows_creditedTo {c : BucketCaps} {executed : List Execution}
    (hpaid : List.IsChain (Execution.Pays c) executed) (hsound : ∀ x ∈ executed, x.row.Sound c) :
    c.Allows (creditedTo executed) (acceptedOf executed) := by
  constructor
  · rw [← sum_rpmSpent]
    exact sum_le_of_paid (hpaid.imp fun _ _ h => h.1) (fun x hx => (hsound x hx).rpm_le)
      (fun x hx => (hsound x hx).rpm_nonneg) c.rpmCap_nonneg
  · rw [← sum_tpmSpent]
    exact sum_le_of_paid (hpaid.imp fun _ _ h => h.2) (fun x hx => (hsound x hx).tpm_le)
      (fun x hx => (hsound x hx).tpm_nonneg) c.tpmCap_nonneg

theorem mem_of_mem_window {α : Type*} {l : List α} {i j : ℕ} {x : α} (h : x ∈ window l i j) :
    x ∈ l :=
  List.mem_of_mem_take (List.mem_of_mem_drop h)

/-- In every window as in the whole log. -/
theorem FleetState.KeyLog.allows {s : FleetState} {cand : CandidateRef} {c : BucketCaps}
    (h : s.KeyLog cand c) (i j : ℕ) :
    c.Allows (creditedTo (window (s.executedFor cand) i j))
      (acceptedOf (window (s.executedFor cand) i j)) :=
  allows_creditedTo (isChain_window h.paid i j) fun x hx => h.sound x (mem_of_mem_window hx)

/-- Scripts in order: none has an older reading than the one before it, and one that finds the key
dropped was read a minute later at least. -/
def InOrder (executed : List Execution) : Prop :=
  executed.IsChain fun x x' =>
    x.readMs ≤ x'.readMs ∧ (x.atMs + 600000 ≤ x'.atMs → x.readMs + 60000 ≤ x'.readMs)

instance : DecidablePred InOrder := fun executed =>
  inferInstanceAs (Decidable (List.IsChain _ executed))

/-- The time from the least reading to the greatest. -/
def readingsSpan (executed : List Execution) : ℚ := spanMs (executed.map fun x => (x.readMs : ℚ))

/-- **Scripts in order are credited no more than their readings span.** -/
theorem InOrder.credited_le {executed : List Execution} (h : InOrder executed) :
    creditedTo executed ≤ readingsSpan executed := by
  have hcredit : executed.IsChain fun x x' => x.creditMs x' ≤ (x'.readMs : ℚ) - x.readMs := by
    refine h.imp fun x x' hx => ?_
    have hle : (0 : ℚ) ≤ x'.readMs - x.readMs := sub_nonneg.mpr (by exact_mod_cast hx.1)
    unfold Execution.creditMs
    split
    · rename_i hdue
      have hminute : (x.readMs : ℚ) + 60000 ≤ x'.readMs := by exact_mod_cast hx.2 hdue
      linarith
    · rw [Librouter.creditMs, max_eq_right hle]
      exact min_le_right _ _
  rcases executed with _ | ⟨x, executed⟩
  · simp [creditedTo, credited, readingsSpan, spanMs]
  · refine (credited_le_of_chain (fun x => (x.readMs : ℚ)) hcredit).trans ?_
    exact le_spanMs (List.mem_map_of_mem List.mem_cons_self)
      (List.mem_map_of_mem (List.getLast_mem (List.cons_ne_nil x executed)))

theorem InOrder.window {executed : List Execution} (h : InOrder executed) (i j : ℕ) :
    InOrder (TokenBucket.window executed i j) :=
  isChain_window h i j

/-! ## 6. Whole runs -/

/-- Time goes on, and the readings were made in it. -/
structure FleetState.InTime (s : FleetState) (startMs : ℤ) : Prop where
  started : startMs ≤ s.clockMs
  calls : ∀ call ∈ s.calls, ∀ x ∈ call.script, startMs ≤ x.readMs ∧ x.readMs ≤ s.clockMs
  reads : ∀ x ∈ s.reads, startMs ≤ x.readMs ∧ x.readMs ≤ s.clockMs
  executed : ∀ x ∈ s.executed, startMs ≤ x.readMs ∧ x.readMs ≤ s.clockMs

/-- Later. -/
theorem FleetState.InTime.advance {s : FleetState} {startMs now : ℤ} (h : s.InTime startMs)
    (hclock : s.clockMs ≤ now) : FleetState.InTime { s with clockMs := now } startMs where
  started := h.started.trans hclock
  calls call hcall x hx := (h.calls call hcall x hx).imp_right hclock.trans'
  reads x hx := (h.reads x hx).imp_right hclock.trans'
  executed x hx := (h.executed x hx).imp_right hclock.trans'

/-- The script of a call that goes on was read now, or else before. -/
theorem RouteTask.inTime_proceed {task : RouteTask} {startMs now : ℤ} {script : Option SentScript}
    (hstart : startMs ≤ now) (hscript : ∀ x ∈ script, startMs ≤ x.readMs ∧ x.readMs ≤ now) :
    ∀ x ∈ (task.proceed now script).script, startMs ≤ x.readMs ∧ x.readMs ≤ now := by
  intro x hx
  rcases Option.or_eq_some_iff.mp hx with hnew | ⟨-, hold⟩
  · obtain ⟨cand, -, rfl⟩ := Option.map_eq_some_iff.mp hnew
    exact ⟨hstart, le_rfl⟩
  · exact hscript x hold

theorem FleetState.inTime_boot (startMs : ℤ) : (FleetState.boot startMs).InTime startMs where
  started := le_rfl
  calls _ h := absurd h List.not_mem_nil
  reads _ h := absurd h List.not_mem_nil
  executed _ h := absurd h List.not_mem_nil

theorem FleetState.InTime.step {fleet : GatewayFleet} {s s' : FleetState} {e : FleetEvent}
    {startMs : ℤ} (h : s.InTime startMs) (hstep : fleet.step s e = some s') :
    s'.InTime startMs := by
  obtain ⟨hclock, hmoves⟩ := GatewayFleet.moves_of_step hstep
  obtain ⟨now, action⟩ := e
  obtain ⟨hstarted, hcalls, hreads, hexecuted⟩ := h.advance hclock
  cases hmoves with
  | begin req caller input =>
    refine ⟨hstarted, List.forall_mem_append.mpr ⟨hcalls, List.forall_mem_singleton.mpr ?_⟩, hreads,
      hexecuted⟩
    exact RouteTask.inTime_proceed hstarted nofun
  | @acquire i call script x m hcall hscript hexec =>
    obtain ⟨hlimits, rfl⟩ := hexec
    refine ⟨hstarted, fun call' hcall' => ?_, hreads,
      List.forall_mem_append.mpr ⟨hexecuted, List.forall_mem_singleton.mpr ?_⟩⟩
    · rcases List.mem_or_eq_of_mem_set hcall' with hold | rfl
      · exact hcalls call' hold
      · exact nofun
    · exact hcalls call (List.mem_of_getElem? hcall) script hscript
  | @resume i event call task hcall hpermits htask =>
    refine ⟨hstarted, fun call' hcall' => ?_, hreads, hexecuted⟩
    rcases List.mem_or_eq_of_mem_set hcall' with hold | rfl
    · exact hcalls call' hold
    · exact RouteTask.inTime_proceed hstarted (hcalls call (List.mem_of_getElem? hcall))
  | read cand =>
    exact ⟨hstarted, hcalls,
      List.forall_mem_append.mpr ⟨hreads, List.forall_mem_singleton.mpr ⟨hstarted, le_rfl⟩⟩,
      hexecuted⟩
  | @remaining k script x m hread hexec =>
    obtain ⟨hlimits, rfl⟩ := hexec
    exact ⟨hstarted, hcalls,
      fun script' hscript' => hreads script' (List.mem_of_mem_eraseIdx hscript'),
      List.forall_mem_append.mpr ⟨hexecuted,
        List.forall_mem_singleton.mpr (hreads script (List.mem_of_getElem? hread))⟩⟩

/-- The readings span no more than the run. -/
theorem FleetState.InTime.readingsSpan_le {s : FleetState} {startMs : ℤ} (h : s.InTime startMs)
    {executed : List Execution} (hpart : ∀ x ∈ executed, x ∈ s.executed) :
    readingsSpan executed ≤ s.clockMs - startMs := by
  have hstart : (startMs : ℚ) ≤ s.clockMs := by exact_mod_cast h.started
  have hreading : ∀ t ∈ executed.map fun x => (x.readMs : ℚ),
      (startMs : ℚ) ≤ t ∧ t ≤ s.clockMs := by
    intro t ht
    obtain ⟨x, hx, rfl⟩ := List.mem_map.mp ht
    obtain ⟨hlow, hhigh⟩ := h.executed x (hpart x hx)
    exact ⟨by exact_mod_cast hlow, by exact_mod_cast hhigh⟩
  unfold readingsSpan spanMs
  cases hmax : (executed.map fun x => (x.readMs : ℚ)).max? with
  | none =>
    rw [List.max?_eq_none_iff] at hmax
    rw [hmax]
    simpa using hstart
  | some hi =>
    cases hmin : (executed.map fun x => (x.readMs : ℚ)).min? with
    | none =>
      rw [List.min?_eq_none_iff] at hmin
      rw [hmin] at hmax
      cases hmax
    | some lo =>
      have hhi := (hreading hi (List.max?_mem hmax)).2
      have hlo := (hreading lo (List.min?_mem hmin)).1
      simp only [Option.getD_some]
      linarith

/-- The tokens of each vendor call of the candidate that was started. -/
def FleetState.startedFor (s : FleetState) (cand : CandidateRef) : List ℕ :=
  (s.started.filter fun x => x.1 = cand).map Prod.snd

/-- The calls of a candidate have acquires of their own, with the same tokens. -/
theorem FleetState.Backed.startedFor {s : FleetState} (h : s.Backed) (cand : CandidateRef) :
    (s.startedFor cand).Subperm (acceptedOf ((s.executedFor cand).filter Execution.forCall)) := by
  have hbilled : s.started.Subperm (s.admitted.map Execution.bill) :=
    List.subperm_ext_iff.mpr fun x _ => (Nat.le_add_right _ _).trans (h x)
  have hkept := hbilled.filter fun x => decide (x.1 = cand)
  rw [List.filter_map] at hkept
  obtain ⟨l, hperm, hsub⟩ := hkept
  refine ⟨l.map Prod.snd, hperm.map _, ?_⟩
  have hmapped := hsub.map Prod.snd
  have hsame : ((s.admitted.filter ((fun x => decide (x.1 = cand)) ∘ Execution.bill)).map
      Execution.bill).map Prod.snd =
        acceptedOf ((s.executedFor cand).filter Execution.forCall) := by
    rw [List.map_map, acceptedOf, FleetState.executedFor, FleetState.admitted, List.filter_filter,
      List.filter_filter, List.filter_filter]
    refine congrArg₂ List.map rfl (List.filter_congr fun x _ => ?_)
    simp only [Function.comp_apply, Execution.bill]
    rw [Bool.and_comm, Bool.and_comm x.forCall]
    rfl
  rwa [hsame] at hmapped

/-- **The calls of a vendor are throttled.**  In every run of any number of calls of `route` and
refresh tasks, the scripts of a candidate, also in any window of them, are accepted for at most a
full bucket and the refill of the time they are credited; every vendor call that was started has an
accepted script to itself, with the same tokens; so the calls of the candidate, and their tokens,
are as many at most.  If the scripts come to Redis in order, the credit is at most the time their
readings span, and so the time since the run began. -/
theorem calls_throttled (fleet : GatewayFleet) {startMs : ℤ} {es : List FleetEvent}
    {s : FleetState} (hplain : ∀ e ∈ es, e.Plain)
    (hrun : Runs.run fleet.step (.boot startMs) es = some s) {cand : CandidateRef}
    (hcand : cand.Plain) {limits : RateLimitEntry}
    (hlimits : fleet.bucket.entry cand.provider cand.model = .ok limits) :
    (∀ i j, limits.caps.Allows (creditedTo (window (s.executedFor cand) i j))
        (acceptedOf (window (s.executedFor cand) i j))) ∧
      (s.startedFor cand).Subperm (acceptedOf ((s.executedFor cand).filter Execution.forCall)) ∧
      limits.caps.Allows (creditedTo (s.executedFor cand)) (s.startedFor cand) ∧
      (InOrder (s.executedFor cand) →
        (∀ i j, limits.caps.Allows (readingsSpan (window (s.executedFor cand) i j))
          (acceptedOf (window (s.executedFor cand) i j))) ∧
        limits.caps.Allows (s.clockMs - startMs) (s.startedFor cand)) := by
  have hsound : s.Sound fleet :=
    Runs.invariant_along (fun _ e => e.Plain) (fun _ s => s.Sound fleet)
      (FleetState.sound_boot fleet startMs) (fun _ _ _ _ h he hstep => h.step he hstep) hrun
      (Runs.along_of_forall es _ hplain)
  have htime : s.InTime startMs :=
    Runs.invariant (fun _ s => s.InTime startMs) (FleetState.inTime_boot startMs)
      (fun _ _ _ _ h hstep => h.step hstep) hrun
  have hkey := hsound.keys cand limits hcand hlimits
  have hown := hsound.backed.startedFor cand
  have hcalls : limits.caps.Allows (creditedTo (s.executedFor cand)) (s.startedFor cand) := by
    refine (allows_creditedTo hkey.paid hkey.sound).of_subperm (hown.trans ?_)
    exact ((List.filter_sublist.filter _).map _).subperm
  refine ⟨hkey.allows, hown, hcalls, fun horder => ⟨fun i j => ?_, ?_⟩⟩
  · exact (hkey.allows i j).mono (horder.window i j).credited_le
  · have hspan := htime.readingsSpan_le fun x (hx : x ∈ s.executedFor cand) =>
      List.mem_of_mem_filter hx
    exact hcalls.mono (horder.credited_le.trans hspan)

/-- Two requests a minute. -/
def scarceFleet : GatewayFleet where
  router := soleRouter
  bucket := ⟨Dict.empty.set "openai/gpt-4o-mini" ⟨2, 4000, Nat.zero_lt_two, by decide⟩⟩

def scarceCand : CandidateRef := ⟨"openai", "gpt-4o-mini"⟩

/-- The candidate is picked as long as it is not excluded. -/
def scarcePick : LoopInput :=
  ⟨0, fun _ exclude => if scarceCand ∈ exclude then none else some scarceCand⟩

theorem plain_scarcePick : scarcePick.Plain := by
  intro tierCandidates exclude cand hcand
  obtain ⟨-, hsome⟩ := Option.ite_none_left_eq_some.mp hcand
  cases hsome
  decide

/-- Two calls come at once, and a refresh task reads the level, which takes a request as well. -/
def scarceEvents : List FleetEvent :=
  [⟨0, .read scarceCand⟩, ⟨0, .begin hiRequest webCaller ⟨"a", 0, scarcePick⟩⟩,
    ⟨0, .begin hiRequest webCaller ⟨"b", 0, scarcePick⟩⟩, ⟨1, .remaining 0⟩, ⟨1, .acquire 1⟩,
    ⟨2, .acquire 0⟩, ⟨3, .resume 1 (.acquired true 0 scarcePick)⟩,
    ⟨3, .resume 0 (.acquired false 0 scarcePick)⟩]

theorem plain_scarceEvents : ∀ e ∈ scarceEvents, e.Plain := by
  have hcand : scarceCand.Plain := by decide
  simp only [scarceEvents, List.forall_mem_cons, FleetEvent.Plain, RouteEvent.next?,
    Option.mem_def, Option.some.injEq, forall_eq']
  exact ⟨hcand, plain_scarcePick, plain_scarcePick, trivial, trivial, trivial, plain_scarcePick,
    plain_scarcePick, by simp⟩

/-- The promise, on that run: one of the two calls the vendor. -/
theorem calls_throttled_scarceEvents :
    ∃ s, Runs.run scarceFleet.step (.boot 0) scarceEvents = some s ∧
      s.startedFor scarceCand = [1024] ∧
      ((s.startedFor scarceCand).length : ℚ) ≤ 2 + 2 / 60000 * (s.clockMs - 0) := by
  have hrun : (Runs.run scarceFleet.step (.boot 0) scarceEvents).any (fun s =>
      s.startedFor scarceCand = [1024] ∧ InOrder (s.executedFor scarceCand)) = true := by
    decide +kernel
  obtain ⟨s, hs, hend⟩ := (Option.any_eq_true _ _).mp hrun
  obtain ⟨hstarted, horder⟩ := of_decide_eq_true hend
  have hlimits : scarceFleet.bucket.entry scarceCand.provider scarceCand.model =
      .ok ⟨2, 4000, Nat.zero_lt_two, by decide⟩ := by
    rfl
  obtain ⟨-, -, -, hin⟩ := calls_throttled scarceFleet plain_scarceEvents hs (by decide) hlimits
  obtain ⟨-, hcount, -⟩ := hin horder
  exact ⟨s, hs, hstarted, by simpa [RateLimitEntry.caps] using hcount⟩

/-- Two reads at the start, two after a minute, and then one that was sent halfway: it takes the
bucket's clock back, and the next read is credited half a minute once more. -/
def lateEvents : List FleetEvent :=
  [⟨0, .read scarceCand⟩, ⟨0, .remaining 0⟩, ⟨0, .read scarceCand⟩, ⟨0, .remaining 0⟩,
    ⟨30000, .read scarceCand⟩, ⟨60000, .read scarceCand⟩, ⟨60000, .remaining 1⟩,
    ⟨60000, .read scarceCand⟩, ⟨60000, .remaining 1⟩, ⟨60000, .remaining 0⟩,
    ⟨60000, .read scarceCand⟩, ⟨60000, .remaining 0⟩]

/-- Out of order, five requests a minute for four. -/
example : (Runs.run scarceFleet.step (.boot 0) lateEvents).any (fun s =>
    (acceptedOf (s.executedFor scarceCand)).length = 5 ∧
      readingsSpan (s.executedFor scarceCand) = 60000 ∧
      creditedTo (s.executedFor scarceCand) = 90000) = true := by
  decide +kernel

end Librouter
