/-
# Requests, the accounting queue and the `requests` table

What `chat_completions` enqueues, the drain loop writes to the table, and the daily cap check sums
up again.  `Ledger.step` runs the three together: any number of requests, each between its awaits,
the queue with its loop and its owner, and the statements the database executes.  The cap check is
two events, because between the `SUM` and the return of the await other things happen.

A batch is one `executemany`: all its rows are inserted, or none.  Its execution and the return of
`write_batch` are one event; nothing looks at the loop in between.
-/
import Librouter.App.ChatCompletions
import Librouter.Accounting.Drain

namespace Librouter

/-! ## 1. The database -/

/-- The UTC day of a point in time, in seconds since the epoch. -/
def utcDay (t : ℚ) : ℤ := ⌊t / 86400⌋

/-- `now.replace(hour=0, minute=0, second=0, microsecond=0)`. -/
def todayStart (now : ℚ) : ℚ := 86400 * utcDay now

/-- The tokens of a record. -/
def AttemptRecord.tokens (rec : AttemptRecord) : ℕ := rec.inputTokens + rec.outputTokens

/-- The tokens of the records of a caller. -/
def callerTokens (name : String) (recs : List AttemptRecord) : ℕ :=
  ((recs.filter fun rec => rec.caller = name).map AttemptRecord.tokens).sum

/-- A row of the `requests` table: `ts` and the rest. -/
structure RequestRow where
  ts : ℚ
  record : AttemptRecord

/-- A `NUMERIC` with this many digits after the point: halves are rounded away from zero. -/
def roundNumeric (places : ℕ) (x : ℚ) : ℚ :=
  if 0 ≤ x then ⌊x * 10 ^ places + 1 / 2⌋ / 10 ^ places else ⌈x * 10 ^ places - 1 / 2⌉ / 10 ^ places

/-- The column `cost_usd`, a `NUMERIC(12,6)`. -/
def RequestRow.costUsd (row : RequestRow) : ℚ := roundNumeric 6 row.record.costUsd

/-- The query of `caller_tokens_used_today`. -/
def tokensSince (rows : List RequestRow) (name : String) (since : ℚ) : ℕ :=
  callerTokens name ((rows.filter fun row => since ≤ row.ts).map RequestRow.record)

/-! ## 2. States and events -/

/-- What the requests run against. -/
structure Ledger where
  router : Router
  /-- `daily_token_cap` of the callers -/
  caps : String → Option ℕ
  /-- the database takes the row -/
  accepts : AttemptRecord → Bool

/-- A request, and its cap check. -/
structure LedgerRequest where
  chat : ChatTask
  /-- `today_start` of the cap check -/
  since : ℚ := 0
  /-- what the database has answered, while the answer is on its way -/
  answer : Option ℕ := none

/-- A successful response: when it was given, to whom, and its input and output tokens. -/
structure ServedResponse where
  time : ℚ
  caller : String
  tokens : ℕ

/-- The requests, the queue and the table. -/
structure LedgerState where
  clock : ℚ
  requests : List LedgerRequest := []
  queue : DrainState := DrainState.init 10000 200
  rows : List RequestRow := []
  /-- history: the successful responses -/
  served : List ServedResponse := []

/-- What happens next. -/
inductive LedgerAction
  /-- a request arrives -/
  | arrive (body : ChatCompletionRequest)
  /-- the database executes the query of the cap check of request `i` -/
  | sum (i : ℕ)
  /-- an await of request `i` comes back -/
  | chat (i : ℕ) (event : ChatEvent)
  /-- the loop of the queue or its owner goes on -/
  | drain (event : DrainEvent)
  /-- a batch is written -/
  | write (who : Flusher)

/-- What happens next, and when. -/
structure LedgerEvent where
  now : ℚ
  action : LedgerAction

/-! ## 3. Steps -/

/-- What an await of a request may come back with: the caller has the cap of the table, and the
answer to the cap check is the one the database gave. -/
def Ledger.permits (ledger : Ledger) (r : LedgerRequest) : ChatEvent → Bool
  | .resolved (some caller) _ => decide (caller.dailyTokenCap = ledger.caps caller.name)
  | .tokensUsed used _ => decide (r.answer = some used)
  | _ => true

/-- The response that was given between `c` and `c'`. -/
def newServed (now : ℚ) (c c' : ChatTask) : List ServedResponse :=
  match c.pc, c'.pc with
  | .routing t, .done (.ok response) =>
    [⟨now, t.caller.name, response.usage.promptTokens + response.usage.completionTokens⟩]
  | _, _ => []

/-- `enqueue` of one record after another. -/
def DrainState.enqueueAll (s : DrainState) (recs : List AttemptRecord) : DrainState :=
  recs.foldl DrainState.enqueue s

namespace Ledger

variable (ledger : Ledger)

/-- The database sums up for request `i`. -/
def stepSum (s : LedgerState) (i : ℕ) : Option LedgerState :=
  (s.requests[i]?).bind fun r =>
  match r.chat.pc, r.answer with
  | .checkingCap caller _, none =>
    some { s with requests :=
      s.requests.set i { r with answer := some (tokensSince s.rows caller.name r.since) } }
  | _, _ => none

/-- Request `i` goes on. -/
def stepChat (s : LedgerState) (now : ℚ) (i : ℕ) (event : ChatEvent) : Option LedgerState :=
  (s.requests[i]?).bind fun r =>
  if ledger.permits r event then
    (r.chat.step ledger.router event).map fun chat =>
      { s with
        requests := s.requests.set i ⟨chat, todayStart now, none⟩
        queue := s.queue.enqueueAll (chat.enqueued.drop r.chat.enqueued.length)
        served := s.served ++ newServed now r.chat chat }
  else none

/-- The queue goes on, up to the next `write_batch`. -/
def stepDrain (s : LedgerState) (event : DrainEvent) : Option LedgerState :=
  match event with
  | .enqueue _ => none
  | .settled _ _ => none
  | event => (s.queue.step event).map fun queue => { s with queue := queue }

/-- The batch of a flush is written, if the database takes every row of it. -/
def stepWrite (s : LedgerState) (now : ℚ) (who : Flusher) : Option LedgerState :=
  let batch := s.queue.batch who
  let ok := batch.all ledger.accepts
  (s.queue.step (.settled who ok)).map fun queue =>
    { s with
      queue := queue
      rows := if ok then s.rows ++ batch.map fun rec => ⟨now, rec⟩ else s.rows }

/-- What an event does, apart from the time it takes. -/
def act (s : LedgerState) (e : LedgerEvent) : Option LedgerState :=
  match e.action with
  | .arrive body => some { s with requests := s.requests ++ [{ chat := ChatTask.start body }] }
  | .sum i => stepSum s i
  | .chat i event => ledger.stepChat s e.now i event
  | .drain event => stepDrain s event
  | .write who => ledger.stepWrite s e.now who

/-- One event. -/
def step (s : LedgerState) (e : LedgerEvent) : Option LedgerState :=
  if s.clock ≤ e.now then (ledger.act s e).map fun s' => { s' with clock := e.now } else none

/-- Before the first request; the table may hold anything. -/
def boot (now : ℚ) (rows : List RequestRow) : LedgerState := { clock := now, rows := rows }

end Ledger

/-! ## 4. The transitions -/

/-- The transitions, with everything each of them changes. -/
inductive LedgerState.Moves (ledger : Ledger) (s : LedgerState) (now : ℚ) :
    LedgerAction → LedgerState → Prop
  | arrive (body : ChatCompletionRequest) :
      Moves ledger s now (.arrive body)
        { s with clock := now, requests := s.requests ++ [{ chat := ChatTask.start body }] }
  | sum {i : ℕ} {r : LedgerRequest} {caller : Caller} {cap : ℕ} (hr : s.requests[i]? = some r)
      (hpc : r.chat.pc = .checkingCap caller cap) (hnone : r.answer = none) :
      Moves ledger s now (.sum i)
        { s with
          clock := now
          requests :=
            s.requests.set i { r with answer := some (tokensSince s.rows caller.name r.since) } }
  | chat {i : ℕ} {r : LedgerRequest} {event : ChatEvent} {chat : ChatTask}
      (hr : s.requests[i]? = some r) (hpermits : ledger.permits r event = true)
      (hchat : r.chat.step ledger.router event = some chat) :
      Moves ledger s now (.chat i event)
        { s with
          clock := now
          requests := s.requests.set i ⟨chat, todayStart now, none⟩
          queue := s.queue.enqueueAll (chat.enqueued.drop r.chat.enqueued.length)
          served := s.served ++ newServed now r.chat chat }
  | drain {event : DrainEvent} {queue : DrainState} (henqueue : ∀ rec, event ≠ .enqueue rec)
      (hsettled : ∀ who ok, event ≠ .settled who ok) (hqueue : s.queue.step event = some queue) :
      Moves ledger s now (.drain event) { s with clock := now, queue := queue }
  | write {who : Flusher} {queue : DrainState} (hall : (s.queue.batch who).all ledger.accepts = true)
      (hqueue : s.queue.step (.settled who true) = some queue) :
      Moves ledger s now (.write who)
        { s with
          clock := now
          queue := queue
          rows := s.rows ++ (s.queue.batch who).map fun rec => ⟨now, rec⟩ }
  | refuse {who : Flusher} {queue : DrainState}
      (hall : (s.queue.batch who).all ledger.accepts = false)
      (hqueue : s.queue.step (.settled who false) = some queue) :
      Moves ledger s now (.write who) { s with clock := now, queue := queue }

/-- A step is one of the transitions, and takes time. -/
theorem Ledger.moves_of_step {ledger : Ledger} {s s' : LedgerState} {e : LedgerEvent}
    (h : ledger.step s e = some s') : s.clock ≤ e.now ∧ s.Moves ledger e.now e.action s' := by
  obtain ⟨hclock, h⟩ := Option.ite_none_right_eq_some.mp h
  obtain ⟨m, hact, rfl⟩ := Option.map_eq_some_iff.mp h
  refine ⟨hclock, ?_⟩
  obtain ⟨now, action⟩ := e
  cases action with
  | arrive body =>
    cases hact
    exact .arrive body
  | sum i =>
    obtain ⟨r, hr, hact⟩ := Option.bind_eq_some_iff.mp hact
    split at hact <;> cases hact
    exact .sum hr ‹_› ‹_›
  | chat i event =>
    obtain ⟨r, hr, hact⟩ := Option.bind_eq_some_iff.mp hact
    obtain ⟨hpermits, hact⟩ := Option.ite_none_right_eq_some.mp hact
    obtain ⟨chat, hchat, rfl⟩ := Option.map_eq_some_iff.mp hact
    exact .chat hr hpermits hchat
  | drain event =>
    simp only [Ledger.act, Ledger.stepDrain] at hact
    split at hact
    · cases hact
    · cases hact
    · rename_i henqueue hsettled
      obtain ⟨queue, hqueue, rfl⟩ := Option.map_eq_some_iff.mp hact
      exact .drain henqueue hsettled hqueue
  | write who =>
    obtain ⟨queue, hqueue, rfl⟩ := Option.map_eq_some_iff.mp hact
    cases hall : (s.queue.batch who).all ledger.accepts with
    | true =>
      rw [hall] at hqueue
      exact .write hall hqueue
    | false =>
      rw [hall] at hqueue
      exact .refuse hall hqueue

/-! ## 5. Records in the ledger -/

section Tokens

variable (name : String)

theorem callerTokens_append (recs recs' : List AttemptRecord) :
    callerTokens name (recs ++ recs') = callerTokens name recs + callerTokens name recs' := by
  simp [callerTokens]

theorem callerTokens_perm {recs recs' : List AttemptRecord} (h : recs.Perm recs') :
    callerTokens name recs = callerTokens name recs' :=
  ((h.filter _).map _).sum_eq

theorem callerTokens_eq_zero {recs : List AttemptRecord} (h : ∀ rec ∈ recs, rec.caller ≠ name) :
    callerTokens name recs = 0 := by
  have hnone : (recs.filter fun rec => rec.caller = name) = [] :=
    List.filter_eq_nil_iff.mpr fun rec hrec => by simpa using h rec hrec
  rw [callerTokens, hnone]
  rfl

theorem tokensSince_append (rows rows' : List RequestRow) (since : ℚ) :
    tokensSince (rows ++ rows') name since
      = tokensSince rows name since + tokensSince rows' name since := by
  rw [tokensSince, List.filter_append, List.map_append, callerTokens_append]
  rfl

/-- The rows of a batch that is written today are today's. -/
theorem tokensSince_batch {now since : ℚ} (h : since ≤ now) (batch : List AttemptRecord) :
    tokensSince (batch.map fun rec => ⟨now, rec⟩) name since = callerTokens name batch := by
  have hall : ((batch.map fun rec => RequestRow.mk now rec).filter fun row => since ≤ row.ts)
      = batch.map fun rec => RequestRow.mk now rec :=
    List.filter_eq_self.mpr fun row hrow => by
      obtain ⟨rec, -, rfl⟩ := List.mem_map.mp hrow
      exact decide_eq_true h
  rw [tokensSince, hall, List.map_map]
  exact congrArg (callerTokens name) (List.map_id _)

/-- A longer day has more tokens. -/
theorem tokensSince_anti (rows : List RequestRow) {since since' : ℚ} (h : since ≤ since') :
    tokensSince rows name since' ≤ tokensSince rows name since := by
  have hsub : (rows.filter fun row => since' ≤ row.ts).Sublist
      (rows.filter fun row => since ≤ row.ts) :=
    List.monotone_filter_right rows fun row hrow =>
      decide_eq_true (h.trans (of_decide_eq_true hrow))
  exact (((hsub.map _).filter _).map _).sum_le_sum fun _ _ => Nat.zero_le _

end Tokens

namespace DrainState

theorem enqueueAll_history (recs : List AttemptRecord) : ∀ s : DrainState,
    (s.enqueueAll recs).enqueued = s.enqueued ++ recs ∧
      (s.enqueueAll recs).written = s.written ∧ (s.enqueueAll recs).lost = s.lost := by
  induction recs with
  | nil => exact fun s => ⟨(List.append_nil _).symm, rfl, rfl⟩
  | cons rec recs ih =>
    intro s
    obtain ⟨henqueued, hwritten, hlost⟩ := ih (s.enqueue rec)
    refine ⟨henqueued.trans ?_, hwritten, hlost⟩
    exact List.append_assoc _ [rec] recs

theorem Sound.enqueueAll {capacity : ℕ} (hcap : 1 ≤ capacity) (recs : List AttemptRecord) :
    ∀ {s : DrainState}, s.Sound capacity → (s.enqueueAll recs).Sound capacity := by
  induction recs with
  | nil => exact fun h => h
  | cons rec recs ih =>
    intro s h
    have hstep : s.step (.enqueue rec) = some (s.enqueue rec) := rfl
    exact ih (h.step hcap hstep)

end DrainState

/-- What the queue has enqueued and written, after a transition of the ledger. -/
theorem LedgerState.Moves.queue {ledger : Ledger} {s s' : LedgerState} {now : ℚ}
    {action : LedgerAction} (hmoves : s.Moves ledger now action s') (h : s.queue.Sound 10000) :
    s'.queue.Sound 10000 := by
  cases hmoves with
  | arrive | sum => exact h
  | chat => exact h.enqueueAll (by decide) _
  | drain _ _ hqueue => exact h.step (by decide) hqueue
  | write _ hqueue | refuse _ hqueue => exact h.step (by decide) hqueue

end Librouter
