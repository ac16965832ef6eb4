/-
# The signals follow the traffic

`route` reports what the vendors reply to the `Observer`; a tick reads the window of each candidate
back and hands error rate and latency to the weight engine.  Other replicas do the same on the same
Redis, and requests, ticks and their awaits overlap in any way.

`App.sharedStep` is the wired app among other replicas, with one clock for all.  `signals_follow`:
every reply is counted once, in order; the signals of a cached candidate are those of the records of
one window, at an instant of the run; and once a tick is over, that instant is not before its
beginning, then and ever after.  So what a candidate did before the window is forgotten with the
first tick that ends.

A command and the reading of the clock for it are one step: the second of a record and the instant
of a window are those at which Redis executes the command.  The source reads the clock just before
the await, so a record that is on its way when a second ends belongs to the second before.
-/
import Librouter.App.Callable
import Librouter.Routing.Window

namespace Librouter

/-! ## 1. The app among other replicas -/

/-- `gw:obs:*`. -/
def isObserveKey (key : String) : Bool := "gw:obs:".toList.isPrefixOf key.toList

/-- What happens next, here or elsewhere. -/
inductive SharedEvent
  /-- this replica goes on -/
  | own (e : AppEvent)
  /-- another one records an outcome -/
  | observed (x : Observation)
  /-- another one writes to a bucket, or to a key of the breaker -/
  | wrote (now : ℚ) (key : String) (entry : RedisEntry)

/-- What is counted of a reply: for whom, and what. -/
abbrev Report := CandidateRef × ObservedOutcome

def Observation.report (x : Observation) : Report := (x.cand, x.outcome)

/-- What `route` counts a reply as. -/
def ObservedOutcome.ofReply (elapsed : ℚ) : Except ProviderError ChatResult → ObservedOutcome
  | .ok _ => .success elapsed
  | .error e => .failure e.typeName

/-- What the call waits to record. -/
def RouteTask.due (t : RouteTask) : Option Report :=
  match t.pc with
  | .recordingFailure cand e => some (cand, .failure e.typeName)
  | .recordingSuccess cand elapsed _ => some (cand, .success elapsed)
  | _ => none

/-- The reply that comes back. -/
def RouteTask.replied (t : RouteTask) (event : RouteEvent) : Option Report :=
  match t.pc, event with
  | .chatting cand t0 _, .replied reply now => some (cand, .ofReply (now - t0) reply)
  | _, _ => none

/-- What is recorded. -/
def RouteTask.recorded (t : RouteTask) : RouteEvent → Option Report
  | .recorded _ => t.due
  | _ => none

namespace ChatTask

variable (c : ChatTask)

def due : Option Report :=
  match c.pc with
  | .routing t => t.due
  | _ => none

def replied (event : ChatEvent) : Option Report :=
  match c.pc, event with
  | .routing t, .route event => t.replied event
  | _, _ => none

def recorded (event : ChatEvent) : Option Report :=
  match c.pc, event with
  | .routing t, .route event => t.recorded event
  | _, _ => none

end ChatTask

namespace App

variable (app : App)

/-- One event. -/
def sharedStep (s : AppState) : SharedEvent → Option AppState
  | .own e => app.step s e
  | .observed x =>
    if s.clock ≤ x.time then
      some { s with clock := x.time, redis := app.observer.observe s.redis x }
    else none
  | .wrote now key entry =>
    if s.clock ≤ now ∧ isObserveKey key = false then
      some { s with clock := now, redis := s.redis.set key entry }
    else none

/-- The request that goes on, and with what. -/
def chatEvent (s : AppState) (e : AppEvent) : Option (ℕ × ChatTask × ChatEvent) :=
  match e.action with
  | .request i answer => (s.requests[i]?).bind fun c =>
    (app.chatAnswer s e.now c answer).map fun a => (i, c, a.2)
  | _ => none

/-- The record of an event, and the request it is made for, if it is one of ours. -/
def noteRecord (s : AppState) : SharedEvent → List (Option ℕ × Observation)
  | .own e => ((app.chatEvent s e).bind fun (i, c, event) =>
      (c.recorded event).map fun report => (some i, ⟨e.now, report.1, report.2⟩)).toList
  | .observed x => [(none, x)]
  | .wrote _ _ _ => []

/-- The reply of an event, and the request it is for. -/
def noteReply (s : AppState) : SharedEvent → List (ℕ × Report)
  | .own e => ((app.chatEvent s e).bind fun (i, c, event) =>
      (c.replied event).map fun report => (i, report)).toList
  | _ => []

/-- What the replicas have recorded, in order. -/
def observations (s : AppState) (es : List SharedEvent) : List Observation :=
  (Runs.notes app.sharedStep app.noteRecord s es).map Prod.snd

/-- What has been recorded for request `i`. -/
def recordsOf (s : AppState) (es : List SharedEvent) (i : ℕ) : List Report :=
  ((Runs.notes app.sharedStep app.noteRecord s es).filter fun note => note.1 = some i).map
    fun note => note.2.report

/-- What the vendors have replied to request `i`. -/
def repliesOf (s : AppState) (es : List SharedEvent) (i : ℕ) : List Report :=
  ((Runs.notes app.sharedStep app.noteReply s es).filter fun note => note.1 = i).map Prod.snd

end App

/-! ## 2. Each reply is counted once -/

/-- The vendor that is called, or whose reply is recorded, is one of ours. -/
def RouteTask.Calls (router : Router) (t : RouteTask) : Prop :=
  match t.pc with
  | .chatting cand _ _ => cand.provider ∈ router.vendors
  | .recordingFailure cand _ => cand.provider ∈ router.vendors
  | .recordingSuccess cand _ _ => cand.provider ∈ router.vendors
  | _ => True

def ChatTask.Calls (router : Router) (c : ChatTask) : Prop :=
  ∀ t, c.pc = .routing t → t.Calls router

section Requests

variable {router : Router}

theorem RouteTask.due_loopTop (t : RouteTask) (input : LoopInput) :
    (router.loopTop t input).due = none ∧ (router.loopTop t input).Calls router := by
  rcases router.loopTop_cases t input with ⟨error, -, heq⟩ | ⟨cand, -, -, heq⟩ <;>
    · rw [heq]
      exact ⟨rfl, trivial⟩

theorem RouteTask.due_begin (req : ChatCompletionRequest) (caller : Caller) (requestId : String)
    (now : ℚ) (input : LoopInput) : (router.begin req caller requestId now input).due = none ∧
      (router.begin req caller requestId now input).Calls router := by
  unfold Router.begin
  dsimp only
  split
  · exact due_loopTop _ _
  · exact ⟨rfl, trivial⟩

/-- **A step of `route`**: what was due and what comes back is recorded, or due then.  If the await
raises, or no record can be made of the attempt, it is lost. -/
theorem RouteTask.due_step {t t' : RouteTask} {event : RouteEvent} (h : t.Calls router)
    (hstep : t.step router event = some t') : t'.Calls router ∧
      (t.due.toList ++ (t.replied event).toList = (t.recorded event).toList ++ t'.due.toList ∨
        (t.due.toList ++ (t.replied event).toList).length ≤ 1 ∧ t.recorded event = none ∧
          t'.pc = .finished .crashed) := by
  cases moves_of_step hstep with
  | crash hpc =>
    have hnone : t.replied .failed = none := by
      unfold replied
      split
      · rename_i heq
        cases heq
      · rfl
    refine ⟨trivial, Or.inr ⟨?_, rfl, rfl⟩⟩
    rw [hnone]
    cases t.due <;> simp
  | callUnrecorded hpc => exact ⟨trivial, Or.inr ⟨by simp [due, replied, hpc], rfl, rfl⟩⟩
  | bucketEmpty hpc | vendorMissing hpc =>
    refine ⟨(due_loopTop _ _).2, Or.inl ?_⟩
    rw [Router.failover, (due_loopTop _ _).1]
    simp [due, replied, recorded, hpc]
  | call hpc hvendor => exact ⟨hvendor, Or.inl (by simp [due, replied, recorded, hpc])⟩
  | callFailed hpc | callOk hpc =>
    rw [Calls, hpc] at h
    exact ⟨h, Or.inl (by simp [due, replied, recorded, hpc, ObservedOutcome.ofReply])⟩
  | retry hpc =>
    refine ⟨(due_loopTop _ _).2, Or.inl ?_⟩
    rw [Router.failover, (due_loopTop _ _).1]
    simp [due, replied, recorded, hpc]
  | giveUp hpc | recordFails hpc | answer hpc | noMessage hpc =>
    exact ⟨trivial, Or.inl (by simp [due, replied, recorded, hpc])⟩

/-- `proceed` takes over what is due. -/
theorem ChatTask.due_proceed (c : ChatTask) {task : RouteTask} (h : task.Calls router) :
    (c.proceed task).due = task.due ∧ (c.proceed task).Calls router := by
  constructor
  · unfold proceed
    split
    · rename_i hpc
      simp [due, RouteTask.due, hpc]
    · rfl
  · unfold proceed
    split
    · exact fun _ ht => ChatPc.noConfusion ht
    · intro t ht
      obtain rfl := ChatPc.routing.inj ht
      exact h

theorem ChatTask.due_enter (c : ChatTask) (caller : Caller) (input : RouteInput) :
    (c.enter router caller input).due = none ∧ (c.enter router caller input).Calls router := by
  obtain ⟨hdue, hcalls⟩ : (router.begin c.body caller input.requestId input.now input.next).due =
      none ∧ (router.begin c.body caller input.requestId input.now input.next).Calls router :=
    RouteTask.due_begin ..
  exact ⟨((c.due_proceed hcalls).1).trans hdue, (c.due_proceed hcalls).2⟩

/-- The same for a request. -/
theorem ChatTask.due_step {c c' : ChatTask} {event : ChatEvent} (h : c.Calls router)
    (hstep : c.step router event = some c') : c'.Calls router ∧
      (c.due.toList ++ (c.replied event).toList = (c.recorded event).toList ++ c'.due.toList ∨
        (c.due.toList ++ (c.replied event).toList).length ≤ 1 ∧ c.recorded event = none ∧
          c'.pc = .done .serverError) := by
  cases moves_of_step hstep with
  | noCaller hpc | capped hpc | exhausted hpc | resolveFails hpc | usageFails hpc =>
    refine ⟨fun _ ht => ChatPc.noConfusion ht, Or.inl ?_⟩
    simp [due, replied, recorded, hpc]
  | uncapped hpc | underCap hpc =>
    refine ⟨(due_enter _ _ _).2, Or.inl ?_⟩
    rw [(due_enter _ _ _).1]
    simp [due, replied, recorded, hpc]
  | @route task task' event hpc htask =>
    obtain ⟨hcalls, hdue⟩ := RouteTask.due_step (h task hpc) htask
    refine ⟨(c.due_proceed hcalls).2, ?_⟩
    rw [(c.due_proceed hcalls).1]
    simp only [due, replied, recorded, hpc]
    rcases hdue with hdue | ⟨hlength, hrecorded, hcrashed⟩
    · exact Or.inl hdue
    · refine Or.inr ⟨hlength, hrecorded, ?_⟩
      simp [proceed, hcrashed, RouteOutcome.reply]

theorem ChatTask.length_due (c : ChatTask) : c.due.toList.length ≤ 1 := by
  cases c.due <;> simp

theorem ChatTask.not_done_of_step {c c' : ChatTask} {event : ChatEvent}
    (hstep : c.step router event = some c') (reply : ChatReply) : c.pc ≠ .done reply := by
  intro hdone
  simp [step, hdone] at hstep

end Requests

/-! ## 3. The log in Redis -/

theorem isObserveKey_observeKey (provider model : String) (epochSec : ℤ) :
    isObserveKey (observeKey provider model epochSec) = true := by
  simp [isObserveKey, observeKey, String.toList_append]

theorem isObserveKey_bucketKey (provider model : String) :
    isObserveKey (bucketKey provider model) = false := by
  simp [isObserveKey, bucketKey, String.toList_append, List.isPrefixOf]

/-- A write elsewhere keeps the log. -/
theorem Observer.Logged.write {o : Observer} {r : Redis} {history : List Observation}
    (h : o.Logged r history) {key : String} (hkey : isObserveKey key = false) (entry : RedisEntry) :
    o.Logged (r.set key entry) history := by
  have hget : ∀ (cand : CandidateRef) (n : ℤ),
      (r.set key entry).get? (observeKey cand.provider cand.model n) =
        r.get? (observeKey cand.provider cand.model n) := by
    intro cand n
    refine Dict.get?_set_ne r entry fun heq => ?_
    rw [← heq, isObserveKey_observeKey] at hkey
    cases hkey
  constructor
  · intro cand n hcand hown
    rw [hget]
    exact h.absent cand n hcand hown
  · intro cand n xs y hcand hown
    rw [hget]
    exact h.present cand n xs y hcand hown

section Redis

variable {app : App} {s : AppState} {history : List Observation}

/-- **What an await of `route` does to the log**: what is recorded is added. -/
theorem App.logged_routeAnswer (h : app.observer.Logged s.redis history)
    (hw : 1 ≤ app.observer.windowS) {now : ℚ} {t : RouteTask} {answer : Answer} {r : Redis}
    {event : RouteEvent}
    (hnamed : ∀ report, t.due = some report → ':' ∉ report.1.provider.toList)
    (hanswer : app.routeAnswer s now t answer = some (r, event)) :
    app.observer.Logged r (history ++ ((t.recorded event).map fun report =>
      (⟨now, report.1, report.2⟩ : Observation)).toList) := by
  unfold routeAnswer at hanswer
  split at hanswer
  · split at hanswer <;> cases hanswer
    · obtain ⟨-, -, rfl, -⟩ := RedisTokenBucket.acquireAt_ok ‹_›
      simpa [RouteTask.recorded] using h.write (isObserveKey_bucketKey _ _) _
    · simpa [RouteTask.recorded] using h
  · cases hanswer
    simpa [RouteTask.recorded] using h
  · rename_i cand e draw hpc
    cases hanswer
    have hdue : t.due = some (cand, .failure e.typeName) := by simp [RouteTask.due, hpc]
    have hlogged := h.observe (x := ⟨now, cand, .failure e.typeName⟩) hw (hnamed _ hdue)
    rw [Observer.observe_failure] at hlogged
    simpa [RouteTask.recorded, hdue] using hlogged
  · rename_i cand elapsed result draw hpc
    cases hanswer
    have hdue : t.due = some (cand, .success elapsed) := by simp [RouteTask.due, hpc]
    have hlogged := h.observe (x := ⟨now, cand, .success elapsed⟩) hw (hnamed _ hdue)
    rw [Observer.observe_success] at hlogged
    simpa [RouteTask.recorded, hdue] using hlogged
  · cases hanswer
    simpa [RouteTask.recorded] using h
  · cases hanswer

/-- The same for a request. -/
theorem App.logged_chatAnswer (h : app.observer.Logged s.redis history)
    (hw : 1 ≤ app.observer.windowS) {now : ℚ} {c : ChatTask} {answer : Answer} {r : Redis}
    {event : ChatEvent} (hnamed : ∀ report, c.due = some report → ':' ∉ report.1.provider.toList)
    (hanswer : app.chatAnswer s now c answer = some (r, event)) :
    app.observer.Logged r (history ++ ((c.recorded event).map fun report =>
      (⟨now, report.1, report.2⟩ : Observation)).toList) := by
  unfold chatAnswer at hanswer
  split at hanswer
  · rename_i t hpc
    obtain ⟨⟨r', event'⟩, hroute, heq⟩ := Option.map_eq_some_iff.mp hanswer
    cases heq
    have hdue : c.due = t.due := by simp [ChatTask.due, hpc]
    have hrecorded : c.recorded (.route event') = t.recorded event' := by
      simp [ChatTask.recorded, hpc]
    rw [hdue] at hnamed
    rw [hrecorded]
    exact logged_routeAnswer h hw hnamed hroute
  all_goals cases hanswer
  all_goals simpa [ChatTask.recorded] using h

/-- A tick does not write to the log. -/
theorem RefreshTask.logged_step {o : Observer} {task : RefreshTask} {r r' : Redis} {nowS : ℚ}
    {m m' : RefreshState} (h : o.Logged r history) (hstep : task.step r nowS m = some (r', m')) :
    o.Logged r' history := by
  unfold step at hstep
  split at hstep
  · cases hstep
  · cases hstep
    exact h
  · dsimp only at hstep
    split at hstep
    · split at hstep <;> cases hstep <;> exact h
    · cases hstep
      exact h
  · cases hstep
    exact h
  · cases hstep
    exact h
  · split at hstep <;> cases hstep
    obtain ⟨-, -, rfl, -⟩ := RedisTokenBucket.remainingAt_ok ‹_›
    exact h.write (isObserveKey_bucketKey _ _) _
  · cases hstep
    exact h

end Redis

/-! ## 4. A tick -/

/-- Error rate and latency of the signals meet `P`. -/
def SignalsSay (P : CandidateRef → ℚ → ℚ → Prop) (signals : Dict CandidateRef CandidateSignals) :
    Prop :=
  ∀ cand sig, signals.get? cand = some sig → P cand sig.errorRate sig.meanLatencyS

/-- So does what the tick has found up to now. -/
def TickPc.Says (P : CandidateRef → ℚ → ℚ → Prop) : TickPc → Prop
  | .aggregating _ _ out => SignalsSay P out
  | .budgeting c agg _ out => P c.ref agg.errorRate agg.meanLatencyS ∧ SignalsSay P out
  | .stating c agg _ _ _ out => P c.ref agg.errorRate agg.meanLatencyS ∧ SignalsSay P out
  | _ => True

/-- The tick and the cache; while a tick is in progress, the cache only if it is `settled`. -/
structure RefreshState.Shows (P : CandidateRef → ℚ → ℚ → Prop) (settled : Bool) (s : RefreshState) :
    Prop where
  tick : s.pc.Says P
  cache : settled = true ∨ s.isIdle = true → SignalsSay P s.cache

section Ticks

variable {P Q : CandidateRef → ℚ → ℚ → Prop} {settled : Bool}

theorem signalsSay_empty : SignalsSay P Dict.empty := nofun

theorem SignalsSay.set {signals : Dict CandidateRef CandidateSignals} (h : SignalsSay P signals)
    {cand : CandidateRef} {sig : CandidateSignals} (hsig : P cand sig.errorRate sig.meanLatencyS) :
    SignalsSay P (signals.set cand sig) := by
  intro cand' sig' hget
  rw [Dict.get?_set] at hget
  split at hget
  · rename_i hsame
    cases hget
    exact hsame ▸ hsig
  · exact h cand' sig' hget

theorem SignalsSay.mono {signals : Dict CandidateRef CandidateSignals} (h : SignalsSay P signals)
    (hle : ∀ cand rate mean, P cand rate mean → Q cand rate mean) : SignalsSay Q signals :=
  fun cand sig hget => hle _ _ _ (h cand sig hget)

theorem TickPc.Says.mono {pc : TickPc} (h : pc.Says P)
    (hle : ∀ cand rate mean, P cand rate mean → Q cand rate mean) : pc.Says Q := by
  cases pc with
  | idle | seeding | sampling | probing => trivial
  | aggregating c pending out => exact SignalsSay.mono h hle
  | budgeting c agg pending out => exact ⟨hle _ _ _ h.1, h.2.mono hle⟩
  | stating c agg rpm tpm pending out => exact ⟨hle _ _ _ h.1, h.2.mono hle⟩

namespace RefreshState.Shows

variable {task : RefreshTask} {s s' : RefreshState}

theorem mono (h : s.Shows P settled)
    (hle : ∀ cand rate mean, P cand rate mean → Q cand rate mean) : s.Shows Q settled :=
  ⟨h.tick.mono hle, fun hcache => (h.cache hcache).mono hle⟩

/-- The cache is exchanged for what the tick has found. -/
theorem nextCandidate (hcache : settled = true → SignalsSay P s.cache)
    (pending : List RatedCandidate) {out : Dict CandidateRef CandidateSignals}
    (hout : SignalsSay P out) : (RefreshTask.nextCandidate s pending out).Shows P settled := by
  cases pending with
  | nil => exact ⟨trivial, fun _ => hout⟩
  | cons c rest =>
    refine ⟨hout, fun h => ?_⟩
    rcases h with hsettled | hidle
    · exact hcache hsettled
    · cases hidle

theorem nextSample (hcache : settled = true → SignalsSay P s.cache) (now : ℚ)
    (pending : List ((String × String) × List String)) (fresh : Snapshot) :
    (task.nextSample s now pending fresh).Shows P settled := by
  cases pending with
  | nil =>
    exact nextCandidate (s := { s with snapshot := task.breakers.transitionAfterWindow fresh now })
      hcache _ signalsSay_empty
  | cons x rest =>
    refine ⟨trivial, fun h => ?_⟩
    rcases h with hsettled | hidle
    · exact hcache hsettled
    · cases hidle

theorem start {nowS : ℚ} (h : s.Shows P settled) (hstart : RefreshTask.start nowS s = some s') :
    s'.Shows P settled := by
  unfold RefreshTask.start at hstart
  split at hstart <;> cases hstart
  refine ⟨trivial, fun hcache => ?_⟩
  rcases hcache with hsettled | hidle
  · exact h.cache (Or.inl hsettled)
  · cases hidle

theorem abort (h : s.Shows P true) (habort : RefreshTask.abort s = some s') : s'.Shows P true := by
  unfold RefreshTask.abort at habort
  split at habort <;> cases habort
  exact ⟨trivial, fun _ => h.cache (Or.inl rfl)⟩

/-- **A command of a tick**, if what `aggregate` answers meets `P`. -/
theorem step {r r' : Redis} {nowS : ℚ} (h : s.Shows P settled)
    (hobserved : ∀ c pending out, s.pc = .aggregating c pending out →
      P c.ref (task.observer.aggregate r nowS c.ref).errorRate
        (task.observer.aggregate r nowS c.ref).meanLatencyS)
    (hstep : task.step r nowS s = some (r', s')) : s'.Shows P settled := by
  have hcache : settled = true → SignalsSay P s.cache := fun hsettled => h.cache (Or.inl hsettled)
  have hbusy : ∀ pc : TickPc, RefreshState.isIdle { s with pc := pc } = false → pc.Says P →
      RefreshState.Shows P settled { s with pc := pc } := by
    intro pc hpc htold
    refine ⟨htold, fun h => hcache (h.resolve_right fun hidle => ?_)⟩
    rw [hpc] at hidle
    cases hidle
  have htick := h.tick
  unfold RefreshTask.step at hstep
  split at hstep
  · cases hstep
  · cases hstep
    exact nextSample (s := { s with snapshot := s.snapshot.seed r nowS }) hcache _ _ _
  · dsimp only at hstep
    split at hstep
    · split at hstep <;> cases hstep
      · exact hbusy _ rfl trivial
      · exact nextSample hcache _ _ _
    · cases hstep
      exact nextSample hcache _ _ _
  · cases hstep
    exact nextSample hcache _ _ _
  · rename_i c pending out hpc
    rw [hpc] at htick
    cases hstep
    exact hbusy _ rfl ⟨hobserved c pending out hpc, htick⟩
  · rename_i hpc
    rw [hpc] at htick
    split at hstep <;> cases hstep
    exact hbusy _ rfl htick
  · rename_i hpc
    rw [hpc] at htick
    cases hstep
    exact nextCandidate (s := { s with snapshot := s.snapshot.seed r nowS }) hcache _
      (htick.2.set htick.1)

end RefreshState.Shows

/-- **An event of the app**, if what `aggregate` answers meets `P`. -/
theorem App.shows_act {app : App} {s s' : AppState} {e : AppEvent} (h : s.refresh.Shows P settled)
    (hwired : app.Wired s) (hfails : e.action = .tickFails → settled = true)
    (hobserved : ∀ cand, app.Callable cand →
      P cand (app.observer.aggregate s.redis e.now cand).errorRate
        (app.observer.aggregate s.redis e.now cand).meanLatencyS)
    (hact : app.act s e = some s') : s'.refresh.Shows P settled := by
  unfold act at hact
  split at hact
  · obtain ⟨refresh, hstart, rfl⟩ := Option.map_eq_some_iff.mp hact
    exact h.start hstart
  · obtain ⟨⟨r, refresh⟩, hrefresh, rfl⟩ := Option.map_eq_some_iff.mp hact
    refine h.step (fun c pending out hpc => ?_) hrefresh
    have htick := hwired.refresh.tick
    rw [hpc] at htick
    exact hobserved c.ref htick.1
  · rename_i htickFails
    obtain rfl := hfails htickFails
    obtain ⟨-, hact⟩ := Option.ite_none_right_eq_some.mp hact
    obtain ⟨refresh, habort, rfl⟩ := Option.map_eq_some_iff.mp hact
    exact h.abort habort
  · obtain ⟨-, hact⟩ := Option.ite_none_right_eq_some.mp hact
    cases hact
    exact h
  · obtain ⟨c, -, hact⟩ := Option.bind_eq_some_iff.mp hact
    obtain ⟨a, -, hact⟩ := Option.bind_eq_some_iff.mp hact
    obtain ⟨c', -, rfl⟩ := Option.map_eq_some_iff.mp hact
    exact h

end Ticks

/-! ## 5. Runs -/

/-- The error rate of some records. -/
def failureShare (window : List Observation) : ℚ :=
  if window = [] then 0 else (window.countP fun x => !x.outcome.isSuccess : ℚ) / window.length

/-- The mean of their latencies, in seconds. -/
def meanSuccessS (window : List Observation) : ℚ :=
  if window.countP (fun x => x.outcome.isSuccess) = 0 then 0
  else (((window.filter fun x => x.outcome.isSuccess).map fun x => x.outcome.latencyMs).sum : ℤ) /
    (window.countP (fun x => x.outcome.isSuccess) : ℚ) / 1000

/-- Records of other replicas are of candidates whose names can be told apart. -/
def SharedEvent.Named : SharedEvent → Prop
  | .observed x => x.Named
  | _ => True

def SharedEvent.time : SharedEvent → ℚ
  | .own e => e.now
  | .observed x => x.time
  | .wrote now _ _ => now

namespace App

/-- At an instant of the run between `since` and `now`, the records in the window up to then have
this error rate and this latency. -/
def Seen (app : App) (s₀ : AppState) (es : List SharedEvent) (since now : ℚ) (cand : CandidateRef)
    (errorRate meanLatencyS : ℚ) : Prop :=
  ∃ before rest n, es = before ++ rest ∧ (∀ e ∈ before, e.time ≤ n) ∧ (∀ e ∈ rest, n ≤ e.time) ∧
    since ≤ n ∧ n ≤ now ∧
      let window := app.observer.inWindow (app.observations s₀ before) n cand
      errorRate = failureShare window ∧ meanLatencyS = meanSuccessS window

/-- Every reply to request `i` is counted once, in order; the last one may wait for it, or be lost
with the request. -/
def CountedOnce (app : App) (s₀ : AppState) (es : List SharedEvent) (s : AppState) (i : ℕ) : Prop :=
  ∃ rest, app.repliesOf s₀ es i = app.recordsOf s₀ es i ++ rest ∧ rest.length ≤ 1 ∧
    (rest = ((s.requests[i]?).bind ChatTask.due).toList ∨
      (s.requests[i]?).map ChatTask.pc = some (.done .serverError))

/-- What every event keeps. -/
structure Follows (app : App) (s₀ : AppState) (es : List SharedEvent) (s : AppState) : Prop where
  ran : Runs.run app.sharedStep s₀ es = some s
  past : ∀ e ∈ es, e.time ≤ s.clock
  wired : app.Wired s
  calls : ∀ c ∈ s.requests, c.Calls app.router
  logged : app.observer.Logged s.redis (app.observations s₀ es)
  counted : ∀ i, app.CountedOnce s₀ es s i

variable {app : App} {s₀ s s' : AppState} {es : List SharedEvent}

theorem Seen.concat {since now rate mean : ℚ} {cand : CandidateRef}
    (h : app.Seen s₀ es since now cand rate mean) {e : SharedEvent} (hnow : now ≤ e.time) :
    app.Seen s₀ (es ++ [e]) since e.time cand rate mean := by
  obtain ⟨before, rest, n, rfl, hbefore, hrest, hsince, hn, htold⟩ := h
  refine ⟨before, rest ++ [e], n, List.append_assoc .., hbefore, fun e' he' => ?_, hsince,
    hn.trans hnow, htold⟩
  rcases List.mem_append.mp he' with he' | he'
  · exact hrest e' he'
  · rw [List.mem_singleton.mp he']
    exact hn.trans hnow

theorem observations_concat (hrun : Runs.run app.sharedStep s₀ es = some s) (e : SharedEvent) :
    app.observations s₀ (es ++ [e]) =
      app.observations s₀ es ++ (app.noteRecord s e).map Prod.snd := by
  rw [observations, Runs.notes_concat hrun, List.map_append, observations]

theorem recordsOf_concat (hrun : Runs.run app.sharedStep s₀ es = some s) (e : SharedEvent) (i : ℕ) :
    app.recordsOf s₀ (es ++ [e]) i = app.recordsOf s₀ es i ++
      ((app.noteRecord s e).filter fun note => note.1 = some i).map fun note => note.2.report := by
  rw [recordsOf, Runs.notes_concat hrun, List.filter_append, List.map_append, recordsOf]

theorem repliesOf_concat (hrun : Runs.run app.sharedStep s₀ es = some s) (e : SharedEvent) (i : ℕ) :
    app.repliesOf s₀ (es ++ [e]) i = app.repliesOf s₀ es i ++
      ((app.noteReply s e).filter fun note => note.1 = i).map Prod.snd := by
  rw [repliesOf, Runs.notes_concat hrun, List.filter_append, List.map_append, repliesOf]

/-- Time goes on. -/
theorem clock_sharedStep {e : SharedEvent} (hstep : app.sharedStep s e = some s') :
    s.clock ≤ e.time ∧ s'.clock = e.time := by
  cases e with
  | own e =>
    obtain ⟨hclock, hstep⟩ := Option.ite_none_right_eq_some.mp hstep
    obtain ⟨m, -, rfl⟩ := Option.map_eq_some_iff.mp hstep
    exact ⟨hclock, rfl⟩
  | observed x =>
    obtain ⟨hclock, hstep⟩ := Option.ite_none_right_eq_some.mp hstep
    cases hstep
    exact ⟨hclock, rfl⟩
  | wrote now key entry =>
    obtain ⟨⟨hclock, -⟩, hstep⟩ := Option.ite_none_right_eq_some.mp hstep
    cases hstep
    exact ⟨hclock, rfl⟩

/-- **What `aggregate` answers** now is what the run has recorded in the window. -/
theorem Follows.seen (h : app.Follows s₀ es s) (hnames : ∀ v ∈ app.vendors, ':' ∉ v.toList)
    {now since : ℚ} (hclock : s.clock ≤ now) (hsince : since ≤ now) {cand : CandidateRef}
    (hcand : app.Callable cand) :
    app.Seen s₀ es since now cand (app.observer.aggregate s.redis now cand).errorRate
      (app.observer.aggregate s.redis now cand).meanLatencyS := by
  have hexact := h.logged.aggregateExact app.cfg.routing.healthWindowS_pos
    (hnames _ hcand.vendor) now
  exact ⟨es, [], now, (List.append_nil es).symm, fun e he => (h.past e he).trans hclock, nofun,
    hsince, le_rfl, hexact.errorRate, hexact.meanLatencyS⟩

/-- Nothing is noted of request `i`, and it does not move. -/
theorem CountedOnce.concat_of_quiet {e : SharedEvent}
    (hrun : Runs.run app.sharedStep s₀ es = some s) {i : ℕ} (h : app.CountedOnce s₀ es s i)
    (hrecord : ∀ note ∈ app.noteRecord s e, note.1 ≠ some i)
    (hreply : ∀ note ∈ app.noteReply s e, note.1 ≠ i)
    (hsame : s'.requests[i]? = s.requests[i]? ∨
      s.requests[i]? = none ∧ ((s'.requests[i]?).bind ChatTask.due) = none) :
    app.CountedOnce s₀ (es ++ [e]) s' i := by
  obtain ⟨rest, hrest, hlength, hdue⟩ := h
  refine ⟨rest, ?_, hlength, ?_⟩
  · have hnoRecord : (app.noteRecord s e).filter (fun note => note.1 = some i) = [] :=
      List.filter_eq_nil_iff.mpr fun note hnote => by simpa using hrecord note hnote
    have hnoReply : (app.noteReply s e).filter (fun note => note.1 = i) = [] :=
      List.filter_eq_nil_iff.mpr fun note hnote => by simpa using hreply note hnote
    rw [repliesOf_concat hrun, recordsOf_concat hrun, hnoRecord, hnoReply]
    simpa using hrest
  · rcases hsame with hsame | ⟨hnone, hnoDue⟩
    · rwa [hsame]
    · rw [hnone] at hdue
      rw [hnoDue]
      exact hdue.imp_right fun hdone => by simp at hdone

/-- What is noted when request `i` goes on. -/
theorem notes_of_chatEvent {e : AppEvent} {i : ℕ} {c : ChatTask} {event : ChatEvent}
    (h : app.chatEvent s e = some (i, c, event)) :
    app.noteRecord s (.own e) = ((c.recorded event).map fun report =>
        (some i, (⟨e.now, report.1, report.2⟩ : Observation))).toList ∧
      app.noteReply s (.own e) = ((c.replied event).map fun report => (i, report)).toList := by
  rw [noteRecord, noteReply, h]
  exact ⟨rfl, rfl⟩

/-- Nothing is noted when no request goes on. -/
theorem notes_of_no_chatEvent {e : AppEvent} (h : app.chatEvent s e = none) :
    app.noteRecord s (.own e) = [] ∧ app.noteReply s (.own e) = [] := by
  rw [noteRecord, noteReply, h]
  exact ⟨rfl, rfl⟩

/-- **A request goes on**: its reply becomes due, or what was due is recorded. -/
theorem CountedOnce.concat_of_request {e : AppEvent} {j : ℕ} {c c' : ChatTask} {event : ChatEvent}
    (hrun : Runs.run app.sharedStep s₀ es = some s) {i : ℕ} (h : app.CountedOnce s₀ es s i)
    (hevent : app.chatEvent s e = some (j, c, event)) (hc : s.requests[j]? = some c)
    (hcalls : c.Calls app.router) (hstep : c.step app.router event = some c')
    (hrequests : s'.requests = s.requests.set j c') :
    app.CountedOnce s₀ (es ++ [.own e]) s' i := by
  obtain ⟨hrecord, hreply⟩ := notes_of_chatEvent hevent
  by_cases hij : j = i
  · subst hij
    have hc' : s'.requests[j]? = some c' := by
      rw [hrequests, List.getElem?_set_self (List.getElem?_eq_some_iff.mp hc).1]
    obtain ⟨rest, hrest, -, hdue⟩ := h
    -- a request that goes on is not over
    rw [hc] at hdue
    have hdue : rest = c.due.toList := hdue.resolve_right fun hdone =>
      c.not_done_of_step hstep _ (Option.some.inj hdone)
    have hrecords : app.recordsOf s₀ (es ++ [.own e]) j =
        app.recordsOf s₀ es j ++ (c.recorded event).toList := by
      rw [recordsOf_concat hrun, hrecord]
      cases c.recorded event <;> simp [Observation.report]
    have hreplies : app.repliesOf s₀ (es ++ [.own e]) j =
        app.repliesOf s₀ es j ++ (c.replied event).toList := by
      rw [repliesOf_concat hrun, hreply]
      cases c.replied event <;> simp
    rcases (ChatTask.due_step hcalls hstep).2 with hflow | ⟨hlength, hnoRecord, hdone⟩
    · refine ⟨c'.due.toList, ?_, c'.length_due, Or.inl (by rw [hc']; rfl)⟩
      rw [hreplies, hrecords, hrest, hdue, List.append_assoc, List.append_assoc, hflow]
    · refine ⟨rest ++ (c.replied event).toList, ?_, hdue ▸ hlength,
        Or.inr (by rw [hc', Option.map_some, hdone])⟩
      rw [hreplies, hrecords, hnoRecord, hrest, Option.toList_none, List.append_nil,
        List.append_assoc]
  · refine h.concat_of_quiet hrun ?_ ?_ (Or.inl (by rw [hrequests, List.getElem?_set_ne hij]))
    · rw [hrecord]
      cases c.recorded event <;> simp [hij]
    · rw [hreply]
      cases c.replied event <;> simp [hij]

/-- The candidate of a report that is due is one of ours. -/
theorem vendor_of_due {router : Router} {c : ChatTask} (h : c.Calls router) {report : Report}
    (hdue : c.due = some report) : report.1.provider ∈ router.vendors := by
  unfold ChatTask.due at hdue
  split at hdue
  · rename_i t hpc
    have hcalls := h t hpc
    unfold RouteTask.Calls at hcalls
    unfold RouteTask.due at hdue
    split at hdue
    · rename_i hrecording
      cases hdue
      rwa [hrecording] at hcalls
    · rename_i hrecording
      cases hdue
      rwa [hrecording] at hcalls
    · cases hdue
  · cases hdue

namespace Follows

theorem past_concat (h : app.Follows s₀ es s) {e : SharedEvent}
    (hstep : app.sharedStep s e = some s') : ∀ e' ∈ es ++ [e], e'.time ≤ s'.clock := by
  obtain ⟨hclock, hclock'⟩ := clock_sharedStep hstep
  rw [hclock', List.forall_mem_append, List.forall_mem_singleton]
  exact ⟨fun e' he' => (h.past e' he').trans hclock, le_rfl⟩

/-- Events of other replicas, and those of a tick, do not move the requests. -/
theorem concat_of_quiet {e : SharedEvent} (h : app.Follows s₀ es s)
    (hstep : app.sharedStep s e = some s') (hwired : app.Wired s')
    (hlogged : app.observer.Logged s'.redis
      (app.observations s₀ es ++ (app.noteRecord s e).map Prod.snd))
    (hrecord : ∀ note ∈ app.noteRecord s e, note.1 = none) (hreply : app.noteReply s e = [])
    (hrequests : s'.requests = s.requests) : app.Follows s₀ (es ++ [e]) s' where
  ran := Runs.run_concat_iff.mpr ⟨s, h.ran, hstep⟩
  past := h.past_concat hstep
  wired := hwired
  calls := hrequests ▸ h.calls
  logged := by rwa [observations_concat h.ran]
  counted i := by
    refine (h.counted i).concat_of_quiet h.ran (fun note hnote => ?_) (by simp [hreply])
      (Or.inl (by rw [hrequests]))
    rw [hrecord note hnote]
    exact nofun

/-- A request of ours goes on. -/
theorem concat_of_request (h : app.Follows s₀ es s) (hnames : ∀ v ∈ app.vendors, ':' ∉ v.toList)
    {now : ℚ} {i : ℕ} {answer : Answer} {m : AppState}
    (hstep : app.sharedStep s (.own ⟨now, .request i answer⟩) = some s')
    (hm : app.stepRequest s now i answer = some m) (hs' : s' = { m with clock := now })
    (hwired : app.Wired s') : app.Follows s₀ (es ++ [.own ⟨now, .request i answer⟩]) s' := by
  obtain ⟨c, hc, hm⟩ := Option.bind_eq_some_iff.mp hm
  obtain ⟨⟨r, event⟩, hanswer, hm⟩ := Option.bind_eq_some_iff.mp hm
  obtain ⟨c', hchat, rfl⟩ := Option.map_eq_some_iff.mp hm
  subst hs'
  have hevent : app.chatEvent s ⟨now, .request i answer⟩ = some (i, c, event) := by
    simp [chatEvent, hc, hanswer]
  have hcalls := h.calls c (List.mem_of_getElem? hc)
  have hnamed : ∀ report, c.due = some report → ':' ∉ report.1.provider.toList :=
    fun report hdue => hnames _ (vendor_of_due hcalls hdue)
  refine ⟨Runs.run_concat_iff.mpr ⟨s, h.ran, hstep⟩, h.past_concat hstep, hwired,
    fun d hd => ?_, ?_, fun j => (h.counted j).concat_of_request h.ran hevent hc hcalls hchat rfl⟩
  · rcases List.mem_or_eq_of_mem_set hd with hd | rfl
    · exact h.calls d hd
    · exact (ChatTask.due_step hcalls hchat).1
  · rw [observations_concat h.ran, (notes_of_chatEvent hevent).1]
    have hlogged := logged_chatAnswer h.logged app.cfg.routing.healthWindowS_pos hnamed hanswer
    cases hrecorded : c.recorded event with
    | none => simpa [hrecorded] using hlogged
    | some report => simpa [hrecorded] using hlogged

/-- A request arrives. -/
theorem concat_of_arrival (h : app.Follows s₀ es s) {now : ℚ} {body : ChatCompletionRequest}
    (hstep : app.sharedStep s (.own ⟨now, .arrive body⟩) = some s') (hwired : app.Wired s')
    (hredis : s'.redis = s.redis) (hrequests : s'.requests = s.requests ++ [ChatTask.start body]) :
    app.Follows s₀ (es ++ [.own ⟨now, .arrive body⟩]) s' := by
  obtain ⟨hrecord, hreply⟩ : app.noteRecord s (.own ⟨now, .arrive body⟩) = [] ∧
      app.noteReply s (.own ⟨now, .arrive body⟩) = [] := notes_of_no_chatEvent rfl
  refine ⟨Runs.run_concat_iff.mpr ⟨s, h.ran, hstep⟩, h.past_concat hstep, hwired, ?_, ?_,
    fun i => ?_⟩
  · rw [hrequests, List.forall_mem_append, List.forall_mem_singleton]
    exact ⟨h.calls, fun _ ht => ChatPc.noConfusion ht⟩
  · rw [observations_concat h.ran, hrecord, List.map_nil, List.append_nil, hredis]
    exact h.logged
  · refine (h.counted i).concat_of_quiet h.ran (by simp [hrecord]) (by simp [hreply]) ?_
    rw [hrequests]
    rcases lt_or_ge i s.requests.length with hlt | hge
    · exact Or.inl (List.getElem?_append_left hlt)
    · refine Or.inr ⟨List.getElem?_eq_none hge, ?_⟩
      rw [List.getElem?_append_right hge]
      cases hk : i - s.requests.length with
      | zero => rfl
      | succ k => rfl

/-- **Every event keeps the log, the counts and the wiring.** -/
theorem step {e : SharedEvent} (h : app.Follows s₀ es s)
    (hnames : ∀ v ∈ app.vendors, ':' ∉ v.toList) (he : e.Named)
    (hstep : app.sharedStep s e = some s') : app.Follows s₀ (es ++ [e]) s' := by
  cases e with
  | observed x =>
    obtain ⟨-, hs'⟩ := Option.ite_none_right_eq_some.mp hstep
    cases hs'
    refine h.concat_of_quiet hstep ⟨h.wired.refresh, h.wired.requests⟩ ?_ ?_ rfl rfl
    · exact h.logged.observe app.cfg.routing.healthWindowS_pos he
    · intro note hnote
      obtain rfl := List.mem_singleton.mp hnote
      rfl
  | wrote now key entry =>
    obtain ⟨⟨-, hkey⟩, hs'⟩ := Option.ite_none_right_eq_some.mp hstep
    cases hs'
    refine h.concat_of_quiet hstep ⟨h.wired.refresh, h.wired.requests⟩ ?_ nofun rfl rfl
    simpa [noteRecord] using h.logged.write hkey entry
  | own e =>
    have hwired : app.Wired s' := h.wired.step hstep
    obtain ⟨now, action⟩ := e
    obtain ⟨-, hs'⟩ := Option.ite_none_right_eq_some.mp hstep
    obtain ⟨m, hact, rfl⟩ := Option.map_eq_some_iff.mp hs'
    cases action with
    | tick =>
      obtain ⟨refresh, -, rfl⟩ := Option.map_eq_some_iff.mp hact
      exact h.concat_of_quiet hstep hwired (by simpa [noteRecord, chatEvent] using h.logged)
        nofun rfl rfl
    | tickStep =>
      obtain ⟨⟨r, refresh⟩, hrefresh, rfl⟩ := Option.map_eq_some_iff.mp hact
      have hlogged := RefreshTask.logged_step h.logged hrefresh
      exact h.concat_of_quiet hstep hwired (by simpa [noteRecord, chatEvent] using hlogged)
        nofun rfl rfl
    | tickFails =>
      obtain ⟨-, hact⟩ := Option.ite_none_right_eq_some.mp hact
      obtain ⟨refresh, -, rfl⟩ := Option.map_eq_some_iff.mp hact
      exact h.concat_of_quiet hstep hwired (by simpa [noteRecord, chatEvent] using h.logged)
        nofun rfl rfl
    | arrive body =>
      obtain ⟨-, hact⟩ := Option.ite_none_right_eq_some.mp hact
      cases hact
      exact h.concat_of_arrival hstep hwired rfl rfl
    | request i answer => exact h.concat_of_request hnames hstep hact rfl hwired

/-- Before the first event. -/
theorem boot {redis : Redis} (hredis : redis.NoObservations) (start : ℚ) :
    app.Follows (App.boot redis start) [] (App.boot redis start) where
  ran := rfl
  past := nofun
  wired := ⟨⟨signalsWithin_empty, trivial⟩, fun _ hc => absurd hc List.not_mem_nil⟩
  calls := fun _ hc => absurd hc List.not_mem_nil
  logged := Observer.logged_boot hredis
  counted _ := ⟨[], rfl, Nat.zero_le _, Or.inl rfl⟩

/-- The signals too, if they are what the run has shown since some instant. -/
theorem shows_step {e : SharedEvent} (h : app.Follows s₀ es s)
    (hnames : ∀ v ∈ app.vendors, ':' ∉ v.toList) {since : ℚ} (hsince : since ≤ s.clock)
    {settled : Bool} (hfails : ∀ now, e = .own ⟨now, .tickFails⟩ → settled = true)
    (hshows : s.refresh.Shows (app.Seen s₀ es since s.clock) settled)
    (hstep : app.sharedStep s e = some s') :
    s'.refresh.Shows (app.Seen s₀ (es ++ [e]) since s'.clock) settled := by
  obtain ⟨hclock, hclock'⟩ := clock_sharedStep hstep
  rw [hclock']
  have hshows : s.refresh.Shows (app.Seen s₀ (es ++ [e]) since e.time) settled :=
    hshows.mono fun cand rate mean hseen => hseen.concat hclock
  cases e with
  | observed x =>
    obtain ⟨-, hs'⟩ := Option.ite_none_right_eq_some.mp hstep
    cases hs'
    exact hshows
  | wrote now key entry =>
    obtain ⟨-, hs'⟩ := Option.ite_none_right_eq_some.mp hstep
    cases hs'
    exact hshows
  | own e =>
    obtain ⟨now, action⟩ := e
    obtain ⟨-, hs'⟩ := Option.ite_none_right_eq_some.mp hstep
    obtain ⟨m, hact, rfl⟩ := Option.map_eq_some_iff.mp hs'
    show m.refresh.Shows _ settled
    refine shows_act hshows h.wired (fun haction => ?_) (fun cand hcand => ?_) hact
    · obtain rfl : action = .tickFails := haction
      exact hfails now rfl
    · exact (h.seen hnames hclock (hsince.trans hclock) hcand).concat le_rfl

/-- **The run rule.** -/
theorem shows_run {past later : List SharedEvent} (h : app.Follows s₀ past s)
    (hnames : ∀ v ∈ app.vendors, ':' ∉ v.toList) (hnamed : ∀ e ∈ later, e.Named) {since : ℚ}
    (hsince : since ≤ s.clock) {settled : Bool}
    (hfails : ∀ now, .own ⟨now, .tickFails⟩ ∈ later → settled = true)
    (hshows : s.refresh.Shows (app.Seen s₀ past since s.clock) settled)
    (hrun : Runs.run app.sharedStep s later = some s') :
    app.Follows s₀ (past ++ later) s' ∧ since ≤ s'.clock ∧
      s'.refresh.Shows (app.Seen s₀ (past ++ later) since s'.clock) settled := by
  refine Runs.invariant_along_from
    (fun _ e => e.Named ∧ ∀ now, e = .own ⟨now, .tickFails⟩ → settled = true)
    (fun es s => app.Follows s₀ es s ∧ since ≤ s.clock ∧
      s.refresh.Shows (app.Seen s₀ es since s.clock) settled) ?_ hrun
    (Runs.along_of_forall later s fun e he =>
      ⟨hnamed e he, fun now hnow => hfails now (hnow ▸ he)⟩) ⟨h, hsince, hshows⟩
  rintro es m e m' ⟨hm, hsince, hshows⟩ ⟨he, hfails⟩ hstep
  obtain ⟨hclock, hclock'⟩ := clock_sharedStep hstep
  exact ⟨hm.step hnames he hstep, hclock' ▸ hsince.trans hclock,
    hm.shows_step hnames hsince hfails hshows hstep⟩

end Follows

/-! ## 6. The signals follow the traffic -/

/-- Without failures since `int(now) - window_s`, the error rate is zero; without successes, so is
the latency. -/
theorem Seen.recovered {since now rate mean : ℚ} {cand : CandidateRef}
    (h : app.Seen s₀ es since now cand rate mean) (hrun : Runs.run app.sharedStep s₀ es = some s)
    (success : Bool) (hpast : ∀ x ∈ app.observations s₀ es, x.cand = cand →
      x.outcome.isSuccess = success → x.second < toInt since - app.observer.windowS) :
    (success = false → rate = 0) ∧ (success = true → mean = 0) := by
  obtain ⟨before, rest, n, rfl, -, -, hsince, -, rfl, rfl⟩ := h
  obtain ⟨m, hm, -⟩ := Runs.run_append_iff.mp hrun
  have hnone : ∀ x ∈ app.observer.inWindow (app.observations s₀ before) n cand,
      x.outcome.isSuccess ≠ success := by
    intro x hx hsuccess
    obtain ⟨hx, hwindow⟩ := List.mem_filter.mp hx
    obtain ⟨hcand, hlow, -⟩ := of_decide_eq_true hwindow
    have hmem : x ∈ app.observations s₀ (before ++ rest) := by
      rw [observations, Runs.notes_append hm, List.map_append]
      exact List.mem_append_left _ hx
    have hlate := hpast x hmem hcand hsuccess
    have hmono := toInt_mono hsince
    omega
  constructor
  · rintro rfl
    have hcount : (app.observer.inWindow (app.observations s₀ before) n cand).countP
        (fun x => !x.outcome.isSuccess) = 0 :=
      List.countP_eq_zero.mpr fun x hx => by simpa using hnone x hx
    simp [failureShare, hcount]
  · rintro rfl
    have hcount : (app.observer.inWindow (app.observations s₀ before) n cand).countP
        (fun x => x.outcome.isSuccess) = 0 :=
      List.countP_eq_zero.mpr fun x hx => hnone x hx
    rw [meanSuccessS, if_pos hcount]

/-- A tick that began at `now`, after `past`, is over after `during`. -/
structure TickOver (app : App) (s₀ : AppState) (past : List SharedEvent) (now : ℚ)
    (during : List SharedEvent) : Prop where
  succeeds : ∀ t, .own ⟨t, .tickFails⟩ ∉ during
  idle : ∀ m, Runs.run app.sharedStep s₀ (past ++ .own ⟨now, .tick⟩ :: during) = some m →
    m.refresh.isIdle = true

/-- What the weight engine goes by. -/
structure SignalsFollow (app : App) (s₀ : AppState) (es : List SharedEvent) (s : AppState) :
    Prop where
  counted : ∀ i, app.CountedOnce s₀ es s i
  /-- the signals are those of a window of the run -/
  seen : ∀ cand sig, s.refresh.cache.get? cand = some sig →
    app.Seen s₀ es s₀.clock s.clock cand sig.errorRate sig.meanLatencyS
  /-- of one since the beginning of any tick that is over -/
  fresh : ∀ past now during later, es = past ++ .own ⟨now, .tick⟩ :: (during ++ later) →
    app.TickOver s₀ past now during → ∀ cand sig, s.refresh.cache.get? cand = some sig →
      app.Seen s₀ es now s.clock cand sig.errorRate sig.meanLatencyS ∧
        -- so what was before its window is forgotten
        ((∀ x ∈ app.observations s₀ es, x.cand = cand → x.outcome.isSuccess = false →
          x.second < toInt now - app.observer.windowS) → sig.errorRate = 0) ∧
        ((∀ x ∈ app.observations s₀ es, x.cand = cand → x.outcome.isSuccess = true →
          x.second < toInt now - app.observer.windowS) → sig.meanLatencyS = 0)

/-- After `tick()` is called nothing has been found yet. -/
theorem shows_tick {P : CandidateRef → ℚ → ℚ → Prop} {now : ℚ}
    (hstep : app.sharedStep s (.own ⟨now, .tick⟩) = some s') : s'.refresh.Shows P false := by
  obtain ⟨-, hs'⟩ := Option.ite_none_right_eq_some.mp hstep
  obtain ⟨m, hact, rfl⟩ := Option.map_eq_some_iff.mp hs'
  obtain ⟨refresh, hstart, rfl⟩ := Option.map_eq_some_iff.mp hact
  unfold RefreshTask.start at hstart
  split at hstart <;> cases hstart
  exact ⟨trivial, by simp [RefreshState.isIdle]⟩

namespace Follows

/-- **The run rule from boot.** -/
theorem of_boot (hnames : ∀ v ∈ app.vendors, ':' ∉ v.toList) {redis : Redis}
    (hredis : redis.NoObservations) {start : ℚ} (hes : ∀ e ∈ es, e.Named)
    (hrun : Runs.run app.sharedStep (App.boot redis start) es = some s) :
    app.Follows (App.boot redis start) es s ∧
      s.refresh.Shows (app.Seen (App.boot redis start) es start s.clock) true := by
  have hboot : app.Follows (App.boot redis start) [] (App.boot redis start) := .boot hredis start
  obtain ⟨hfollows, -, hshows⟩ := hboot.shows_run hnames hes le_rfl (fun _ _ => rfl)
    ⟨trivial, fun _ => signalsSay_empty⟩ hrun
  exact ⟨hfollows, hshows⟩

/-- After a tick that is over, the signals are those of a window since its beginning. -/
theorem seen_since_tick {past during later : List SharedEvent} {now : ℚ}
    (h : app.Follows s₀ past s) (hnames : ∀ v ∈ app.vendors, ':' ∉ v.toList)
    (hes : ∀ e ∈ .own ⟨now, .tick⟩ :: (during ++ later), e.Named)
    (hover : app.TickOver s₀ past now during)
    (hrun : Runs.run app.sharedStep s (.own ⟨now, .tick⟩ :: (during ++ later)) = some s')
    {cand : CandidateRef} {sig : CandidateSignals} (hsig : s'.refresh.cache.get? cand = some sig) :
    app.Seen s₀ (past ++ .own ⟨now, .tick⟩ :: (during ++ later)) now s'.clock cand sig.errorRate
      sig.meanLatencyS := by
  simp only [List.forall_mem_append, List.forall_mem_cons] at hes
  obtain ⟨htick, hduring, hlater⟩ := hes
  obtain ⟨m₁, hstep, hrest⟩ := Runs.run_cons_iff.mp hrun
  obtain ⟨m₂, hm₂, hrest⟩ := Runs.run_append_iff.mp hrest
  have h₁ := h.step hnames htick hstep
  -- the tick: up to its end the cache is that of before
  obtain ⟨h₂, hnow, hshows⟩ := h₁.shows_run hnames hduring (clock_sharedStep hstep).2.ge
    (fun t ht => absurd ht (hover.succeeds t)) (shows_tick hstep) hm₂
  have hidle := hover.idle m₂ (Runs.run_append_iff.mpr
    ⟨s, h.ran, Runs.run_cons_iff.mpr ⟨m₁, hstep, hm₂⟩⟩)
  -- and then for good
  have hsettled : m₂.refresh.Shows
      (app.Seen s₀ ((past ++ [.own ⟨now, .tick⟩]) ++ during) now m₂.clock) true :=
    ⟨hshows.tick, fun _ => hshows.cache (Or.inr hidle)⟩
  obtain ⟨-, -, hafter⟩ := h₂.shows_run hnames hlater hnow (fun _ _ => rfl) hsettled hrest
  have hseen := hafter.cache (Or.inl rfl) cand sig hsig
  simpa [SharedEvent.time] using hseen

end Follows

/-- **The signals follow the traffic.**  In every run of the app among other replicas: requests,
ticks and their awaits in any order, awaits that raise, ticks that fail. -/
theorem signals_follow (app : App) (hnames : ∀ v ∈ app.vendors, ':' ∉ v.toList) {redis : Redis}
    (hredis : redis.NoObservations) {start : ℚ} {es : List SharedEvent} (hes : ∀ e ∈ es, e.Named)
    {s : AppState} (hrun : Runs.run app.sharedStep (App.boot redis start) es = some s) :
    app.SignalsFollow (App.boot redis start) es s := by
  obtain ⟨hfollows, hshows⟩ := Follows.of_boot hnames hredis hes hrun
  refine ⟨hfollows.counted, hshows.cache (Or.inl rfl), ?_⟩
  rintro past now during later rfl hover cand sig hsig
  obtain ⟨hpast, hrest⟩ := List.forall_mem_append.mp hes
  obtain ⟨m, hm, hlater⟩ := Runs.run_append_iff.mp hrun
  have hseen := (Follows.of_boot hnames hredis hpast hm).1.seen_since_tick hnames hrest hover
    hlater hsig
  exact ⟨hseen, fun hpast => (hseen.recovered hrun false hpast).1 rfl,
    fun hpast => (hseen.recovered hrun true hpast).2 rfl⟩

/-- A timeout here, a success of another replica, and a tick. -/
def mixedEvents : List SharedEvent :=
  (soleTick 0 ++ soleRequest 1 (.error ⟨.timeout, true, "Timeout"⟩) 0).map .own ++
    [.observed ⟨2, soleCand, .success (3 / 4)⟩] ++ (soleTick 3).map .own

/-- The signals after that tick: half of the records are failures. -/
theorem signals_follow_mixedEvents : ∃ s,
    Runs.run soleApp.sharedStep (App.boot Dict.empty 0) mixedEvents = some s ∧
      (s.refresh.cache.get? soleCand).map (fun sig => (sig.errorRate, sig.meanLatencyS)) =
        some (1 / 2, 3 / 4) ∧
      soleApp.SignalsFollow (App.boot Dict.empty 0) mixedEvents s := by
  have hrun : (Runs.run soleApp.sharedStep (App.boot Dict.empty 0) mixedEvents).any (fun s =>
      (s.refresh.cache.get? soleCand).map (fun sig => (sig.errorRate, sig.meanLatencyS)) =
        some (1 / 2, 3 / 4)) = true := by
    decide +kernel
  obtain ⟨s, hs, hsig⟩ := (Option.any_eq_true _ _).mp hrun
  refine ⟨s, hs, of_decide_eq_true hsig, soleApp.signals_follow ?_ (fun _ _ _ => Dict.get?_empty _)
    ?_ hs⟩
  · intro v hv
    obtain rfl := List.mem_singleton.mp hv
    decide
  · intro e he
    rcases List.mem_append.mp he with he | he
    · rcases List.mem_append.mp he with he | he
      · obtain ⟨a, -, rfl⟩ := List.mem_map.mp he
        trivial
      · obtain rfl := List.mem_singleton.mp he
        show ':' ∉ "openai".toList
        decide
    · obtain ⟨a, -, rfl⟩ := List.mem_map.mp he
      trivial

end App

end Librouter
