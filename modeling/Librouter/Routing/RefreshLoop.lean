/-
# `routing/refresh.py`: the refresh loop and its shutdown

`RefreshTask._loop` ticks, waits, and ticks again until `stop()` sets its event; consecutive
failures back off exponentially, up to 30 seconds.  The exponent is not bounded: the backoff is
computed as `base_interval_s * (2 ** (consecutive_failures - 1))` BEFORE the `min`, and outside
the `try`.  Python multiplies a float with an int by converting the int, which raises
`OverflowError` from `2 ** 1024` on, so failure 1025 in a row kills the task, `stop()` re-raises
its exception, and the shutdown of the app ends there.

The loop is a state machine between its awaits (`LoopState.step`): what the tick did, when the
wait ended and when `stop()` was called are events.  `refreshLoop_survives_iff` says which runs
keep the loop's promises: those of an interval that converts to a float in which no more than
1024 ticks fail in a row.
-/
import Librouter.Models
import Librouter.Python
import Librouter.Foundations.Runs

namespace Librouter

/-! ## 1. The loop -/

/-- `max_backoff_s`. -/
def maxBackoffS : ℚ := 30

/-- `next_wait_s` after `consecutive_failures` failures in a row. -/
def backoffWaitS (baseIntervalS : ℚ) (consecutiveFailures : ℕ) (draw : UnitDraw) :
    Except PyError ℚ :=
  (floatOfInt (2 ^ (consecutiveFailures - 1))).map fun factor =>
    min maxBackoffS (baseIntervalS * factor) * (1 / 2 + draw.val * (1 / 2))

/-- Where the coroutine `_loop` stands. -/
inductive LoopPc
  /-- at the test of the `while` -/
  | top
  /-- in `await self.tick()` -/
  | ticking
  /-- in `await asyncio.wait_for(self._stop.wait(), timeout=next_wait_s)` -/
  | waiting (nextWaitS : ℚ)
  /-- the task is done -/
  | returned
  /-- the task is done, with an exception -/
  | raised (e : PyError)
deriving DecidableEq

/-- The locals of `_loop`, the stop event, and the two places failures are reported to. -/
structure LoopState where
  pc : LoopPc
  baseIntervalS : ℚ := 0
  consecutiveFailures : ℕ := 0
  stopSet : Bool := false
  refreshErrorsTotal : ℕ := 0
  logLines : ℕ := 0
deriving DecidableEq

/-- What happens to the loop. -/
inductive LoopEvent
  /-- the test of the `while` -/
  | check
  /-- `tick()` returned -/
  | tickOk
  /-- `tick()` raised; `draw` is what `random.random()` then returns -/
  | tickFails (draw : UnitDraw)
  /-- the wait is over: it timed out, or the stop event was set -/
  | wake
  /-- `stop()` set the stop event -/
  | stop

/-- `create_task(self._loop())`, up to the `while`. -/
def LoopState.start (routing : RoutingConfig) : LoopState :=
  match floatOfInt routing.refreshIntervalMs with
  | .ok ms => { pc := .top, baseIntervalS := ms / 1000 }
  | .error e => { pc := .raised e }

/-- The `except` branch of the tick. -/
def LoopState.tickFailed (s : LoopState) (draw : UnitDraw) : LoopState :=
  let n := s.consecutiveFailures + 1
  { s with
    consecutiveFailures := n
    refreshErrorsTotal := s.refreshErrorsTotal + 1
    logLines := if n = 1 then s.logLines + 1 else s.logLines
    pc := match backoffWaitS s.baseIntervalS n draw with
      | .ok w => .waiting w
      | .error e => .raised e }

/-- One event. -/
def LoopState.step (s : LoopState) : LoopEvent → Option LoopState
  | .check =>
    if s.pc = .top then some { s with pc := if s.stopSet then .returned else .ticking } else none
  | .tickOk =>
    if s.pc = .ticking then
      some { s with consecutiveFailures := 0, pc := .waiting s.baseIntervalS }
    else none
  | .tickFails draw => if s.pc = .ticking then some (s.tickFailed draw) else none
  | .wake =>
    match s.pc with
    | .waiting _ => some { s with pc := .top }
    | _ => none
  | .stop => some { s with stopSet := true }

/-! ## 2. `stop()` and the shutdown -/

/-- The result of the task, once it is done. -/
def LoopState.result (s : LoopState) : Option (Except PyError Unit) :=
  match s.pc with
  | .returned => some (.ok ())
  | .raised e => some (.error e)
  | _ => none

/-- The awaits of the `finally` block of `lifespan`. -/
inductive ShutdownCall
  | refreshStop
  | accountingStop
  | dbClose
  | redisClose
deriving DecidableEq

/-- Awaits one after another, until one is still pending or raises: the calls that were made. -/
def awaitAll : List (ShutdownCall × Option (Except PyError Unit)) → List ShutdownCall
  | [] => []
  | (c, some (.ok ())) :: cs => c :: awaitAll cs
  | (c, _) :: _ => [c]

/-- The `finally` block of `lifespan`: `refresh.stop()` awaits the task, the exception of
`r.aclose()` is swallowed. -/
def lifespanShutdown (s : LoopState) (accountingStop dbClose : Option (Except PyError Unit)) :
    List ShutdownCall :=
  awaitAll [(.refreshStop, s.result), (.accountingStop, accountingStop), (.dbClose, dbClose),
    (.redisClose, some (.ok ()))]

/-! ## 3. What the loop promises -/

/-- The ticks that have failed since the last one that succeeded. -/
def failureStreak (es : List LoopEvent) : ℕ :=
  es.foldl (fun n e => match e with
    | .tickOk => 0
    | .tickFails _ => n + 1
    | _ => n) 0

/-- The steps of the task among the events. -/
def taskSteps (es : List LoopEvent) : ℕ :=
  es.countP fun e => match e with
    | .stop => false
    | _ => true

/-- The wait after `n` failures in a row. -/
def WaitOk (baseIntervalS : ℚ) (n : ℕ) (w : ℚ) : Prop :=
  if n = 0 then w = baseIntervalS else
    1 / 2 * min maxBackoffS (baseIntervalS * 2 ^ (n - 1)) ≤ w ∧
      w ≤ min maxBackoffS (baseIntervalS * 2 ^ (n - 1))

/-- `refresh_interval_ms`, in seconds. -/
def RoutingConfig.intervalS (routing : RoutingConfig) : ℚ := routing.refreshIntervalMs / 1000

/-- What the refresh loop promises of the state `s` that the events `es` lead to. -/
structure Survives (routing : RoutingConfig) (es : List LoopEvent) (s : LoopState) : Prop where
  /-- nothing is raised in the loop -/
  noRaise : ∀ e, s.pc ≠ .raised e
  /-- the waits back off, and are the base interval after a success -/
  wait : ∀ w, s.pc = .waiting w → WaitOk routing.intervalS (failureStreak es) w
  /-- the loop ends only after `stop()` -/
  ended : s.pc = .returned → ∃ p q, es = p ++ .stop :: q
  /-- until it has ended it can go on -/
  live : s.result = none → ∃ e s', e ≠ .stop ∧ s.step e = some s'
  /-- `stop()` never re-raises -/
  stopOk : ∀ r, s.result = some r → r = .ok ()
  /-- three steps after `stop()` the shutdown is past the refresh task -/
  shutdown : ∀ p q, es = p ++ .stop :: q → 3 ≤ taskSteps q →
    ∀ a d, .accountingStop ∈ lifespanShutdown s a d

/-! ## 4. The arithmetic -/

/-- The factor converts exactly for the first 1024 failures. -/
theorem two_pow_lt_iff {n : ℕ} (hn : 0 < n) : 2 ^ (n - 1) < floatOverflow ↔ n ≤ 1024 := by
  rw [two_pow_lt_floatOverflow_iff]
  omega

/-- **The backoff of failure `n` in a row**, when there is one, is the nominal wait jittered. -/
theorem backoffWaitS_ok {b w : ℚ} {n : ℕ} {draw : UnitDraw} (hb : 0 ≤ b) (hn : 0 < n)
    (h : backoffWaitS b n draw = .ok w) : n ≤ 1024 ∧ WaitOk b n w := by
  unfold backoffWaitS at h
  cases hf : floatOfInt (2 ^ (n - 1)) with
  | error e => rw [hf] at h; cases h
  | ok x =>
    obtain ⟨hlt, rfl⟩ := floatOfInt_ok_iff.mp hf
    rw [hf] at h
    obtain rfl : min maxBackoffS (b * ((2 ^ (n - 1) : ℕ) : ℚ)) * (1 / 2 + draw.val * (1 / 2)) = w :=
      Except.ok.inj h
    refine ⟨(two_pow_lt_iff hn).mp hlt, ?_⟩
    rw [WaitOk, if_neg hn.ne']
    push_cast
    have hnominal : 0 ≤ min maxBackoffS (b * 2 ^ (n - 1)) :=
      le_min (by norm_num [maxBackoffS]) (mul_nonneg hb (by positivity))
    have h₁ := mul_nonneg hnominal draw.nonneg
    have h₂ := mul_le_mul_of_nonneg_left draw.lt_one.le hnominal
    constructor <;> linarith

theorem backoffWaitS_error {b : ℚ} {n : ℕ} {draw : UnitDraw} {e : PyError} (hn : 0 < n)
    (h : backoffWaitS b n draw = .error e) : 1024 < n := by
  unfold backoffWaitS at h
  cases hf : floatOfInt (2 ^ (n - 1)) with
  | error e' =>
    by_contra hle
    exact absurd ((two_pow_lt_iff hn).mpr (not_lt.mp hle)) (floatOfInt_error_iff.mp hf).not_gt
  | ok x => rw [hf] at h; cases h

/-! ## 5. What a step does -/

namespace LoopState

variable {s s' : LoopState}

theorem step_check_iff : s.step .check = some s' ↔
    s.pc = .top ∧ s' = { s with pc := if s.stopSet then .returned else .ticking } := by
  rw [step, Option.ite_none_right_eq_some, Option.some.injEq, @eq_comm _ s']

theorem step_tickOk_iff : s.step .tickOk = some s' ↔
    s.pc = .ticking ∧
      s' = { s with consecutiveFailures := 0, pc := .waiting s.baseIntervalS } := by
  rw [step, Option.ite_none_right_eq_some, Option.some.injEq, @eq_comm _ s']

theorem step_tickFails_iff {draw : UnitDraw} : s.step (.tickFails draw) = some s' ↔
    s.pc = .ticking ∧ s' = s.tickFailed draw := by
  rw [step, Option.ite_none_right_eq_some, Option.some.injEq, @eq_comm _ s']

theorem step_wake_iff : s.step .wake = some s' ↔
    (∃ w, s.pc = .waiting w) ∧ s' = { s with pc := .top } := by
  cases hpc : s.pc <;> simp [step, hpc, eq_comm]

theorem step_stop_iff : s.step .stop = some s' ↔ s' = { s with stopSet := true } := by
  simp [step, eq_comm]

end LoopState

section Histories

variable (es : List LoopEvent)

@[simp] theorem failureStreak_check : failureStreak (es ++ [.check]) = failureStreak es := by
  simp [failureStreak]

@[simp] theorem failureStreak_tickOk : failureStreak (es ++ [.tickOk]) = 0 := by
  simp [failureStreak]

@[simp] theorem failureStreak_tickFails (draw : UnitDraw) :
    failureStreak (es ++ [.tickFails draw]) = failureStreak es + 1 := by
  simp [failureStreak]

@[simp] theorem failureStreak_wake : failureStreak (es ++ [.wake]) = failureStreak es := by
  simp [failureStreak]

@[simp] theorem failureStreak_stop : failureStreak (es ++ [.stop]) = failureStreak es := by
  simp [failureStreak]

end Histories

/-! ## 6. The invariant -/

/-- How many steps the task still needs to end once the stop event is set. -/
def LoopState.stepsLeft (s : LoopState) : ℕ :=
  match s.pc with
  | .top => 1
  | .ticking => 3
  | .waiting _ => 2
  | .returned => 0
  | .raised _ => 0

/-- What the state says of the events that led to it. -/
structure LoopInv (routing : RoutingConfig) (es : List LoopEvent) (s : LoopState) : Prop where
  stopSet : s.stopSet = true ↔ .stop ∈ es
  raised : ∀ e, s.pc = .raised e →
    floatOverflow ≤ routing.refreshIntervalMs ∨ 1024 < failureStreak es
  running : (∀ e, s.pc ≠ .raised e) →
    routing.refreshIntervalMs < floatOverflow ∧ s.baseIntervalS = routing.intervalS ∧
      s.consecutiveFailures = failureStreak es ∧ failureStreak es ≤ 1024
  wait : ∀ w, s.pc = .waiting w → WaitOk routing.intervalS (failureStreak es) w
  ended : s.pc = .returned → s.stopSet = true

theorem RoutingConfig.intervalS_nonneg (routing : RoutingConfig) : 0 ≤ routing.intervalS :=
  div_nonneg (Nat.cast_nonneg _) (by norm_num)

theorem loopInv_start (routing : RoutingConfig) : LoopInv routing [] (LoopState.start routing) := by
  unfold LoopState.start
  cases h : floatOfInt routing.refreshIntervalMs with
  | error e =>
    have hms := floatOfInt_error_iff.mp h
    exact ⟨by simp, fun _ _ => Or.inl hms, fun hr => absurd rfl (hr e), nofun, nofun⟩
  | ok x =>
    obtain ⟨hms, rfl⟩ := floatOfInt_ok_iff.mp h
    exact ⟨by simp, nofun, fun _ => ⟨hms, rfl, rfl, Nat.zero_le _⟩, nofun, nofun⟩

/-- A failed tick: either the backoff is computed, or this was one failure too many. -/
theorem LoopInv.tickFailed {routing : RoutingConfig} {es : List LoopEvent} {s : LoopState}
    (h : LoopInv routing es s) (hpc : s.pc = .ticking) (draw : UnitDraw) :
    LoopInv routing (es ++ [.tickFails draw]) (s.tickFailed draw) := by
  obtain ⟨hms, hbase, hcf, -⟩ := h.running (by simp [hpc])
  have hstop : (s.tickFailed draw).stopSet = true ↔ .stop ∈ es ++ [LoopEvent.tickFails draw] := by
    simpa [LoopState.tickFailed] using h.stopSet
  cases hw : backoffWaitS s.baseIntervalS (s.consecutiveFailures + 1) draw with
  | error e =>
    have hpc' : (s.tickFailed draw).pc = .raised e := by simp [LoopState.tickFailed, hw]
    have hn := backoffWaitS_error (Nat.succ_pos _) hw
    refine ⟨hstop, fun _ _ => Or.inr ?_, fun hr => absurd hpc' (hr e), ?_, ?_⟩
    · rwa [failureStreak_tickFails, ← hcf]
    · rw [hpc']; exact nofun
    · rw [hpc']; exact nofun
  | ok w =>
    have hpc' : (s.tickFailed draw).pc = .waiting w := by simp [LoopState.tickFailed, hw]
    obtain ⟨hn, hok⟩ := backoffWaitS_ok (hbase ▸ routing.intervalS_nonneg) (Nat.succ_pos _) hw
    rw [Nat.succ_eq_add_one, hcf, ← failureStreak_tickFails es draw] at hn hok
    refine ⟨hstop, ?_, fun _ => ⟨hms, hbase, ?_, hn⟩, ?_, ?_⟩
    · rw [hpc']; exact nofun
    · rw [failureStreak_tickFails, ← hcf]; rfl
    · rw [hpc']
      rintro _ ⟨⟩
      exact hbase ▸ hok
    · rw [hpc']; exact nofun

/-- **Every event keeps the invariant.** -/
theorem loopInv_step {routing : RoutingConfig} (es : List LoopEvent) (s : LoopState)
    (e : LoopEvent) (s' : LoopState) (h : LoopInv routing es s) (hstep : s.step e = some s') :
    LoopInv routing (es ++ [e]) s' := by
  cases e with
  | check =>
    obtain ⟨hpc, rfl⟩ := LoopState.step_check_iff.mp hstep
    have hrun := h.running (by simp [hpc])
    refine ⟨by simpa using h.stopSet, ?_, fun _ => by simpa using hrun, ?_, ?_⟩
    · cases s.stopSet <;> exact nofun
    · cases s.stopSet <;> exact nofun
    · cases hs : s.stopSet
      · exact nofun
      · exact fun _ => rfl
  | tickOk =>
    obtain ⟨hpc, rfl⟩ := LoopState.step_tickOk_iff.mp hstep
    obtain ⟨hms, hbase, -, -⟩ := h.running (by simp [hpc])
    refine ⟨by simpa using h.stopSet, nofun, fun _ => ⟨hms, hbase, ?_, ?_⟩, ?_, nofun⟩
    · exact (failureStreak_tickOk es).symm
    · exact (failureStreak_tickOk es).trans_le (Nat.zero_le _)
    · rintro _ ⟨⟩
      rw [failureStreak_tickOk, WaitOk, if_pos rfl, hbase]
  | tickFails draw =>
    obtain ⟨hpc, rfl⟩ := LoopState.step_tickFails_iff.mp hstep
    exact h.tickFailed hpc draw
  | wake =>
    obtain ⟨⟨w, hpc⟩, rfl⟩ := LoopState.step_wake_iff.mp hstep
    have hrun := h.running (by simp [hpc])
    exact ⟨by simpa using h.stopSet, nofun, fun _ => by simpa using hrun, nofun, nofun⟩
  | stop =>
    obtain rfl := LoopState.step_stop_iff.mp hstep
    exact ⟨by simp, by simpa using h.raised, by simpa using h.running, by simpa using h.wait,
      fun _ => rfl⟩

/-! ## 7. After `stop()` -/

/-- The events after some `stop` among `es ++ [e]`. -/
theorem append_stop_cases {es p q : List LoopEvent} {e : LoopEvent}
    (h : es ++ [e] = p ++ .stop :: q) :
    (q = [] ∧ e = .stop) ∨ ∃ q', q = q' ++ [e] ∧ es = p ++ .stop :: q' := by
  rcases List.eq_nil_or_concat q with rfl | ⟨q', x, rfl⟩
  · exact Or.inl ⟨rfl, (List.append_inj' h rfl).2 |> List.singleton_inj.mp⟩
  · rw [List.concat_eq_append, ← List.cons_append, ← List.append_assoc] at h
    obtain ⟨h₁, h₂⟩ := List.append_inj' h rfl
    obtain rfl := List.singleton_inj.mp h₂
    exact Or.inr ⟨q', List.concat_eq_append, h₁⟩

theorem taskSteps_concat (q : List LoopEvent) (e : LoopEvent) :
    taskSteps (q ++ [e]) = taskSteps q + taskSteps [e] := List.countP_append

/-- A step of the task with the stop event set brings its end nearer. -/
theorem stepsLeft_step {s s' : LoopState} {e : LoopEvent} (hstep : s.step e = some s')
    (hs : s.stopSet = true) : taskSteps [e] + s'.stepsLeft ≤ s.stepsLeft := by
  cases e with
  | check =>
    obtain ⟨hpc, rfl⟩ := LoopState.step_check_iff.mp hstep
    simp [LoopState.stepsLeft, taskSteps, hpc, hs]
  | tickOk =>
    obtain ⟨hpc, rfl⟩ := LoopState.step_tickOk_iff.mp hstep
    simp [LoopState.stepsLeft, taskSteps, hpc]
  | tickFails draw =>
    obtain ⟨hpc, rfl⟩ := LoopState.step_tickFails_iff.mp hstep
    cases hw : backoffWaitS s.baseIntervalS (s.consecutiveFailures + 1) draw <;>
      simp [LoopState.stepsLeft, LoopState.tickFailed, taskSteps, hpc, hw]
  | wake =>
    obtain ⟨⟨w, hpc⟩, rfl⟩ := LoopState.step_wake_iff.mp hstep
    simp [LoopState.stepsLeft, taskSteps, hpc]
  | stop =>
    obtain rfl := LoopState.step_stop_iff.mp hstep
    simp [LoopState.stepsLeft, taskSteps]

theorem stepsLeft_le_three (s : LoopState) : s.stepsLeft ≤ 3 := by
  cases h : s.pc <;> simp [LoopState.stepsLeft, h]

/-- The countdown: the steps taken since `stop()` and the steps left are three at most. -/
def Countdown (es : List LoopEvent) (s : LoopState) : Prop :=
  ∀ p q, es = p ++ .stop :: q → s.stopSet = true ∧ taskSteps q + s.stepsLeft ≤ 3

theorem countdown_step (es : List LoopEvent) (s : LoopState) (e : LoopEvent) (s' : LoopState)
    (h : Countdown es s) (hstep : s.step e = some s') : Countdown (es ++ [e]) s' := by
  intro p q hq
  rcases append_stop_cases hq with ⟨rfl, rfl⟩ | ⟨q', rfl, rfl⟩
  · obtain rfl := LoopState.step_stop_iff.mp hstep
    exact ⟨rfl, by simpa [taskSteps] using stepsLeft_le_three _⟩
  · obtain ⟨hs, hle⟩ := h p q' rfl
    have hdec := stepsLeft_step hstep hs
    refine ⟨?_, by rw [taskSteps_concat]; omega⟩
    cases e with
    | check => obtain ⟨-, rfl⟩ := LoopState.step_check_iff.mp hstep; exact hs
    | tickOk => obtain ⟨-, rfl⟩ := LoopState.step_tickOk_iff.mp hstep; exact hs
    | tickFails draw => obtain ⟨-, rfl⟩ := LoopState.step_tickFails_iff.mp hstep; exact hs
    | wake => obtain ⟨-, rfl⟩ := LoopState.step_wake_iff.mp hstep; exact hs
    | stop => obtain rfl := LoopState.step_stop_iff.mp hstep; rfl

/-- A task that needs no more steps is done. -/
theorem result_of_stepsLeft_eq_zero {s : LoopState} (h : s.stepsLeft = 0) :
    ∃ r, s.result = some r := by
  cases hpc : s.pc <;> simp_all [LoopState.stepsLeft, LoopState.result]

/-- Until it is done the task can take a step. -/
theorem exists_task_step {s : LoopState} (h : s.result = none) :
    ∃ e s', e ≠ LoopEvent.stop ∧ s.step e = some s' := by
  cases hpc : s.pc with
  | top => exact ⟨.check, _, nofun, LoopState.step_check_iff.mpr ⟨hpc, rfl⟩⟩
  | ticking => exact ⟨.tickOk, _, nofun, LoopState.step_tickOk_iff.mpr ⟨hpc, rfl⟩⟩
  | waiting w => exact ⟨.wake, _, nofun, LoopState.step_wake_iff.mpr ⟨⟨w, hpc⟩, rfl⟩⟩
  | returned => simp [LoopState.result, hpc] at h
  | raised e => simp [LoopState.result, hpc] at h

/-! ## 8. When the loop survives -/

/-- The states the loop reaches by the events `es`. -/
abbrev LoopRun (routing : RoutingConfig) (es : List LoopEvent) (s : LoopState) : Prop :=
  Runs.run LoopState.step (LoopState.start routing) es = some s

section Survival

variable {routing : RoutingConfig} {es : List LoopEvent} {s : LoopState}

theorem loopInv_of_run (h : LoopRun routing es s) : LoopInv routing es s :=
  Runs.invariant _ (loopInv_start routing) loopInv_step h

theorem countdown_of_run (h : LoopRun routing es s) : Countdown es s :=
  Runs.invariant _ (fun p q hq => by simp at hq) countdown_step h

/-- A loop in which nothing was raised keeps every promise. -/
theorem survives_of_noRaise (h : LoopRun routing es s) (hr : ∀ e, s.pc ≠ .raised e) :
    Survives routing es s := by
  have hinv := loopInv_of_run h
  have hok : ∀ r, s.result = some r → r = .ok () := by
    intro r hres
    cases hpc : s.pc with
    | raised e => exact absurd hpc (hr e)
    | returned => simpa [LoopState.result, hpc, eq_comm] using hres
    | top | ticking | waiting w => simp [LoopState.result, hpc] at hres
  refine ⟨hr, hinv.wait, fun hpc => ?_, exists_task_step, hok, fun p q hq h3 a d => ?_⟩
  · exact List.append_of_mem (hinv.stopSet.mp (hinv.ended hpc))
  · obtain ⟨-, hle⟩ := countdown_of_run h p q hq
    obtain ⟨r, hres⟩ := result_of_stepsLeft_eq_zero (s := s) (by omega)
    rw [lifespanShutdown, hres, hok r hres, awaitAll]
    refine List.mem_cons_of_mem _ ?_
    rcases a with _ | ⟨_ | _⟩ <;> simp [awaitAll]

/-- What a state of the loop promises depends on two numbers only. -/
theorem survives_iff_of_run (h : LoopRun routing es s) :
    Survives routing es s ↔
      routing.refreshIntervalMs < floatOverflow ∧ failureStreak es ≤ 1024 := by
  have hinv := loopInv_of_run h
  constructor
  · intro hs
    obtain ⟨hms, -, -, hle⟩ := hinv.running hs.noRaise
    exact ⟨hms, hle⟩
  · rintro ⟨hms, hle⟩
    refine survives_of_noRaise h fun e hpc => ?_
    rcases hinv.raised e hpc with h' | h'
    · exact absurd hms h'.not_gt
    · exact absurd hle h'.not_ge

end Survival

/-! ## 9. A long outage -/

/-- `n` rounds of the loop in which the tick fails. -/
def failedRounds : ℕ → List LoopEvent
  | 0 => []
  | n + 1 => failedRounds n ++ [.check, .tickFails zeroDraw, .wake]

theorem failureStreak_failedRounds : ∀ n, failureStreak (failedRounds n) = n
  | 0 => rfl
  | n + 1 => by
    have hsplit : failedRounds (n + 1)
        = ((failedRounds n ++ [.check]) ++ [.tickFails zeroDraw]) ++ [.wake] := by
      simp [failedRounds]
    rw [hsplit, failureStreak_wake, failureStreak_tickFails, failureStreak_check,
      failureStreak_failedRounds n]

/-- A tick fails from any state at the top of a loop that was not stopped. -/
theorem run_failedTick {s : LoopState} (hpc : s.pc = .top) (hs : s.stopSet = false) :
    Runs.run LoopState.step s [.check, .tickFails zeroDraw]
      = some ({ s with pc := .ticking }.tickFailed zeroDraw) := by
  refine Runs.run_cons_iff.mpr ⟨_, LoopState.step_check_iff.mpr ⟨hpc, rfl⟩, ?_⟩
  rw [hs]
  exact Runs.run_cons_iff.mpr ⟨_, LoopState.step_tickFails_iff.mpr ⟨rfl, rfl⟩, rfl⟩

theorem default_interval_lt : ({} : RoutingConfig).refreshIntervalMs < floatOverflow := by
  have hsmall : 2 ^ 10 < floatOverflow := two_pow_lt_floatOverflow_iff.mpr (by norm_num)
  exact (by norm_num : 1000 < 2 ^ 10).trans hsmall

/-- The first 1024 failures in a row bring the loop back to its top. -/
theorem run_failedRounds (routing : RoutingConfig) (hms : routing.refreshIntervalMs < floatOverflow) :
    ∀ n, n ≤ 1024 → ∃ s, LoopRun routing (failedRounds n) s ∧ s.pc = .top ∧ s.stopSet = false
  | 0, _ => by
    refine ⟨LoopState.start routing, rfl, ?_⟩
    rw [LoopState.start, floatOfInt_ok_iff.mpr ⟨hms, rfl⟩]
    exact ⟨rfl, rfl⟩
  | n + 1, hn => by
    obtain ⟨s, hrun, hpc, hs⟩ := run_failedRounds routing hms n (by omega)
    have hcf : s.consecutiveFailures = n := by
      rw [((loopInv_of_run hrun).running (by simp [hpc])).2.2.1, failureStreak_failedRounds]
    set m := { s with pc := LoopPc.ticking }.tickFailed zeroDraw with hm
    have hwait : ∃ w, m.pc = .waiting w := by
      have hfloat := floatOfInt_ok_iff.mpr ⟨(two_pow_lt_iff (Nat.succ_pos n)).mpr hn, rfl⟩
      simp only [Nat.add_one_sub_one] at hfloat
      simp [hm, LoopState.tickFailed, backoffWaitS, hcf, hfloat, Except.map]
    refine ⟨{ m with pc := .top }, Runs.run_append_iff.mpr ⟨s, hrun, ?_⟩, rfl, hs⟩
    change Runs.run LoopState.step s ([LoopEvent.check, .tickFails zeroDraw] ++ [.wake]) = _
    refine Runs.run_append_iff.mpr ⟨m, run_failedTick hpc hs, ?_⟩
    exact Runs.run_cons_iff.mpr ⟨_, LoopState.step_wake_iff.mpr ⟨hwait, rfl⟩, rfl⟩

/-- A loop in which something was raised ends the shutdown at `refresh.stop()`. -/
theorem lifespanShutdown_of_raised {s : LoopState} {e : PyError} (h : s.pc = .raised e)
    (a d : Option (Except PyError Unit)) : lifespanShutdown s a d = [.refreshStop] := by
  simp [lifespanShutdown, LoopState.result, h, awaitAll]

/-! ## 10. When the loop survives -/

/-- **The refresh loop survives exactly the outages of at most 1024 failed ticks in a row**,
provided the base interval converts to a float. -/
theorem refreshLoop_survives_iff (routing : RoutingConfig) (es : List LoopEvent) (s : LoopState)
    (h : LoopRun routing es s) :
    (∀ p, p <+: es → ∀ m, LoopRun routing p m → Survives routing p m) ↔
      routing.refreshIntervalMs < floatOverflow ∧ ∀ p, p <+: es → failureStreak p ≤ 1024 := by
  constructor
  · intro hs
    refine ⟨((survives_iff_of_run h).mp (hs es List.prefix_rfl s h)).1, fun p hp => ?_⟩
    obtain ⟨m, hm⟩ := Runs.exists_run_of_prefix h hp
    exact ((survives_iff_of_run hm).mp (hs p hp m hm)).2
  · rintro ⟨hms, hle⟩ p hp m hm
    exact (survives_iff_of_run hm).mpr ⟨hms, hle p hp⟩

/-- The run of one failed round meets the condition. -/
theorem refreshLoop_survives_iff_failedRound :
    ∃ s, LoopRun {} (failedRounds 1) s ∧
      ((∀ p, p <+: failedRounds 1 → ∀ m, LoopRun {} p m → Survives {} p m) ↔
        ({} : RoutingConfig).refreshIntervalMs < floatOverflow ∧
          ∀ p, p <+: failedRounds 1 → failureStreak p ≤ 1024) := by
  obtain ⟨s, hrun, -⟩ := run_failedRounds {} default_interval_lt 1 (by norm_num)
  exact ⟨s, hrun, refreshLoop_survives_iff {} (failedRounds 1) s hrun⟩

/-- With the default interval, 1025 ticks fail in a row. -/
def longOutage : List LoopEvent := failedRounds 1024 ++ [.check, .tickFails zeroDraw]

/-- **The loop does not survive a long outage.**  Failure 1025 kills the task, and the shutdown
never gets to `accounting.stop()`. -/
theorem longOutage_kills_refreshLoop :
    ∃ s, LoopRun {} longOutage s ∧ ¬ Survives {} longOutage s ∧
      lifespanShutdown s (some (.ok ())) (some (.ok ())) = [.refreshStop] := by
  obtain ⟨s, hrun, hpc, hs⟩ := run_failedRounds {} default_interval_lt 1024 (le_refl _)
  have hlong : LoopRun {} longOutage _ :=
    Runs.run_append_iff.mpr ⟨s, hrun, run_failedTick hpc hs⟩
  have hstreak : failureStreak longOutage = 1025 := by
    rw [longOutage, List.append_cons, failureStreak_tickFails, failureStreak_check,
      failureStreak_failedRounds]
  have hdead : ¬ Survives {} longOutage _ := fun h => by
    have hle := ((survives_iff_of_run hlong).mp h).2
    omega
  refine ⟨_, hlong, hdead, ?_⟩
  by_cases hr : ∀ e, (LoopState.tickFailed { s with pc := .ticking } zeroDraw).pc ≠ .raised e
  · exact absurd (survives_of_noRaise hlong hr) hdead
  · obtain ⟨e, he⟩ := not_forall_not.mp hr
    exact lifespanShutdown_of_raised he _ _

end Librouter
