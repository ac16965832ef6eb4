/-
# `routing/refresh.py`: what refreshing alone does to a bucket

`build_signals` reads the level of a candidate with `RedisTokenBucket.remaining`, whose docstring
says "without consuming".  It is an acquire of zero tokens, which takes one request (so its last
comment), and a fleet of replicas that serves nobody still draws on the bucket: each replica once
before it serves, once more when its loop starts, and then once every `refresh_interval_ms`.  A tick
that fails may have read as well, and the next one comes sooner: after half the interval, or after
fifteen seconds if that is less.

Hence a candidate without traffic can look exhausted.  `idle_fed_iff` says when it never does, as
long as no tick fails: the bucket must hold two requests for each replica and one more, and refill
one for each replica every interval (and the floor of the weight engine must be low enough for what
is left).  If it refills one for each replica in the least wait, that is enough whatever fails.

* What a read leaves is never lower than a full bucket less what the replicas owe
  (`found_ge_of_run`), at most two requests each.
* If nothing was ever refused, and Redis answers at once, it is never higher than a full bucket and
  the refill since the beginning less all reads (`found_le_of_run`).

There is one clock, of which the whole milliseconds are read.  A read comes to Redis later than the
reading it carries, maybe after one with a later reading; but not after its tick has failed.  A
process that is started again is another replica.
-/
import Librouter.Ratelimit.Window
import Librouter.Routing.Refresh
import Librouter.Routing.RefreshLoop
import Librouter.Foundations.Pacing
import Librouter.Foundations.Runs

namespace Librouter

open TokenBucket

/-! ## 1. The fleet -/

/-- What `aggregate` answers for a window without observations. -/
def idleAggregate : WindowAggregate where
  successes := 0
  failures := 0
  total := 0
  meanLatencyS := 0
  errorRate := 0

/-- `replicas` processes with one config, and a candidate of it that no request is routed to. -/
structure IdleFleet where
  replicas : ℕ
  routing : RoutingConfig
  bucket : RedisTokenBucket
  cand : RatedCandidate
  limits_ok : bucket.entry cand.ref.provider cand.ref.model = .ok cand.rateLimits

/-- How a tick ends. -/
inductive TickEnd
  | completes
  /-- it raises, and has read the level -/
  | failsAfter
  /-- it raises, and has not -/
  | failsBefore
deriving DecidableEq

/-- `consecutive_failures` after the tick. -/
def TickEnd.failures (consecutiveFailures : ℕ) : TickEnd → ℕ
  | completes => 0
  | failsAfter => consecutiveFailures + 1
  | failsBefore => consecutiveFailures + 1

/-- The least that `_loop` waits after so many failures in a row, in whole milliseconds: the base
interval, or half of the backoff. -/
def waitMs (intervalMs : ℕ) : ℕ → ℕ
  | 0 => intervalMs
  | k + 1 => min 30000 (intervalMs * 2 ^ k) / 2

/-- Where a replica stands between two ticks. -/
inductive ReplicaPc
  /-- before the `await refresh.tick()` of `lifespan` -/
  | starting
  /-- that tick is over; `refresh.start()` comes next, and the loop begins with a tick -/
  | booted
  /-- `_loop` waits after a tick at `sinceMs` -/
  | waiting (consecutiveFailures : ℕ) (sinceMs : ℤ)
  /-- the tick of `lifespan` raised, and the process does not serve -/
  | ended

/-- The next tick can come at `nowMs`. -/
def ReplicaPc.Due (intervalMs : ℕ) (nowMs : ℤ) : ReplicaPc → Prop
  | .starting => True
  | .booted => True
  | .waiting failures sinceMs => sinceMs + waitMs intervalMs failures ≤ nowMs
  | .ended => False

instance (intervalMs : ℕ) (nowMs : ℤ) : DecidablePred (ReplicaPc.Due intervalMs nowMs)
  | .starting => isTrue trivial
  | .booted => isTrue trivial
  | .waiting failures sinceMs =>
    inferInstanceAs (Decidable (sinceMs + waitMs intervalMs failures ≤ nowMs))
  | .ended => isFalse id

/-- It comes. -/
def ReplicaPc.tick (ends : TickEnd) (nowMs : ℤ) : ReplicaPc → ReplicaPc
  | .starting => if ends = .completes then .booted else .ended
  | .booted => .waiting (ends.failures 0) nowMs
  | .waiting failures _ => .waiting (ends.failures failures) nowMs
  | .ended => .ended

/-- What a replica owes the bucket at `nowMs`: its first read for good, its last one until the
period is over. -/
def ReplicaPc.debt (periodMs : ℚ) (nowMs : ℤ) : ReplicaPc → ℚ
  | .starting => 0
  | .booted => 1
  | .waiting _ sinceMs => 1 + owed periodMs sinceMs nowMs
  | .ended => 1

/-- The state of a fleet; `clockMs` is the time. -/
structure IdleState (n : ℕ) where
  clockMs : ℤ
  entry : RedisEntry := .missing
  replicas : Fin n → ReplicaPc := fun _ => .starting
  /-- history: the signals that were published -/
  published : List CandidateSignals := []

/-- A tick of a replica: what its clock says when it asks for the level, and the time at which Redis
executes the read, or at which the tick fails before that. -/
structure IdleTick (n : ℕ) where
  readMs : ℤ
  nowMs : ℤ
  replica : Fin n
  ends : TickEnd := .completes

/-- Redis answers at once, and the tick does not fail. -/
structure IdleTick.Prompt {n : ℕ} (e : IdleTick n) : Prop where
  at_once : e.readMs = e.nowMs
  completes : e.ends = .completes

theorem IdleTick.Prompt.ends_ne {n : ℕ} {e : IdleTick n} (h : e.Prompt) :
    e.ends ≠ .failsBefore := by
  rw [h.completes]
  decide

namespace IdleFleet

variable (fleet : IdleFleet)

/-- The caps of the bucket. -/
def caps : BucketCaps := fleet.cand.rateLimits.caps

/-- The signals a tick makes of the level. -/
def signals (rpm tpm : ℤ) : CandidateSignals := fleet.cand.signals idleAggregate rpm tpm .closed

/-- The signals of a full bucket. -/
def fullSignals : CandidateSignals :=
  fleet.signals fleet.cand.rateLimits.rpm fleet.cand.rateLimits.tpm

/-- The least wait after a tick, whether it fails or not. -/
def retryMs : ℕ := min 30000 fleet.routing.refreshIntervalMs / 2

/-- A tick reads and publishes, unless it fails before. -/
def step (s : IdleState fleet.replicas) (e : IdleTick fleet.replicas) :
    Option (IdleState fleet.replicas) :=
  if (s.clockMs ≤ e.nowMs ∧ e.readMs ≤ e.nowMs) ∧
      (s.replicas e.replica).Due fleet.routing.refreshIntervalMs e.readMs then
    let ticked := { s with
      clockMs := e.nowMs
      replicas := Function.update s.replicas e.replica
        ((s.replicas e.replica).tick e.ends e.nowMs) }
    if e.ends = .failsBefore then some ticked
    else match fleet.bucket.remaining fleet.cand.ref.provider fleet.cand.ref.model e.readMs
        (s.entry.expire e.nowMs) with
    | .ok (entry, rpm, tpm) =>
      -- `PEXPIRE` counts from the time of Redis
      let left := { ticked with entry := entry.pexpire e.nowMs 600000 }
      if e.ends = .completes then
        some { left with published := s.published ++ [fleet.signals rpm tpm] }
      else some left
    | .error _ => none
  else none

/-- What idle refreshing must not bring about: signals under which the candidate is skipped. -/
structure Fed (p : CandidateSignals) : Prop where
  rpm_pos : 1 ≤ p.rpmRemaining
  budget_pos : 0 < budgetScore p.rpmRemaining p.rpmCap p.tpmRemaining p.tpmCap
  /-- unless it would be with a full bucket -/
  weight_pos : 0 < fleet.fullSignals.weight fleet.routing → 0 < p.weight fleet.routing

/-- The fleet is small enough for the bucket, if each replica reads once in this time. -/
structure Sustainable (periodMs : ℚ) : Prop where
  burst : 2 * fleet.replicas + 1 ≤ fleet.cand.rateLimits.rpm
  pace : 60000 * fleet.replicas ≤ fleet.cand.rateLimits.rpm * periodMs
  floor : 0 < fleet.cand.baseWeight → fleet.routing.minWeightFloor ≤ fleet.cand.baseWeight →
    fleet.routing.minWeightFloor * fleet.cand.rateLimits.rpm
      ≤ fleet.cand.baseWeight * (fleet.cand.rateLimits.rpm - 2 * fleet.replicas)

/-- What an acquire at `nowMs` that carries the reading `readMs` would find in the bucket. -/
def foundRpm (s : IdleState fleet.replicas) (readMs nowMs : ℤ) : ℚ :=
  (fleet.caps.acquireArgs readMs 0).refilledRpm (s.entry.expire nowMs)

def foundTpm (s : IdleState fleet.replicas) (readMs nowMs : ℤ) : ℚ :=
  (fleet.caps.acquireArgs readMs 0).refilledTpm (s.entry.expire nowMs)

/-! ## 2. One tick -/

/-- The row of a read. -/
def row (s : IdleState fleet.replicas) (e : IdleTick fleet.replicas) : AcquireRow :=
  acquireRow fleet.caps (s.entry.expire e.nowMs) e.readMs 0

theorem remaining_eq (nowMs : ℚ) (e : RedisEntry) :
    fleet.bucket.remaining fleet.cand.ref.provider fleet.cand.ref.model nowMs e
      = .ok (callState fleet.caps e (.acquire nowMs 0),
        ⌊(acquireRow fleet.caps e nowMs 0).rpmLevel⌋,
        ⌊(acquireRow fleet.caps e nowMs 0).tpmLevel⌋) := by
  simp [RedisTokenBucket.remaining, RedisTokenBucket.tryAcquire, fleet.limits_ok, Except.map,
    callState, acquireRow, ratelimitLua, caps]

/-- **What a tick does.** -/
theorem step_iff {s s' : IdleState fleet.replicas} {e : IdleTick fleet.replicas} :
    fleet.step s e = some s' ↔
      ((s.clockMs ≤ e.nowMs ∧ e.readMs ≤ e.nowMs) ∧
        (s.replicas e.replica).Due fleet.routing.refreshIntervalMs e.readMs) ∧
      s' = { clockMs := e.nowMs
             entry := if e.ends = .failsBefore then s.entry else
               (callState fleet.caps (s.entry.expire e.nowMs) (.acquire e.readMs 0)).pexpire
                 e.nowMs 600000
             replicas := Function.update s.replicas e.replica
               ((s.replicas e.replica).tick e.ends e.nowMs)
             published := if e.ends = .completes then s.published ++
               [fleet.signals ⌊(fleet.row s e).rpmLevel⌋ ⌊(fleet.row s e).tpmLevel⌋]
               else s.published } := by
  rw [step, Option.ite_none_right_eq_some, remaining_eq, @eq_comm _ s']
  refine and_congr_right fun _ => ?_
  cases e.ends <;> exact Option.some_inj

variable {fleet} {s s' : IdleState fleet.replicas} {e : IdleTick fleet.replicas}

theorem published_of_step (hstep : fleet.step s e = some s') :
    s'.published = if e.ends = .completes then
      s.published ++ [fleet.signals ⌊(fleet.row s e).rpmLevel⌋ ⌊(fleet.row s e).tpmLevel⌋]
      else s.published := by
  rw [(fleet.step_iff.mp hstep).2]

/-- A tick that fails before it reads leaves the bucket alone. -/
theorem entry_of_unread (hends : e.ends = .failsBefore) (hstep : fleet.step s e = some s') :
    s'.entry = s.entry := by
  rw [(fleet.step_iff.mp hstep).2]
  exact if_pos hends

/-- A read leaves its levels under the key... -/
theorem stored_of_read (hends : e.ends ≠ .failsBefore) (hstep : fleet.step s e = some s') :
    Stored e.readMs (fleet.row s e).rpmLevel (fleet.row s e).tpmLevel s'.entry := by
  obtain ⟨hlast, hrpm, htpm⟩ := stored_acquire fleet.caps (s.entry.expire e.nowMs) e.readMs 0
  rw [(fleet.step_iff.mp hstep).2, if_neg hends]
  exact ⟨hlast, hrpm, htpm⟩

/-- ...for ten minutes. -/
theorem expireAt_of_read (hends : e.ends ≠ .failsBefore) (hstep : fleet.step s e = some s') :
    s'.entry.expireAtMs = some ((e.nowMs : ℚ) + 600000) := by
  rw [(fleet.step_iff.mp hstep).2, if_neg hends]
  rfl

/-- A read takes at most one request and no token. -/
theorem row_levels (htpm : fleet.foundTpm s e.readMs e.nowMs = fleet.caps.tpmCap) :
    fleet.foundRpm s e.readMs e.nowMs - 1 ≤ (fleet.row s e).rpmLevel ∧
      (fleet.row s e).tpmLevel = fleet.caps.tpmCap := by
  have hrpm := rpmLevel_add_spent fleet.caps (s.entry.expire e.nowMs) e.readMs 0
  have htok := tpmLevel_add_spent fleet.caps (s.entry.expire e.nowMs) e.readMs 0
  have hspent : (fleet.row s e).rpmSpent ≤ 1 := by
    unfold AcquireRow.rpmSpent
    split <;> norm_num
  have hfree : (fleet.row s e).tpmSpent = 0 := ite_self 0
  rw [foundTpm] at htpm
  rw [foundRpm, row] at *
  constructor <;> linarith

/-- A read that is refused leaves less than one request, and says so. -/
theorem rpmLevel_of_pos (hpos : 1 ≤ ⌊(fleet.row s e).rpmLevel⌋)
    (htpm : fleet.foundTpm s e.readMs e.nowMs = fleet.caps.tpmCap) :
    (fleet.row s e).rpmLevel = fleet.foundRpm s e.readMs e.nowMs - 1 := by
  have hlevel : 1 ≤ (fleet.row s e).rpmLevel := by exact_mod_cast Int.le_floor.mp hpos
  have hrpm := rpmLevel_add_spent fleet.caps (s.entry.expire e.nowMs) e.readMs 0
  have hspent : 0 ≤ (fleet.row s e).rpmSpent := by
    unfold AcquireRow.rpmSpent
    split <;> norm_num
  have hok : (fleet.row s e).ok = true := by
    refine ok_iff.mpr ⟨?_, ?_⟩
    · rw [row] at hlevel hspent
      linarith
    · rw [foundTpm] at htpm
      rw [htpm]
      exact fleet.caps.tpmCap_nonneg
  rw [AcquireRow.rpmSpent, ← row, if_pos hok] at hrpm
  rw [foundRpm, ← hrpm, add_sub_cancel_right]

end IdleFleet

/-! ## 3. What the replicas owe -/

namespace ReplicaPc

variable {intervalMs : ℕ} {periodMs : ℚ} {readMs creditedMs nowMs nowMs' : ℤ} {ends : TickEnd}
  (pc : ReplicaPc)

/-- If it waits, it waits for a period. -/
def Paced (intervalMs : ℕ) (periodMs : ℚ) : ReplicaPc → Prop
  | .waiting failures _ => periodMs ≤ waitMs intervalMs failures
  | _ => True

theorem Paced.tick (hends : ∀ k, periodMs ≤ waitMs intervalMs (ends.failures k)) :
    (pc.tick ends nowMs).Paced intervalMs periodMs := by
  cases pc with
  | starting => rw [ReplicaPc.tick]; split <;> exact trivial
  | booted => exact hends 0
  | waiting failures sinceMs => exact hends failures
  | ended => exact trivial

theorem debt_nonneg : 0 ≤ pc.debt periodMs nowMs := by
  cases pc with
  | starting => exact le_refl 0
  | booted => exact zero_le_one
  | waiting failures sinceMs => exact add_nonneg zero_le_one owed_nonneg
  | ended => exact zero_le_one

/-- No replica owes more than two requests. -/
theorem debt_le_two : pc.debt periodMs nowMs ≤ 2 := by
  cases pc with
  | starting => exact zero_le_two
  | booted => exact one_le_two
  | waiting failures sinceMs =>
    have hone : owed periodMs (sinceMs : ℚ) nowMs ≤ 1 := owed_le_one
    rw [debt]
    linarith
  | ended => exact one_le_two

/-- A tick that is due adds one: the last debt is paid. -/
theorem debt_add_one_le (hp : 0 < periodMs) (hpaced : pc.Paced intervalMs periodMs)
    (hdue : pc.Due intervalMs readMs) (hread : readMs ≤ creditedMs) (hnow : creditedMs ≤ nowMs) :
    pc.debt periodMs creditedMs + 1 ≤ (pc.tick ends nowMs).debt periodMs creditedMs := by
  have hfresh : owed periodMs (nowMs : ℚ) creditedMs = 1 := owed_eq_one hp (Int.cast_le.mpr hnow)
  cases pc with
  | starting =>
    have hdebt : (tick ends nowMs .starting).debt periodMs creditedMs = 1 := by
      rw [tick]
      split <;> rfl
    rw [hdebt, debt, zero_add]
  | booted => rw [tick, debt, debt, hfresh]
  | waiting failures sinceMs =>
    have hwait : periodMs ≤ waitMs intervalMs failures := hpaced
    have hsince : (sinceMs : ℚ) + waitMs intervalMs failures ≤ creditedMs := by
      exact_mod_cast hdue.trans hread
    have hpaid : owed periodMs (sinceMs : ℚ) creditedMs = 0 := owed_eq_zero hp (by linarith)
    rw [tick, debt, debt, hfresh, hpaid, add_zero]
  | ended => exact hdue.elim

/-- A tick takes nothing away. -/
theorem debt_le_tick (hp : 0 < periodMs) (hnow : creditedMs ≤ nowMs) :
    pc.debt periodMs creditedMs ≤ (pc.tick ends nowMs).debt periodMs creditedMs := by
  have hfresh : owed periodMs (nowMs : ℚ) creditedMs = 1 := owed_eq_one hp (Int.cast_le.mpr hnow)
  cases pc with
  | starting => exact debt_nonneg _
  | booted =>
    rw [tick, debt, debt, hfresh]
    exact le_add_of_nonneg_right zero_le_one
  | waiting failures sinceMs =>
    rw [tick, debt, debt, hfresh]
    exact add_le_add_right owed_le_one 1
  | ended => exact le_refl _

/-- In a period one request is paid back. -/
theorem debt_le_add (hp : 0 < periodMs) (h : nowMs ≤ nowMs') :
    pc.debt periodMs nowMs
      ≤ pc.debt periodMs nowMs' + ((nowMs' : ℚ) - nowMs) / periodMs := by
  have hpass : 0 ≤ ((nowMs' : ℚ) - nowMs) / periodMs :=
    div_nonneg (sub_nonneg.mpr (Int.cast_le.mpr h)) hp.le
  cases pc with
  | starting => exact le_add_of_nonneg_right hpass
  | booted => exact le_add_of_nonneg_right hpass
  | waiting failures sinceMs =>
    rw [debt, debt, add_assoc]
    exact add_le_add_right (owed_le_add hp (Int.cast_le.mpr h)) 1
  | ended => exact le_add_of_nonneg_right hpass

end ReplicaPc

namespace IdleFleet

variable {fleet : IdleFleet} {periodMs : ℚ} {s s' : IdleState fleet.replicas}
  {e : IdleTick fleet.replicas}

/-- What all replicas owe. -/
def debts (fleet : IdleFleet) (periodMs : ℚ) (s : IdleState fleet.replicas) (nowMs : ℤ) : ℚ :=
  ∑ i, (s.replicas i).debt periodMs nowMs

/-- Every replica that waits does so for a period. -/
def Paced (fleet : IdleFleet) (periodMs : ℚ) (s : IdleState fleet.replicas) : Prop :=
  ∀ i, (s.replicas i).Paced fleet.routing.refreshIntervalMs periodMs

/-- The replica will wait for a period after this tick. -/
def Keeps (fleet : IdleFleet) (periodMs : ℚ) (e : IdleTick fleet.replicas) : Prop :=
  ∀ k, periodMs ≤ waitMs fleet.routing.refreshIntervalMs (e.ends.failures k)

/-- No wait of the loop is shorter. -/
theorem retryMs_le_waitMs (fleet : IdleFleet) (k : ℕ) :
    fleet.retryMs ≤ waitMs fleet.routing.refreshIntervalMs k := by
  cases k with
  | zero => exact (Nat.div_le_self _ _).trans (min_le_right _ _)
  | succ k =>
    have hgrown : fleet.routing.refreshIntervalMs ≤ fleet.routing.refreshIntervalMs * 2 ^ k :=
      Nat.le_mul_of_pos_right _ (Nat.two_pow_pos k)
    exact Nat.div_le_div_right (min_le_min_left _ hgrown)

theorem keeps_retryMs (e : IdleTick fleet.replicas) : fleet.Keeps fleet.retryMs e :=
  fun _ => Nat.cast_le.mpr (fleet.retryMs_le_waitMs _)

theorem keeps_intervalMs {e : IdleTick fleet.replicas} (h : e.ends = .completes) :
    fleet.Keeps fleet.routing.refreshIntervalMs e := by
  intro k
  rw [h]
  exact le_refl _

theorem debts_le (periodMs : ℚ) (s : IdleState fleet.replicas) (nowMs : ℤ) :
    fleet.debts periodMs s nowMs ≤ 2 * fleet.replicas := by
  calc fleet.debts periodMs s nowMs ≤ ∑ _i : Fin fleet.replicas, (2 : ℚ) :=
        Finset.sum_le_sum fun i _ => (s.replicas i).debt_le_two
    _ = 2 * fleet.replicas := by
        rw [Finset.sum_const, Finset.card_univ, Fintype.card_fin, nsmul_eq_mul, mul_comm]

theorem Paced.step (h : fleet.Paced periodMs s) (hkeeps : fleet.Keeps periodMs e)
    (hstep : fleet.step s e = some s') : fleet.Paced periodMs s' := by
  obtain ⟨-, rfl⟩ := fleet.step_iff.mp hstep
  intro i
  by_cases hi : i = e.replica
  · subst hi
    simp only [Function.update_self]
    exact ReplicaPc.Paced.tick _ hkeeps
  · simp only [Function.update_of_ne hi]
    exact h i

theorem debts_nonneg (s : IdleState fleet.replicas) (nowMs : ℤ) :
    0 ≤ fleet.debts periodMs s nowMs :=
  Finset.sum_nonneg fun i _ => (s.replicas i).debt_nonneg

/-- Only one replica ticks. -/
theorem debts_add_of_step {x : ℚ} {creditedMs : ℤ}
    (hown : (s.replicas e.replica).debt periodMs creditedMs + x
      ≤ ((s.replicas e.replica).tick e.ends e.nowMs).debt periodMs creditedMs)
    (hstep : fleet.step s e = some s') :
    fleet.debts periodMs s creditedMs + x ≤ fleet.debts periodMs s' creditedMs := by
  obtain ⟨-, rfl⟩ := fleet.step_iff.mp hstep
  have hother : ∀ i ∈ Finset.univ.erase e.replica,
      (Function.update s.replicas e.replica ((s.replicas e.replica).tick e.ends e.nowMs) i).debt
          periodMs creditedMs
        = (s.replicas i).debt periodMs creditedMs := by
    intro i hi
    rw [Function.update_of_ne (Finset.ne_of_mem_erase hi)]
  rw [debts, debts, ← Finset.add_sum_erase _ _ (Finset.mem_univ e.replica),
    ← Finset.add_sum_erase _ _ (Finset.mem_univ e.replica), Finset.sum_congr rfl hother]
  simp only [Function.update_self]
  linarith

/-! ## 4. What a read finds, from below -/

/-- The token dimension is always full: nobody takes tokens. -/
def TpmFull (fleet : IdleFleet) (s : IdleState fleet.replicas) : Prop :=
  ∀ readMs nowMs, fleet.foundTpm s readMs nowMs = fleet.caps.tpmCap

/-- The bucket is full but for what the replicas owe at `creditedMs`.  It was credited up to then,
although the last read may have written an older reading back. -/
structure BackedAt (fleet : IdleFleet) (periodMs : ℚ) (s : IdleState fleet.replicas)
    (creditedMs : ℤ) : Prop where
  credited_le : creditedMs ≤ s.clockMs
  level : ∃ (lastMs : ℤ) (rpm tpm : ℚ), Stored lastMs rpm tpm s.entry ∧ lastMs ≤ creditedMs ∧
    fleet.caps.rpmCap - fleet.debts periodMs s creditedMs ≤ rpm

/-- Or it is full. -/
def Backed (fleet : IdleFleet) (periodMs : ℚ) (s : IdleState fleet.replicas) : Prop :=
  s.entry = .missing ∨ ∃ creditedMs, fleet.BackedAt periodMs s creditedMs

/-- A fleet before its first read. -/
def init (fleet : IdleFleet) (startMs : ℤ) : IdleState fleet.replicas := { clockMs := startMs }

theorem found_init (startMs readMs nowMs : ℤ) :
    fleet.foundRpm (fleet.init startMs) readMs nowMs = fleet.caps.rpmCap ∧
      fleet.foundTpm (fleet.init startMs) readMs nowMs = fleet.caps.tpmCap :=
  refilled_missing _ _ _

theorem TpmFull.step (h : fleet.TpmFull s) (hstep : fleet.step s e = some s') :
    fleet.TpmFull s' := by
  intro readMs nowMs
  by_cases hends : e.ends = .failsBefore
  · rw [foundTpm, entry_of_unread hends hstep]
    exact h readMs nowMs
  · have hstored := stored_of_read hends hstep
    rw [(row_levels (h _ _)).2] at hstored
    rw [foundTpm]
    rcases s'.entry.expire_cases nowMs with ⟨-, -, -, hmissing⟩ | hsame
    · rw [hmissing]
      exact (refilled_missing _ _ _).2
    · rw [hsame, hstored.refilledTpm]
      exact min_eq_left (le_add_of_nonneg_right (mul_nonneg (le_max_left _ _)
        (div_nonneg fleet.caps.tpmCap_nonneg (by norm_num))))

section Backed

variable (hp : 0 < periodMs)
  (hpace : 60000 * fleet.replicas ≤ fleet.cand.rateLimits.rpm * periodMs)
include hp hpace

/-- **The refill keeps up with the replicas**: a read finds a full bucket but for what they owe, at
its own reading or at a later one that the bucket has been credited. -/
theorem Backed.found_ge (h : fleet.Backed periodMs s) (hclock : s.clockMs ≤ e.nowMs)
    (hread : e.readMs ≤ e.nowMs) :
    ∃ creditedMs, e.readMs ≤ creditedMs ∧ creditedMs ≤ e.nowMs ∧
      fleet.caps.rpmCap - fleet.debts periodMs s creditedMs
        ≤ fleet.foundRpm s e.readMs e.nowMs := by
  have hfull : s.entry.expire e.nowMs = .missing → ∃ creditedMs, e.readMs ≤ creditedMs ∧
      creditedMs ≤ e.nowMs ∧ fleet.caps.rpmCap - fleet.debts periodMs s creditedMs
        ≤ fleet.foundRpm s e.readMs e.nowMs := by
    intro hmissing
    refine ⟨e.readMs, le_refl _, hread, ?_⟩
    rw [foundRpm, hmissing, (refilled_missing _ _ _).1]
    exact sub_le_self _ (debts_nonneg s e.readMs)
  rcases s.entry.expire_cases e.nowMs with ⟨-, -, -, hmissing⟩ | hsame
  · exact hfull hmissing
  rcases h with hmissing | ⟨creditedMs, hcredited, lastMs, rpm, tpm, hstored, hlast, hlevel⟩
  · exact hfull (by rw [hsame, hmissing])
  refine ⟨max creditedMs e.readMs, le_max_right _ _, max_le (hcredited.trans hclock) hread, ?_⟩
  have hrate : (Fintype.card (Fin fleet.replicas) : ℚ) / periodMs ≤ fleet.caps.rpmCap / 60000 := by
    rw [Fintype.card_fin, div_le_div_iff₀ hp (by norm_num), mul_comm]
    exact hpace
  have hlater : creditedMs ≤ max creditedMs e.readMs := le_max_left _ _
  have hpaid := sub_sum_le_refill hlevel (fun i => (s.replicas i).debt_nonneg)
    (fun i => (s.replicas i).debt_le_add hp hlater) (sub_nonneg.mpr (Int.cast_le.mpr hlater)) hrate
  -- the read is credited at least that
  have helapsed : ((max creditedMs e.readMs : ℤ) : ℚ) - creditedMs
      ≤ max 0 ((e.readMs : ℚ) - lastMs) := by
    have hcast : (lastMs : ℚ) ≤ creditedMs := Int.cast_le.mpr hlast
    rcases max_cases creditedMs e.readMs with ⟨hmax, -⟩ | ⟨hmax, -⟩
    · rw [hmax, sub_self]
      exact le_max_left _ _
    · rw [hmax]
      exact (by linarith : (e.readMs : ℚ) - creditedMs ≤ e.readMs - lastMs).trans (le_max_right _ _)
  rw [foundRpm, hsame, hstored.refilledRpm]
  refine hpaid.trans (min_le_min_left _ (add_le_add_right ?_ rpm))
  exact mul_le_mul_of_nonneg_right helapsed
    (div_nonneg fleet.caps.rpmCap_nonneg (by norm_num))

/-- What a read leaves. -/
theorem Backed.left_ge (h : fleet.Backed periodMs s) (hpaced : fleet.Paced periodMs s)
    (hfull : fleet.TpmFull s) (hstep : fleet.step s e = some s') :
    ∃ creditedMs, e.readMs ≤ creditedMs ∧ creditedMs ≤ e.nowMs ∧
      fleet.caps.rpmCap - fleet.debts periodMs s' creditedMs ≤ (fleet.row s e).rpmLevel := by
  obtain ⟨⟨⟨hclock, hread⟩, hdue⟩, -⟩ := fleet.step_iff.mp hstep
  obtain ⟨creditedMs, hlo, hhi, hfound⟩ := h.found_ge hp hpace hclock hread
  refine ⟨creditedMs, hlo, hhi, ?_⟩
  have htaken := (row_levels (hfull e.readMs e.nowMs)).1
  have hdebts := debts_add_of_step
    ((s.replicas e.replica).debt_add_one_le hp (hpaced e.replica) hdue hlo hhi) hstep
  linarith

theorem Backed.step (h : fleet.Backed periodMs s) (hpaced : fleet.Paced periodMs s)
    (hfull : fleet.TpmFull s) (hstep : fleet.step s e = some s') : fleet.Backed periodMs s' := by
  obtain ⟨⟨⟨hclock, -⟩, -⟩, hs'⟩ := fleet.step_iff.mp hstep
  have hclock' : s'.clockMs = e.nowMs := by rw [hs']
  by_cases hends : e.ends = .failsBefore
  · have hentry := entry_of_unread hends hstep
    rcases h with hmissing | ⟨creditedMs, hcredited, lastMs, rpm, tpm, hstored, hlast, hlevel⟩
    · exact Or.inl (hentry.trans hmissing)
    · have hown : (s.replicas e.replica).debt periodMs creditedMs + 0
          ≤ ((s.replicas e.replica).tick e.ends e.nowMs).debt periodMs creditedMs := by
        rw [add_zero]
        exact (s.replicas e.replica).debt_le_tick hp (hcredited.trans hclock)
      have hdebts := debts_add_of_step hown hstep
      rw [add_zero] at hdebts
      refine Or.inr ⟨creditedMs, hclock' ▸ hcredited.trans hclock, lastMs, rpm, tpm,
        hentry ▸ hstored, hlast, ?_⟩
      linarith
  · obtain ⟨creditedMs, hlo, hhi, hleft⟩ := h.left_ge hp hpace hpaced hfull hstep
    exact Or.inr ⟨creditedMs, hclock' ▸ hhi, e.readMs, _, _, stored_of_read hends hstep, hlo, hleft⟩

end Backed

/-- What is published, when the refill keeps up: all tokens, and all requests but two for each
replica. -/
def Ample (fleet : IdleFleet) (p : CandidateSignals) : Prop :=
  ∃ rpm : ℤ, (fleet.cand.rateLimits.rpm : ℤ) - 2 * fleet.replicas ≤ rpm ∧
    p = fleet.signals rpm fleet.cand.rateLimits.tpm

/-- The levels that a tick reads are ample. -/
theorem ample_of_read (hp : 0 < periodMs)
    (hpace : 60000 * fleet.replicas ≤ fleet.cand.rateLimits.rpm * periodMs)
    (hpaced : fleet.Paced periodMs s) (hfull : fleet.TpmFull s) (hbacked : fleet.Backed periodMs s)
    (hstep : fleet.step s e = some s') :
    fleet.Ample (fleet.signals ⌊(fleet.row s e).rpmLevel⌋ ⌊(fleet.row s e).tpmLevel⌋) := by
  obtain ⟨creditedMs, -, -, hleft⟩ := hbacked.left_ge hp hpace hpaced hfull hstep
  have howed := debts_le periodMs s' creditedMs
  refine ⟨⌊(fleet.row s e).rpmLevel⌋, ?_, ?_⟩
  · rw [Int.le_floor]
    push_cast
    have hcap : fleet.caps.rpmCap = fleet.cand.rateLimits.rpm := rfl
    linarith
  · have hfloor : ⌊(fleet.row s e).tpmLevel⌋ = (fleet.cand.rateLimits.tpm : ℤ) := by
      rw [(row_levels (hfull _ _)).2]
      exact Int.floor_natCast _
    rw [hfloor]

/-- What is published by a run whose ticks are a period apart, and how the run leaves the fleet. -/
structure Paid (fleet : IdleFleet) (periodMs : ℚ) (s : IdleState fleet.replicas) : Prop where
  paced : fleet.Paced periodMs s
  full : fleet.TpmFull s
  backed : fleet.Backed periodMs s
  ample : ∀ p ∈ s.published, fleet.Ample p

theorem Paid.init (startMs : ℤ) : fleet.Paid periodMs (fleet.init startMs) where
  paced _ := trivial
  full readMs nowMs := (found_init startMs readMs nowMs).2
  backed := Or.inl rfl
  ample _ hp := absurd hp List.not_mem_nil

/-- **What a read finds, from below.** -/
theorem found_ge_of_run (hp : 0 < periodMs)
    (hpace : 60000 * fleet.replicas ≤ fleet.cand.rateLimits.rpm * periodMs)
    {startMs : ℤ} {es : List (IdleTick fleet.replicas)} {s : IdleState fleet.replicas}
    (hkeeps : ∀ e ∈ es, fleet.Keeps periodMs e)
    (hrun : Runs.run fleet.step (fleet.init startMs) es = some s) : fleet.Paid periodMs s := by
  refine Runs.invariant_along (fun _ e => fleet.Keeps periodMs e)
    (fun _ s => fleet.Paid periodMs s) (Paid.init startMs) ?_ hrun
    (Runs.along_of_forall es _ hkeeps)
  rintro - s e s' h hkeeps hstep
  refine ⟨h.paced.step hkeeps hstep, h.full.step hstep,
    h.backed.step hp hpace h.paced h.full hstep, ?_⟩
  rw [published_of_step hstep]
  split
  · rw [List.forall_mem_append, List.forall_mem_singleton]
    exact ⟨h.ample, ample_of_read hp hpace h.paced h.full h.backed hstep⟩
  · exact h.ample

/-! ## 5. What the weight engine makes of it -/

/-- The budget score, when no token is missing. -/
def requestScore (fleet : IdleFleet) (rpm : ℤ) : ℚ := min (max 0 (rpm / fleet.caps.rpmCap)) 1

theorem budgetScore_signals (rpm : ℤ) :
    let p := fleet.signals rpm fleet.cand.rateLimits.tpm
    budgetScore p.rpmRemaining p.rpmCap p.tpmRemaining p.tpmCap = fleet.requestScore rpm := by
  have hrpm : ¬ ((fleet.cand.rateLimits.rpm : ℤ) ≤ 0 ∨ (fleet.cand.rateLimits.tpm : ℤ) ≤ 0) := by
    have h₁ := fleet.cand.rateLimits.rpm_pos
    have h₂ := fleet.cand.rateLimits.tpm_pos
    omega
  have htpm : ((fleet.cand.rateLimits.tpm : ℤ) : ℚ) ≠ 0 := by
    exact_mod_cast fleet.cand.rateLimits.tpm_pos.ne'
  have hone : ((fleet.cand.rateLimits.tpm : ℤ) : ℚ) / ((fleet.cand.rateLimits.tpm : ℤ) : ℚ) = 1 :=
    div_self htpm
  simp only [signals, RatedCandidate.signals, budgetScore, if_neg hrpm, hone]
  rw [max_eq_right (zero_le_one (α := ℚ))]
  rfl

/-- A candidate without observations is in perfect health. -/
theorem healthScore_idle (fleet : IdleFleet) :
    healthScore idleAggregate.errorRate idleAggregate.meanLatencyS
      fleet.routing.targetLatencyS = 1 := by
  have htarget := fleet.routing.targetLatencyS_pos.ne'
  simp [healthScore, idleAggregate, htarget]

/-- What `pick` asks for. -/
theorem weight_pos_iff (fleet : IdleFleet) (rpm : ℤ) :
    0 < (fleet.signals rpm fleet.cand.rateLimits.tpm).weight fleet.routing ↔
      0 < fleet.cand.baseWeight * fleet.requestScore rpm ∧
        fleet.routing.minWeightFloor ≤ fleet.cand.baseWeight * fleet.requestScore rpm := by
  have hweight : (fleet.signals rpm fleet.cand.rateLimits.tpm).weight fleet.routing
      = if fleet.routing.minWeightFloor ≤ fleet.cand.baseWeight * fleet.requestScore rpm
        then fleet.cand.baseWeight * fleet.requestScore rpm else 0 := by
    have hhealth := fleet.healthScore_idle
    rw [CandidateSignals.weight, budgetScore_signals]
    change effectiveWeight fleet.cand.baseWeight
      (healthScore idleAggregate.errorRate idleAggregate.meanLatencyS
        fleet.routing.targetLatencyS) _ .closed fleet.routing.minWeightFloor = _
    rw [hhealth, effectiveWeight, if_neg (by decide), mul_one]
  rw [hweight]
  split
  · rename_i hfloor
    exact ⟨fun h => ⟨h, hfloor⟩, And.left⟩
  · rename_i hfloor
    exact ⟨fun h => absurd h (lt_irrefl 0), fun h => absurd h.2 hfloor⟩

theorem full_weight_pos_iff : 0 < fleet.fullSignals.weight fleet.routing ↔
    0 < fleet.cand.baseWeight ∧ fleet.routing.minWeightFloor ≤ fleet.cand.baseWeight := by
  have hcap : ((fleet.cand.rateLimits.rpm : ℤ) : ℚ) / fleet.caps.rpmCap = 1 :=
    div_self (by exact_mod_cast fleet.cand.rateLimits.rpm_pos.ne')
  have h := fleet.weight_pos_iff fleet.cand.rateLimits.rpm
  rwa [requestScore, hcap, max_eq_right zero_le_one, min_self, mul_one] at h

/-- What is left keeps the candidate above the floor. -/
theorem floor_le_of_weight_pos {rpm : ℤ} (hbase : 0 ≤ fleet.cand.baseWeight) (hrpm : 0 ≤ rpm)
    (hweight : 0 < (fleet.signals rpm fleet.cand.rateLimits.tpm).weight fleet.routing) :
    fleet.routing.minWeightFloor * fleet.cand.rateLimits.rpm ≤ fleet.cand.baseWeight * rpm := by
  have hcap : (0 : ℚ) < fleet.cand.rateLimits.rpm := Nat.cast_pos.mpr fleet.cand.rateLimits.rpm_pos
  have hscore : fleet.requestScore rpm ≤ rpm / fleet.cand.rateLimits.rpm :=
    (min_le_left _ _).trans (max_le (div_nonneg (Int.cast_nonneg hrpm) hcap.le) (le_refl _))
  have hfloor := ((fleet.weight_pos_iff rpm).mp hweight).2
  calc fleet.routing.minWeightFloor * fleet.cand.rateLimits.rpm
      ≤ fleet.cand.baseWeight * (rpm / fleet.cand.rateLimits.rpm) * fleet.cand.rateLimits.rpm :=
        mul_le_mul_of_nonneg_right
          (hfloor.trans (mul_le_mul_of_nonneg_left hscore hbase)) hcap.le
    _ = fleet.cand.baseWeight * rpm := by rw [mul_assoc, div_mul_cancel₀ _ hcap.ne']

/-- **Ample signals feed**, when the bucket is large enough. -/
theorem fed_of_ample (h : fleet.Sustainable periodMs) {p : CandidateSignals} (hp : fleet.Ample p) :
    fleet.Fed p := by
  obtain ⟨rpm, hrpm, rfl⟩ := hp
  have hcap : (0 : ℚ) < fleet.caps.rpmCap := zero_lt_one.trans_le fleet.caps.one_le_rpmCap
  have hburst := h.burst
  have hone : 1 ≤ rpm := by omega
  have hpos : 0 < fleet.requestScore rpm := by
    refine lt_min (lt_max_of_lt_right (div_pos ?_ hcap)) one_pos
    exact_mod_cast hone
  refine ⟨hone, ?_, fun hfull => ?_⟩
  · rw [budgetScore_signals]
    exact hpos
  · obtain ⟨hbase, hfloor⟩ := full_weight_pos_iff.mp hfull
    refine (fleet.weight_pos_iff rpm).mpr ⟨mul_pos hbase hpos, ?_⟩
    rw [requestScore, mul_min_of_nonneg _ _ hbase.le, mul_one]
    refine le_min ?_ hfloor
    have hleast : fleet.routing.minWeightFloor * fleet.caps.rpmCap
        ≤ fleet.cand.baseWeight * rpm := by
      refine (h.floor hbase hfloor).trans (mul_le_mul_of_nonneg_left ?_ hbase.le)
      exact_mod_cast hrpm
    calc fleet.routing.minWeightFloor
        = fleet.routing.minWeightFloor * fleet.caps.rpmCap / fleet.caps.rpmCap :=
          (mul_div_cancel_right₀ _ hcap.ne').symm
      _ ≤ fleet.cand.baseWeight * rpm / fleet.caps.rpmCap :=
          div_le_div_of_nonneg_right hleast hcap.le
      _ = fleet.cand.baseWeight * (rpm / fleet.caps.rpmCap) := mul_div_assoc _ _ _
      _ ≤ fleet.cand.baseWeight * max 0 (rpm / fleet.caps.rpmCap) :=
          mul_le_mul_of_nonneg_left (le_max_right _ _) hbase.le

/-! ## 6. What a read finds, from above -/

/-- The level some time after a prompt read: the key has expired, or what the read left refills. -/
theorem found_of_prompt (h : e.Prompt) (hstep : fleet.step s e = some s') {nowMs : ℤ}
    (hnow : e.nowMs ≤ nowMs) :
    (e.nowMs + 600000 ≤ nowMs ∧ fleet.foundRpm s' nowMs nowMs = fleet.caps.rpmCap) ∨
      fleet.foundRpm s' nowMs nowMs = refill fleet.caps.rpmCap (fleet.caps.rpmCap / 60000)
        (fleet.row s e).rpmLevel (nowMs - e.nowMs) := by
  have hstored := stored_of_read h.ends_ne hstep
  have hpassed : max 0 ((nowMs : ℚ) - e.nowMs) = nowMs - e.nowMs :=
    max_eq_right (sub_nonneg.mpr (Int.cast_le.mpr hnow))
  rw [foundRpm]
  rcases s'.entry.expire_cases nowMs with ⟨due, hdue, hle, hmissing⟩ | hsame
  · left
    rw [expireAt_of_read h.ends_ne hstep, Option.some.injEq] at hdue
    rw [hmissing]
    exact ⟨by exact_mod_cast hdue ▸ hle, (refilled_missing _ _ _).1⟩
  · right
    rw [hsame, hstored.refilledRpm, h.at_once, hpassed]

/-- As long as every read found something left: what `reads` reads leave. -/
structure Drawn (fleet : IdleFleet) (startMs : ℤ) (reads : ℕ) (s : IdleState fleet.replicas) :
    Prop where
  found_le : ∀ nowMs, s.clockMs ≤ nowMs → fleet.foundRpm s nowMs nowMs + reads
    ≤ fleet.caps.rpmCap + fleet.caps.rpmCap / 60000 * (nowMs - startMs)
  one_le_found : ∀ nowMs, s.clockMs ≤ nowMs → 1 ≤ fleet.foundRpm s nowMs nowMs
  last : ∀ p ∈ s.published.getLast?, (p.rpmRemaining : ℚ) + reads
    ≤ fleet.caps.rpmCap + fleet.caps.rpmCap / 60000 * (s.clockMs - startMs)

theorem Drawn.init (startMs : ℤ) : fleet.Drawn startMs 0 (fleet.init startMs) where
  found_le nowMs hnow := by
    have hpassed : (0 : ℚ) ≤ nowMs - startMs := sub_nonneg.mpr (Int.cast_le.mpr hnow)
    have hrate := div_nonneg fleet.caps.rpmCap_nonneg (show (0 : ℚ) ≤ 60000 by norm_num)
    rw [(found_init startMs nowMs nowMs).1, Nat.cast_zero, add_zero]
    exact le_add_of_nonneg_right (mul_nonneg hrate hpassed)
  one_le_found nowMs _ := by
    rw [(found_init startMs nowMs nowMs).1]
    exact fleet.caps.one_le_rpmCap
  last p hp := by cases hp

theorem Drawn.step {startMs : ℤ} {reads : ℕ} (h : fleet.Drawn startMs reads s)
    (hfull : fleet.TpmFull s) (hprompt : e.Prompt)
    (hpos : ∀ p ∈ s'.published, 1 ≤ p.rpmRemaining) (hstep : fleet.step s e = some s') :
    fleet.Drawn startMs (reads + 1) s' := by
  obtain ⟨⟨⟨hclock, -⟩, -⟩, hs'⟩ := fleet.step_iff.mp hstep
  have hpub := published_of_step hstep
  rw [if_pos hprompt.completes] at hpub
  have hcap := fleet.caps.one_le_rpmCap
  have hread : 1 ≤ ⌊(fleet.row s e).rpmLevel⌋ := by
    refine hpos (fleet.signals _ ⌊(fleet.row s e).tpmLevel⌋) ?_
    rw [hpub]
    exact List.mem_append_right _ List.mem_cons_self
  have hlevel := rpmLevel_of_pos hread (hfull e.readMs e.nowMs)
  rw [hprompt.at_once] at hlevel
  have hone : 1 ≤ (fleet.row s e).rpmLevel := by exact_mod_cast Int.le_floor.mp hread
  have hfound := h.found_le e.nowMs hclock
  have hrate : 0 ≤ fleet.caps.rpmCap / 60000 := div_nonneg fleet.caps.rpmCap_nonneg (by norm_num)
  refine ⟨fun nowMs hnow => ?_, fun nowMs hnow => ?_, fun p hp => ?_⟩
  · replace hnow : e.nowMs ≤ nowMs := by rwa [hs'] at hnow
    push_cast
    rcases found_of_prompt hprompt hstep hnow with ⟨hdue, hrpm⟩ | hrpm
    · have hten : fleet.caps.rpmCap ≤ fleet.caps.rpmCap / 60000 * ((nowMs : ℚ) - e.nowMs) :=
        cap_le_refill fleet.caps.rpmCap_nonneg (by exact_mod_cast hdue)
      rw [hrpm]
      linarith
    · have hle := refill_le_add fleet.caps.rpmCap (fleet.caps.rpmCap / 60000)
        (fleet.row s e).rpmLevel ((nowMs : ℚ) - e.nowMs)
      rw [hrpm]
      linarith
  · replace hnow : e.nowMs ≤ nowMs := by rwa [hs'] at hnow
    rcases found_of_prompt hprompt hstep hnow with ⟨-, hrpm⟩ | hrpm
    · rwa [hrpm]
    · rw [hrpm]
      refine le_min hcap (le_add_of_le_of_nonneg hone (mul_nonneg ?_ hrate))
      exact sub_nonneg.mpr (Int.cast_le.mpr hnow)
  · have hlast : fleet.signals ⌊(fleet.row s e).rpmLevel⌋ ⌊(fleet.row s e).tpmLevel⌋ = p := by
      rw [hpub, List.getLast?_concat] at hp
      exact Option.some.inj hp
    have hfloor : (⌊(fleet.row s e).rpmLevel⌋ : ℚ) ≤ (fleet.row s e).rpmLevel := Int.floor_le _
    subst hlast
    rw [hs']
    push_cast
    change (⌊(fleet.row s e).rpmLevel⌋ : ℚ) + (reads + 1) ≤ _
    linarith

/-- **What a read finds, from above.** -/
theorem found_le_of_run {startMs : ℤ} {es : List (IdleTick fleet.replicas)}
    (hprompt : ∀ e ∈ es, e.Prompt)
    (hrun : Runs.run fleet.step (fleet.init startMs) es = some s)
    (hpos : ∀ p ∈ s.published, 1 ≤ p.rpmRemaining) :
    fleet.Drawn startMs es.length s := by
  have hinv : fleet.TpmFull s ∧ ((∀ p ∈ s.published, 1 ≤ p.rpmRemaining) →
      fleet.Drawn startMs es.length s) := by
    refine Runs.invariant_along (fun _ e => e.Prompt) (fun es s => fleet.TpmFull s ∧
      ((∀ p ∈ s.published, 1 ≤ p.rpmRemaining) → fleet.Drawn startMs es.length s)) ?_ ?_ hrun
      (Runs.along_of_forall es _ hprompt)
    · exact ⟨fun readMs nowMs => (found_init startMs readMs nowMs).2, fun _ => Drawn.init startMs⟩
    · rintro es s e s' ⟨hfull, hdrawn⟩ hprompt hstep
      refine ⟨hfull.step hstep, fun hpos => ?_⟩
      rw [List.length_append, List.length_singleton]
      refine (hdrawn fun p hp => hpos p ?_).step hfull hprompt hpos hstep
      rw [published_of_step hstep, if_pos hprompt.completes]
      exact List.mem_append_left _ hp
  exact hinv.2 hpos

/-! ## 7. The busiest schedule -/

/-- The replicas of `l` tick at `nowMs`, promptly. -/
def roundOf (fleet : IdleFleet) (nowMs : ℤ) (l : List (Fin fleet.replicas)) :
    List (IdleTick fleet.replicas) :=
  l.map fun i => ⟨nowMs, nowMs, i, .completes⟩

/-- Every replica ticks. -/
def round (fleet : IdleFleet) (nowMs : ℤ) : List (IdleTick fleet.replicas) :=
  fleet.roundOf nowMs (List.finRange fleet.replicas)

/-- The instant of round `k`. -/
def roundMs (fleet : IdleFleet) (startMs : ℤ) (k : ℕ) : ℤ :=
  startMs + k * fleet.routing.refreshIntervalMs

/-- All replicas start at once, and then tick every interval, `k` times. -/
def rounds (fleet : IdleFleet) (startMs : ℤ) : ℕ → List (IdleTick fleet.replicas)
  | 0 => fleet.round startMs ++ fleet.round startMs
  | k + 1 => fleet.rounds startMs k ++ fleet.round (fleet.roundMs startMs (k + 1))

theorem length_round (nowMs : ℤ) : (fleet.round nowMs).length = fleet.replicas := by
  rw [round, roundOf, List.length_map, List.length_finRange]

theorem length_rounds (fleet : IdleFleet) (startMs : ℤ) (k : ℕ) :
    (fleet.rounds startMs k).length = fleet.replicas * (k + 2) := by
  induction k with
  | zero => rw [rounds, List.length_append, length_round]; ring
  | succ k ih => rw [rounds, List.length_append, length_round, ih]; ring

theorem prompt_rounds (fleet : IdleFleet) (startMs : ℤ) (k : ℕ) :
    ∀ e ∈ fleet.rounds startMs k, e.Prompt := by
  have hround : ∀ nowMs, ∀ e ∈ fleet.round nowMs, e.Prompt := by
    intro nowMs e he
    obtain ⟨i, -, rfl⟩ := List.mem_map.mp he
    exact ⟨rfl, rfl⟩
  induction k with
  | zero => exact List.forall_mem_append.mpr ⟨hround _, hround _⟩
  | succ k ih => exact List.forall_mem_append.mpr ⟨ih, hround _⟩

/-- Replicas that are due can tick one after another, at one instant. -/
theorem run_roundOf {nowMs : ℤ} {l : List (Fin fleet.replicas)} (hl : l.Nodup)
    {s : IdleState fleet.replicas} (hclock : s.clockMs ≤ nowMs)
    (hdue : ∀ i ∈ l, (s.replicas i).Due fleet.routing.refreshIntervalMs nowMs) :
    ∃ s', Runs.run fleet.step s (fleet.roundOf nowMs l) = some s' ∧ s'.clockMs ≤ nowMs ∧
      (∀ i ∈ l, s'.replicas i = (s.replicas i).tick .completes nowMs) ∧
      ∀ i ∉ l, s'.replicas i = s.replicas i := by
  induction l generalizing s with
  | nil => exact ⟨s, rfl, hclock, nofun, fun _ _ => rfl⟩
  | cons i l ih =>
    obtain ⟨hi, hl⟩ := List.nodup_cons.mp hl
    obtain ⟨m, hm⟩ : ∃ m, fleet.step s ⟨nowMs, nowMs, i, .completes⟩ = some m :=
      ⟨_, fleet.step_iff.mpr ⟨⟨⟨hclock, le_refl _⟩, hdue i List.mem_cons_self⟩, rfl⟩⟩
    have hmeq := (fleet.step_iff.mp hm).2
    have hself : m.replicas i = (s.replicas i).tick .completes nowMs := by
      rw [hmeq]
      exact Function.update_self _ _ _
    have hother : ∀ j, j ≠ i → m.replicas j = s.replicas j := by
      intro j hj
      rw [hmeq]
      exact Function.update_of_ne hj _ _
    have hne : ∀ j ∈ l, j ≠ i := fun j hj hji => hi (hji ▸ hj)
    obtain ⟨s', hrun, hclock', hread, hsame⟩ := ih hl (s := m) (by rw [hmeq]) (by
      intro j hj
      rw [hother j (hne j hj)]
      exact hdue j (List.mem_cons_of_mem _ hj))
    refine ⟨s', Runs.run_cons_iff.mpr ⟨m, hm, hrun⟩, hclock', ?_, ?_⟩
    · intro j hj
      rcases List.mem_cons.mp hj with rfl | hj
      · rw [hsame j hi, hself]
      · rw [hread j hj, hother j (hne j hj)]
    · intro j hj
      rw [List.mem_cons, not_or] at hj
      rw [hsame j hj.2, hother j hj.1]

/-- A round, for all replicas. -/
theorem run_round {nowMs : ℤ} {s : IdleState fleet.replicas} (hclock : s.clockMs ≤ nowMs)
    (hdue : ∀ i, (s.replicas i).Due fleet.routing.refreshIntervalMs nowMs) :
    ∃ s', Runs.run fleet.step s (fleet.round nowMs) = some s' ∧ s'.clockMs ≤ nowMs ∧
      ∀ i, s'.replicas i = (s.replicas i).tick .completes nowMs := by
  obtain ⟨s', hrun, hclock', hread, -⟩ := run_roundOf (List.nodup_finRange fleet.replicas) hclock
    fun i _ => hdue i
  exact ⟨s', hrun, hclock', fun i => hread i (List.mem_finRange i)⟩

/-- The busiest schedule can happen: the loop of each replica ticks every interval. -/
theorem run_rounds (fleet : IdleFleet) (startMs : ℤ) (k : ℕ) :
    ∃ s, Runs.run fleet.step (fleet.init startMs) (fleet.rounds startMs k) = some s ∧
      s.clockMs ≤ fleet.roundMs startMs k ∧
      ∀ i, s.replicas i = .waiting 0 (fleet.roundMs startMs k) := by
  induction k with
  | zero =>
    have hstart : fleet.roundMs startMs 0 = startMs := by
      rw [roundMs, Nat.cast_zero, zero_mul, add_zero]
    obtain ⟨m, hm, hclock, hbooted⟩ := run_round (s := fleet.init startMs) (le_refl startMs)
      fun _ => trivial
    obtain ⟨s, hs, hclock', hread⟩ := run_round hclock fun i => by
      rw [hbooted i]
      exact trivial
    refine ⟨s, Runs.run_append_iff.mpr ⟨m, hm, hs⟩, by rwa [hstart], fun i => ?_⟩
    rw [hread i, hbooted i, hstart]
    rfl
  | succ k ih =>
    obtain ⟨m, hm, hclock, hwaiting⟩ := ih
    have hnext : fleet.roundMs startMs (k + 1)
        = fleet.roundMs startMs k + fleet.routing.refreshIntervalMs := by
      rw [roundMs, roundMs]
      push_cast
      ring
    have hdue : ∀ i, (m.replicas i).Due fleet.routing.refreshIntervalMs
        (fleet.roundMs startMs (k + 1)) := by
      intro i
      rw [hwaiting i, hnext]
      exact le_refl _
    obtain ⟨s, hs, hclock', hread⟩ := run_round (by omega) hdue
    refine ⟨s, Runs.run_append_iff.mpr ⟨m, hm, hs⟩, hclock', fun i => ?_⟩
    rw [hread i, hwaiting i]
    rfl

/-! ## 8. The ticks and waits are the loop's -/

/-- `_loop` never waits less than the fleet does. -/
theorem waitMs_le_of_waitOk {routing : RoutingConfig} {failures : ℕ} {nextWaitS : ℚ}
    (h : WaitOk routing.intervalS failures nextWaitS) :
    (waitMs routing.refreshIntervalMs failures : ℚ) ≤ nextWaitS * 1000 := by
  cases failures with
  | zero =>
    obtain rfl : nextWaitS = routing.intervalS := h
    rw [waitMs, RoutingConfig.intervalS, div_mul_cancel₀ _ (by norm_num)]
  | succ k =>
    have hmin : min 30000 ((routing.refreshIntervalMs : ℚ) * 2 ^ k)
        = min maxBackoffS (routing.intervalS * 2 ^ k) * 1000 := by
      rw [min_mul_of_nonneg _ _ (show (0 : ℚ) ≤ 1000 by norm_num), RoutingConfig.intervalS,
        maxBackoffS]
      congr 1
      · norm_num
      · ring
    have hfloor : (waitMs routing.refreshIntervalMs (k + 1) : ℚ)
        ≤ min 30000 ((routing.refreshIntervalMs : ℚ) * 2 ^ k) / 2 := by
      refine Nat.cast_div_le.trans ?_
      push_cast
      exact le_refl _
    have hhalf := h.1
    rw [Nat.add_sub_cancel] at hhalf
    linarith

/-- A window without observations. -/
theorem aggregate_idle (o : Observer) {r : Redis} {nowS : ℚ} {cand : CandidateRef}
    (hquiet : ∀ sec, r.get? (observeKey cand.provider cand.model sec) = none) :
    o.aggregate r nowS cand = idleAggregate := by
  have hsum : ∀ field, (((intRange (toInt nowS - o.windowS) (toInt nowS + 1)).map fun sec =>
      r.read (nowS * 1000) (observeKey cand.provider cand.model sec)).map
        fun e => e.count field).sum = 0 := by
    intro field
    refine List.sum_eq_zero fun x hx => ?_
    obtain ⟨e, he, rfl⟩ := List.mem_map.mp hx
    obtain ⟨sec, -, rfl⟩ := List.mem_map.mp he
    rw [Redis.read, hquiet sec]
    rfl
  simp only [Observer.aggregate, hsum]
  rfl

section Tick

variable {task : RefreshTask} {r : Redis} {nowS : ℚ} {s : RefreshState}
  {agg : WindowAggregate} {pending : List RatedCandidate} {out : Dict CandidateRef CandidateSignals}

/-- A tick on an idle candidate finds an empty window... -/
theorem tick_aggregates (hpc : s.pc = .aggregating fleet.cand pending out)
    (hquiet : ∀ sec,
      r.get? (observeKey fleet.cand.ref.provider fleet.cand.ref.model sec) = none) :
    task.step r nowS s
      = some (r, { s with pc := .budgeting fleet.cand idleAggregate pending out }) := by
  simp only [RefreshTask.step, hpc, aggregate_idle task.observer hquiet]

/-- ...reads the level as the fleet does, on the state under the key of the bucket... -/
theorem tick_reads (hbucket : task.bucket = fleet.bucket)
    (hpc : s.pc = .budgeting fleet.cand agg pending out) {nowMs : ℤ} (hnow : nowS * 1000 = nowMs) :
    let key := bucketKey fleet.cand.ref.provider fleet.cand.ref.model
    let row := acquireRow fleet.caps (r.read nowMs key) nowMs 0
    task.step r nowS s = some
      (r.set key (callState fleet.caps (r.read nowMs key) (.acquire nowMs 0)),
        { s with pc := .stating fleet.cand agg ⌊row.rpmLevel⌋ ⌊row.tpmLevel⌋ pending out }) := by
  simp only [RefreshTask.step, hpc, RedisTokenBucket.remainingAt, hbucket, hnow, toInt_intCast,
    fleet.remaining_eq, Except.map]

/-- ...and publishes the signals of the fleet, if the breaker is closed. -/
theorem tick_publishes {rpm tpm : ℤ}
    (hpc : s.pc = .stating fleet.cand idleAggregate rpm tpm pending out)
    (hclosed : (s.snapshot.seed r nowS).state fleet.cand.ref.provider fleet.cand.ref.model
      = .closed) :
    task.step r nowS s = some (r, RefreshTask.nextCandidate
      { s with snapshot := s.snapshot.seed r nowS } pending
      (out.set fleet.cand.ref (fleet.signals rpm tpm))) := by
  simp only [RefreshTask.step, hpc, hclosed, signals]

end Tick

/-! ## 9. When idle refreshing starves nobody -/

/-- In every run of such ticks everything that is published feeds the candidate. -/
def NeverStarved (fleet : IdleFleet) (startMs : ℤ) (ticks : IdleTick fleet.replicas → Prop) :
    Prop :=
  ∀ es s, (∀ e ∈ es, ticks e) → Runs.run fleet.step (fleet.init startMs) es = some s →
    ∀ p ∈ s.published, fleet.Fed p

/-- No bucket lets a replica read all the time. -/
theorem Sustainable.period_pos (h : fleet.Sustainable periodMs) (i : Fin fleet.replicas) :
    0 < periodMs := by
  by_contra hle
  have hreplicas : (0 : ℚ) < fleet.replicas := Nat.cast_pos.mpr i.pos
  have hnone : (fleet.cand.rateLimits.rpm : ℚ) * periodMs ≤ 0 :=
    mul_nonpos_of_nonneg_of_nonpos (Nat.cast_nonneg _) (not_lt.mp hle)
  have hpace := h.pace
  linarith

/-- A bucket that is large enough for the pace of the ticks. -/
theorem neverStarved_of_sustainable {ticks : IdleTick fleet.replicas → Prop}
    (hkeeps : ∀ e, ticks e → fleet.Keeps periodMs e) (h : fleet.Sustainable periodMs)
    (startMs : ℤ) : fleet.NeverStarved startMs ticks := by
  intro es s hticks hrun p hpub
  cases es with
  | nil =>
    cases hrun
    cases hpub
  | cons e es =>
    have hp := h.period_pos e.replica
    have hpaid := found_ge_of_run hp h.pace (fun e he => hkeeps e (hticks e he)) hrun
    exact fed_of_ample h (hpaid.ample p hpub)

section Completed

variable {startMs : ℤ} (h : fleet.NeverStarved startMs (·.ends = .completes))
include h

/-- What the busiest schedule leaves, if nobody is starved. -/
theorem NeverStarved.rounds (k : ℕ) :
    ∃ s, Runs.run fleet.step (fleet.init startMs) (fleet.rounds startMs k) = some s ∧
      s.clockMs ≤ fleet.roundMs startMs k ∧
      fleet.Drawn startMs (fleet.replicas * (k + 2)) s := by
  obtain ⟨s, hrun, hclock, -⟩ := fleet.run_rounds startMs k
  refine ⟨s, hrun, hclock, ?_⟩
  rw [← fleet.length_rounds startMs k]
  have hprompt := fleet.prompt_rounds startMs k
  exact found_le_of_run hprompt hrun fun p hp =>
    (h _ _ (fun e he => (hprompt e he).completes) hrun p hp).rpm_pos

/-- The bucket must pay for the busiest schedule. -/
theorem NeverStarved.reads_le (k : ℕ) :
    (fleet.replicas : ℚ) * (k + 2) + 1 ≤ fleet.cand.rateLimits.rpm
      + fleet.cand.rateLimits.rpm / 60000 * (k * fleet.routing.refreshIntervalMs) := by
  obtain ⟨s, -, hclock, hdrawn⟩ := h.rounds k
  have hle := hdrawn.found_le _ hclock
  have hone := hdrawn.one_le_found _ hclock
  have hpassed : ((fleet.roundMs startMs k : ℤ) : ℚ) - startMs
      = k * fleet.routing.refreshIntervalMs := by
    rw [roundMs]
    push_cast
    ring
  have hcap : fleet.caps.rpmCap = fleet.cand.rateLimits.rpm := rfl
  rw [hpassed, hcap] at hle
  push_cast at hle
  linarith

/-- Two requests for each replica, and one that is seen. -/
theorem NeverStarved.burst : 2 * fleet.replicas + 1 ≤ fleet.cand.rateLimits.rpm := by
  have hreads := h.reads_le 0
  rw [Nat.cast_zero, zero_mul, mul_zero, add_zero, zero_add, mul_comm] at hreads
  exact_mod_cast hreads

/-- One request for each replica an interval.  If the refill fell short of that, it would be short
of a whole bucket after `60000 * rpm` rounds. -/
theorem NeverStarved.pace :
    (60000 : ℚ) * fleet.replicas
      ≤ fleet.cand.rateLimits.rpm * fleet.routing.refreshIntervalMs := by
  by_contra hslow
  have hshort : (fleet.cand.rateLimits.rpm : ℚ) * fleet.routing.refreshIntervalMs + 1
      ≤ 60000 * fleet.replicas := by exact_mod_cast not_le.mp hslow
  have hlost := mul_le_mul_of_nonneg_left hshort
    (Nat.cast_nonneg (α := ℚ) fleet.cand.rateLimits.rpm)
  have hreads := h.reads_le (60000 * fleet.cand.rateLimits.rpm)
  have hreplicas : (0 : ℚ) ≤ fleet.replicas := Nat.cast_nonneg _
  push_cast at hreads
  linarith

/-- The burst is published, if there is a replica. -/
theorem NeverStarved.exists_left (hreplicas : 0 < fleet.replicas) :
    ∃ rpm : ℤ, (rpm : ℚ) ≤ fleet.cand.rateLimits.rpm - 2 * fleet.replicas ∧
      fleet.Fed (fleet.signals rpm fleet.cand.rateLimits.tpm) := by
  obtain ⟨s, hrun, hclock, hdrawn⟩ := h.rounds 0
  have hends : ∀ e ∈ fleet.rounds startMs 0, e.ends = .completes :=
    fun e he => (fleet.prompt_rounds startMs 0 e he).completes
  have hsome : fleet.rounds startMs 0 ≠ [] := by
    refine List.ne_nil_of_length_pos ?_
    rw [length_rounds]
    omega
  obtain ⟨es, e, hes⟩ := (List.eq_nil_or_concat' _).resolve_left hsome
  rw [hes] at hrun hends
  obtain ⟨m, -, hstep⟩ := Runs.run_concat_iff.mp hrun
  obtain ⟨p, hp⟩ : ∃ p, s.published.getLast? = some p := by
    rw [published_of_step hstep, if_pos (hends e (List.mem_append_right _ List.mem_cons_self)),
      List.getLast?_concat]
    exact ⟨_, rfl⟩
  have hmem := List.mem_of_getLast? hp
  have hinterval : (0 : ℚ) < fleet.routing.refreshIntervalMs :=
    Nat.cast_pos.mpr fleet.routing.refreshIntervalMs_pos
  have hpaid := found_ge_of_run hinterval h.pace
    (fun e he => keeps_intervalMs (hends e he)) hrun
  obtain ⟨rpm, -, rfl⟩ := hpaid.ample p hmem
  refine ⟨rpm, ?_, h _ s hends hrun _ hmem⟩
  -- no time has passed, so nothing is refilled
  have hlast := hdrawn.last _ hp
  have hpassed : ((s.clockMs : ℤ) : ℚ) - startMs ≤ 0 := by
    have hstart : s.clockMs ≤ startMs := by simpa [roundMs] using hclock
    exact sub_nonpos.mpr (Int.cast_le.mpr hstart)
  have hrefill := mul_nonpos_of_nonneg_of_nonpos
    (div_nonneg fleet.caps.rpmCap_nonneg (show (0 : ℚ) ≤ 60000 by norm_num)) hpassed
  have hcap : fleet.caps.rpmCap = fleet.cand.rateLimits.rpm := rfl
  rw [hcap] at hlast hrefill
  push_cast at hlast
  change (rpm : ℚ) + fleet.replicas * 2 ≤ _ at hlast
  linarith

/-- The floor must be low enough for what the burst leaves. -/
theorem NeverStarved.floor (hbase : 0 < fleet.cand.baseWeight)
    (hfloor : fleet.routing.minWeightFloor ≤ fleet.cand.baseWeight) :
    fleet.routing.minWeightFloor * fleet.cand.rateLimits.rpm
      ≤ fleet.cand.baseWeight * (fleet.cand.rateLimits.rpm - 2 * fleet.replicas) := by
  rcases Nat.eq_zero_or_pos fleet.replicas with hnone | hreplicas
  · rw [hnone, Nat.cast_zero, mul_zero, sub_zero]
    exact mul_le_mul_of_nonneg_right hfloor (Nat.cast_nonneg _)
  · obtain ⟨rpm, hleft, hfed⟩ := h.exists_left hreplicas
    have hone : 1 ≤ rpm := hfed.rpm_pos
    have hweight := hfed.weight_pos (full_weight_pos_iff.mpr ⟨hbase, hfloor⟩)
    exact (floor_le_of_weight_pos hbase.le (zero_le_one.trans hone) hweight).trans
      (mul_le_mul_of_nonneg_left hleft hbase.le)

end Completed

/-- **When idle refreshing starves nobody**, as long as no tick fails, and whatever fails. -/
theorem idle_fed_iff (fleet : IdleFleet) (startMs : ℤ) :
    (fleet.NeverStarved startMs (·.ends = .completes) ↔
        fleet.Sustainable fleet.routing.refreshIntervalMs) ∧
      (fleet.Sustainable fleet.retryMs → fleet.NeverStarved startMs fun _ => True) := by
  refine ⟨⟨fun h => ⟨h.burst, h.pace, h.floor⟩, fun h => ?_⟩, fun h => ?_⟩
  · exact neverStarved_of_sustainable (fun _ => keeps_intervalMs) h startMs
  · exact neverStarved_of_sustainable (fun e _ => keeps_retryMs e) h startMs

/-- One replica and one candidate. -/
def lone (routing : RoutingConfig) (limits : RateLimitEntry) : IdleFleet where
  replicas := 1
  routing := routing
  bucket := ⟨Dict.ofList [("openai/gpt-4o-mini", limits)]⟩
  cand := ⟨⟨"openai", "gpt-4o-mini"⟩, 1, limits⟩
  limits_ok := rfl

/-- The pace of completed ticks is not enough when one fails: here a tick a minute, three requests a
minute, and the next tick fifteen seconds after the one that has failed. -/
example :
    let fleet := lone { refreshIntervalMs := 60000 } ⟨3, 1000, by decide, by decide⟩
    60000 * fleet.replicas ≤ fleet.cand.rateLimits.rpm * fleet.routing.refreshIntervalMs ∧
      ((Runs.run fleet.step (fleet.init 0)
        ([⟨0, 0, 0, .completes⟩, ⟨0, 0, 0, .failsAfter⟩, ⟨15000, 15000, 0, .completes⟩] :
          List (IdleTick 1))).any fun s => s.published.any fun p => p.rpmRemaining = 0) = true := by
  decide +kernel

/-- Default knobs, and a candidate that may be called twice a minute. -/
def tightFleet : IdleFleet := lone RoutingConfig.default twicePerMinute

/-- The tick before it serves, and the first tick of its loop. -/
def bootTicks : List (IdleTick 1) := [⟨0, 0, 0, .completes⟩, ⟨0, 0, 0, .completes⟩]

/-- **Observation alone**: after two ticks the candidate, which no request was routed to, is
published as exhausted, and `pick` skips it. -/
theorem idle_starves : ∃ s, Runs.run tightFleet.step (tightFleet.init 0) bootTicks = some s ∧
    ∃ p ∈ s.published, p.rpmRemaining = 0 ∧ p.weight tightFleet.routing = 0 ∧
      0 < tightFleet.fullSignals.weight tightFleet.routing ∧ ¬ tightFleet.Fed p := by
  have hrun : (Runs.run tightFleet.step (tightFleet.init 0) bootTicks).any (fun s =>
      s.published.any fun p => p.rpmRemaining = 0 ∧ p.weight tightFleet.routing = 0 ∧
        0 < tightFleet.fullSignals.weight tightFleet.routing) = true := by
    decide +kernel
  obtain ⟨s, hs, hany⟩ := (Option.any_eq_true _ _).mp hrun
  obtain ⟨p, hp, hdry⟩ := List.any_eq_true.mp hany
  obtain ⟨hrpm, hweight, hfull⟩ := of_decide_eq_true hdry
  refine ⟨s, hs, p, hp, hrpm, hweight, hfull, fun hfed => ?_⟩
  have hone := hfed.rpm_pos
  omega

end IdleFleet

end Librouter
