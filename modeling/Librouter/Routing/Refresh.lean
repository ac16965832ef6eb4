/-
# `routing/refresh.py`: a tick of the refresh task

`tick` refreshes the breaker snapshot, builds the signals of every candidate from its observation
window, its bucket and its breaker, and hands them to the weight engine.  Each of its Redis
commands is an await (`RefreshTask.step`): the requests in flight go on between any two of them.
A command and the reading of the clock for it are one step, except that `refresh_snapshot` reads
the clock once, at the beginning (`RefreshTask.start`).
-/
import Librouter.Ratelimit
import Librouter.Routing.Observe
import Librouter.Routing.Weights

namespace Librouter

/-! ## 1. Candidates -/

/-- A candidate of `_all_candidates`: base weight and limits. -/
structure RatedCandidate where
  ref : CandidateRef
  baseWeight : ℚ
  rateLimits : RateLimitEntry

/-- `_all_candidates`: of two entries for one candidate the first wins. -/
def Config.allCandidates (cfg : Config) : List RatedCandidate :=
  let seen := (cfg.tiers.values.flatMap TierConfig.candidates).foldl
    (fun seen t => seen.setDefault t.ref (t.weight, t.rateLimits)) Dict.empty
  seen.items.map fun e => ⟨e.1, e.2.1, e.2.2⟩

/-- The signals `build_signals` puts together for a candidate. -/
def RatedCandidate.signals (c : RatedCandidate) (agg : WindowAggregate)
    (rpmRemaining tpmRemaining : ℤ) (breaker : BreakerState) : CandidateSignals where
  baseWeight := c.baseWeight
  errorRate := agg.errorRate
  meanLatencyS := agg.meanLatencyS
  rpmRemaining := rpmRemaining
  rpmCap := c.rateLimits.rpm
  tpmRemaining := tpmRemaining
  tpmCap := c.rateLimits.tpm
  breaker := breaker

/-! ## 2. A tick -/

/-- What `RefreshTask` is built from. -/
structure RefreshTask where
  cfg : Config
  observer : Observer
  bucket : RedisTokenBucket
  breakers : BreakerSet
  availableProviders : List String

/-- Where a tick stands; `fresh` is the new snapshot and `out` the new signals so far. -/
inductive TickPc
  | idle
  /-- in the `SCAN` of `refresh_snapshot` -/
  | seeding (now : ℚ)
  /-- in the pipeline for the first of `pending` -/
  | sampling (now : ℚ) (cand : String × String) (keys : List String)
      (pending : List ((String × String) × List String)) (fresh : Snapshot)
  /-- in the second pipeline, for a half-open candidate -/
  | probing (now : ℚ) (cand : String × String) (entry : SnapshotEntry) (total failures : ℤ)
      (pending : List ((String × String) × List String)) (fresh : Snapshot)
  /-- in `observer.aggregate(...)` -/
  | aggregating (cand : RatedCandidate) (pending : List RatedCandidate)
      (out : Dict CandidateRef CandidateSignals)
  /-- in `bucket.remaining(...)` -/
  | budgeting (cand : RatedCandidate) (agg : WindowAggregate) (pending : List RatedCandidate)
      (out : Dict CandidateRef CandidateSignals)
  /-- in the `SCAN` of `breakers.state(...)` -/
  | stating (cand : RatedCandidate) (agg : WindowAggregate) (rpmRemaining tpmRemaining : ℤ)
      (pending : List RatedCandidate) (out : Dict CandidateRef CandidateSignals)

/-- What a replica keeps between ticks, and where the current one stands. -/
structure RefreshState where
  /-- `BreakerSet._snapshot` -/
  snapshot : Snapshot := Dict.empty
  /-- `WeightEngine._cache` -/
  cache : Dict CandidateRef CandidateSignals := Dict.empty
  pc : TickPc := .idle

/-- No tick is in progress. -/
def RefreshState.isIdle (s : RefreshState) : Bool :=
  match s.pc with
  | .idle => true
  | _ => false

namespace RefreshTask

variable (task : RefreshTask)

/-- The candidates `build_signals` goes through. -/
def candidates : List RatedCandidate :=
  task.cfg.allCandidates.filter fun c => c.ref.provider ∈ task.availableProviders

/-- On to the next candidate, or to `update_cache`. -/
def nextCandidate (s : RefreshState) (pending : List RatedCandidate)
    (out : Dict CandidateRef CandidateSignals) : RefreshState :=
  match pending with
  | [] => { s with cache := out, pc := .idle }
  | cand :: rest => { s with pc := .aggregating cand rest out }

/-- On to the samples of the next candidate, or to the swap of the snapshot. -/
def nextSample (s : RefreshState) (now : ℚ) (pending : List ((String × String) × List String))
    (fresh : Snapshot) : RefreshState :=
  match pending with
  | [] =>
    nextCandidate { s with snapshot := task.breakers.transitionAfterWindow fresh now }
      task.candidates Dict.empty
  | (cand, keys) :: rest => { s with pc := .sampling now cand keys rest fresh }

/-- `tick()` is called. -/
def start (nowS : ℚ) (s : RefreshState) : Option RefreshState :=
  match s.pc with
  | .idle => some { s with pc := .seeding nowS }
  | _ => none

/-- The tick raises, and is given up. -/
def abort (s : RefreshState) : Option RefreshState :=
  match s.pc with
  | .idle => none
  | _ => some { s with pc := .idle }

/-- The command the tick waits for is executed at `nowS`, and the tick goes on to the next one.  A
candidate without limits is a `KeyError`: then there is only `abort`. -/
def step (r : Redis) (nowS : ℚ) (s : RefreshState) : Option (Redis × RefreshState) :=
  match s.pc with
  | .idle => none
  | .seeding now =>
    let snapshot := s.snapshot.seed r nowS
    some (r, task.nextSample { s with snapshot := snapshot } now
      (task.breakers.enumerateSampleKeys snapshot now) snapshot)
  | .sampling now cand keys pending fresh =>
    let (successes, failures) := sumSamples r nowS keys
    let total := successes + failures
    match s.snapshot.get? cand with
    | some entry =>
      if entry.state = .halfOpen then
        some (r, { s with pc := .probing now cand entry total failures pending fresh })
      else
        some (r, task.nextSample s now pending
          (fresh.set cand (task.breakers.computeNextState (some entry) total failures now none)))
    | none =>
      some (r, task.nextSample s now pending
        (fresh.set cand (task.breakers.computeNextState none total failures now none)))
  | .probing now cand entry total failures pending fresh =>
    let probes := sumSamples r nowS (sampleKeys cand (toInt entry.halfOpenedAtS) (toInt now))
    some (r, task.nextSample s now pending
      (fresh.set cand (task.breakers.computeNextState (some entry) total failures now (some probes))))
  | .aggregating cand pending out =>
    some (r, { s with pc := .budgeting cand (task.observer.aggregate r nowS cand.ref) pending out })
  | .budgeting cand agg pending out =>
    match task.bucket.remainingAt r nowS cand.ref with
    | .ok (r', rpm, tpm) => some (r', { s with pc := .stating cand agg rpm tpm pending out })
    | .error _ => none
  | .stating cand agg rpm tpm pending out =>
    let snapshot := s.snapshot.seed r nowS
    let brk := snapshot.state cand.ref.provider cand.ref.model
    some (r, nextCandidate { s with snapshot := snapshot } pending
      (out.set cand.ref (cand.signals agg rpm tpm brk)))

end RefreshTask

end Librouter
