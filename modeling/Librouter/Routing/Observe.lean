/-
# `routing/observe.py`: the observation window

One Redis hash per candidate and second, with the successes, the failures and the latencies;
`aggregate` sums the window the weight engine looks at.
-/
import Librouter.RedisState
import Librouter.Models

namespace Librouter

/-- `WindowAggregate`. -/
structure WindowAggregate where
  successes : ℤ
  failures : ℤ
  total : ℤ
  meanLatencyS : ℚ
  errorRate : ℚ

/-- `Observer`, with its default. -/
structure Observer where
  windowS : ℕ := 60

namespace Observer

variable (o : Observer)

/-- A pipeline of `HINCRBY`s under the key of the current second, and its `EXPIRE`; executed at
`nowS`. -/
def record (r : Redis) (nowS : ℚ) (cand : CandidateRef) (incrs : List (String × ℤ)) : Redis :=
  r.write (nowS * 1000) (observeKey cand.provider cand.model (toInt nowS)) fun e =>
    (incrs.foldl (fun e i => e.hincrby i.1 i.2) e).pexpire (nowS * 1000) (o.windowS * 4 * 1000)

/-- `record_success`. -/
def recordSuccess (r : Redis) (nowS : ℚ) (cand : CandidateRef) (latencyS : ℚ) : Redis :=
  o.record r nowS cand
    [("successes", 1), ("latency_sum_ms", toInt (latencyS * 1000)), ("latency_count", 1)]

/-- `record_failure`. -/
def recordFailure (r : Redis) (nowS : ℚ) (cand : CandidateRef) (kind : String) : Redis :=
  o.record r nowS cand [("failures", 1), ("fail_" ++ kind, 1)]

/-- `aggregate`, executed at `nowS`. -/
def aggregate (r : Redis) (nowS : ℚ) (cand : CandidateRef) : WindowAggregate :=
  let now := toInt nowS
  let rows := (intRange (now - o.windowS) (now + 1)).map fun sec =>
    r.read (nowS * 1000) (observeKey cand.provider cand.model sec)
  let sum := fun field => (rows.map fun e => e.count field).sum
  let successes := sum "successes"
  let failures := sum "failures"
  let latencySumMs := sum "latency_sum_ms"
  let latencyCount := sum "latency_count"
  let total := successes + failures
  { successes := successes
    failures := failures
    total := total
    meanLatencyS := if latencyCount = 0 then 0 else (latencySumMs : ℚ) / latencyCount / 1000
    errorRate := if total = 0 then 0 else (failures : ℚ) / total }

end Observer

end Librouter
