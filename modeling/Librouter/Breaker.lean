/-
# `breaker.py`: the circuit breaker per (provider, model)

Successes and failures are counted in one Redis hash per second.  `refresh_snapshot` lists the
candidates that have such hashes (`SCAN`), sums the last `window_s` seconds of each, and replaces
the snapshot the replica decides from.

The coroutine is split at its Redis commands: this module has what is computed between them, and
`Routing.Refresh` runs it as part of a tick.
-/
import Librouter.RedisState

namespace Librouter

/-! ## 1. States and knobs -/

/-- `BreakerState`. -/
inductive BreakerState
  | closed
  | halfOpen
  | opened
deriving DecidableEq

/-- `_SnapshotEntry`. -/
structure SnapshotEntry where
  state : BreakerState
  openedAtS : ℚ
  samples : ℤ
  failures : ℤ
  halfOpenedAtS : ℚ := 0
deriving DecidableEq

/-- `_snapshot`, by provider and model. -/
abbrev Snapshot := Dict (String × String) SnapshotEntry

/-- The knobs of `BreakerSet`, with their defaults.  With `min_samples` 0 an empty window would
divide by zero. -/
structure BreakerSet where
  windowS : ℚ := 30
  minSamples : ℕ := 20
  openDurationS : ℚ := 30
  failureThreshold : ℚ := 3 / 10
  minSamples_pos : 0 < minSamples := by decide

/-! ## 2. Recording -/

/-- `_sample_key`. -/
def sampleKey (provider model : String) (epochSec : ℤ) : String :=
  "gw:brk:" ++ provider ++ ":" ++ model ++ ":samples:" ++ toString epochSec

namespace BreakerSet

variable (b : BreakerSet)

/-- `_increment`, executed at `nowS`. -/
def increment (r : Redis) (nowS : ℚ) (provider model field : String) : Redis :=
  r.write (nowS * 1000) (sampleKey provider model (toInt nowS)) fun e =>
    (e.hincrby field 1).pexpire (nowS * 1000) (toInt b.windowS * 4 * 1000)

/-- `record_success`. -/
def recordSuccess (r : Redis) (nowS : ℚ) (provider model : String) : Redis :=
  b.increment r nowS provider model "successes"

/-- `record_failure`. -/
def recordFailure (r : Redis) (nowS : ℚ) (provider model : String) : Redis :=
  b.increment r nowS provider model "failures"

end BreakerSet

/-! ## 3. The snapshot -/

/-- `match="gw:brk:*:samples:*"`. -/
def isSampleKey (key : String) : Bool :=
  "gw:brk:".toList.isPrefixOf key.toList && occursIn ":samples:".toList (key.toList.drop 7)

/-- The candidate a sample key is read as. -/
def sampleKeyCandidate (key : String) : Option (String × String) :=
  match splitStr ":samples:".toList (key.toList.drop 7) with
  | [pm, _] => (splitFirst ':' pm).map fun c => (String.ofList c.1, String.ofList c.2)
  | _ => none

/-- The entry of a candidate that is seen for the first time. -/
def SnapshotEntry.fresh : SnapshotEntry := ⟨.closed, 0, 0, 0, 0⟩

/-- `_seed_snapshot_from_keys`, executed at `nowS`. -/
def Snapshot.seed (snapshot : Snapshot) (r : Redis) (nowS : ℚ) : Snapshot :=
  ((r.scan (nowS * 1000) isSampleKey).filterMap sampleKeyCandidate).foldl
    (fun s cand => s.setDefault cand .fresh) snapshot

/-- What `state` answers from the snapshot, after it has seeded it. -/
def Snapshot.state (snapshot : Snapshot) (provider model : String) : BreakerState :=
  ((snapshot.get? (provider, model)).map SnapshotEntry.state).getD .closed

/-- `hmget(sk, "successes", "failures")` of several keys, summed. -/
def sumSamples (r : Redis) (nowS : ℚ) (keys : List String) : ℤ × ℤ :=
  let rows := keys.map fun k => r.read (nowS * 1000) k
  ((rows.map fun e => e.count "successes").sum, (rows.map fun e => e.count "failures").sum)

/-- The sample keys of a candidate for the seconds from `a` to `b`. -/
def sampleKeys (cand : String × String) (a b : ℤ) : List String :=
  (intRange a (b + 1)).map (sampleKey cand.1 cand.2)

namespace BreakerSet

variable (b : BreakerSet)

/-- `_enumerate_sample_keys`, grouped by candidate. -/
def enumerateSampleKeys (snapshot : Snapshot) (now : ℚ) :
    List ((String × String) × List String) :=
  (snapshot.keys.map fun cand => (cand, sampleKeys cand (toInt (now - b.windowS)) (toInt now))).filter
    fun p => p.2 ≠ []

/-- `_compute_next_state`. -/
def computeNextState (prev : Option SnapshotEntry) (total failures : ℤ) (now : ℚ)
    (postHalfOpen : Option (ℤ × ℤ)) : SnapshotEntry :=
  let curState := (prev.map SnapshotEntry.state).getD .closed
  let openedAt := (prev.map SnapshotEntry.openedAtS).getD 0
  let halfOpenedAt := (prev.map SnapshotEntry.halfOpenedAtS).getD 0
  match curState with
  | .opened => ⟨.opened, openedAt, total, failures, halfOpenedAt⟩
  | .halfOpen =>
    match postHalfOpen with
    | some (hoSucc, hoFail) =>
      if 0 < hoFail then ⟨.opened, now, total, failures, 0⟩
      else if 0 < hoSucc then ⟨.closed, 0, total, failures, 0⟩
      else ⟨.halfOpen, openedAt, total, failures, halfOpenedAt⟩
    | none => ⟨.halfOpen, openedAt, total, failures, halfOpenedAt⟩
  | .closed =>
    if (b.minSamples : ℤ) ≤ total ∧ b.failureThreshold ≤ (failures : ℚ) / total then
      ⟨.opened, now, total, failures, 0⟩
    else ⟨.closed, 0, total, failures, 0⟩

/-- `_transition_after_window_into`. -/
def transitionAfterWindow (snapshot : Snapshot) (now : ℚ) : Snapshot :=
  snapshot.items.foldl (fun s e =>
    if e.2.state = .opened ∧ b.openDurationS ≤ now - e.2.openedAtS then
      s.set e.1 { e.2 with state := .halfOpen, halfOpenedAtS := now }
    else s) snapshot

end BreakerSet

/-! ## 4. Without sample keys -/

/-- Nothing was ever recorded. -/
def Redis.NoSamples (r : Redis) : Prop := ∀ k ∈ r.keys, isSampleKey k = false

/-- **Where no key matches the `SCAN`, seeding adds no candidate.** -/
theorem Snapshot.seed_of_noSamples {r : Redis} (h : r.NoSamples)
    (snapshot : Snapshot) (nowS : ℚ) : snapshot.seed r nowS = snapshot := by
  have hscan : r.scan (nowS * 1000) isSampleKey = [] := by
    refine List.eq_nil_iff_forall_not_mem.mpr fun k hk => ?_
    obtain ⟨hmem, hmatch⟩ := Redis.mem_keys_of_mem_scan hk
    rw [h k hmem] at hmatch
    cases hmatch
  rw [seed, hscan]
  rfl

theorem Redis.noSamples_empty : Redis.NoSamples Dict.empty := fun k hk => by cases hk

theorem Redis.NoSamples.set {r : Redis} (h : r.NoSamples) {key : String}
    (hkey : isSampleKey key = false) (e : RedisEntry) : Redis.NoSamples (r.set key e) := by
  intro k hk
  rcases Dict.mem_keys_set.mp hk with rfl | hk
  · exact hkey
  · exact h k hk

@[simp] theorem Snapshot.state_empty (provider model : String) :
    Snapshot.state Dict.empty provider model = .closed := rfl

@[simp] theorem BreakerSet.enumerateSampleKeys_empty (b : BreakerSet) (now : ℚ) :
    b.enumerateSampleKeys Dict.empty now = [] := rfl

@[simp] theorem BreakerSet.transitionAfterWindow_empty (b : BreakerSet) (now : ℚ) :
    b.transitionAfterWindow Dict.empty now = Dict.empty := rfl

/-- Buckets and observations are under other prefixes. -/
theorem isSampleKey_bucketKey (provider model : String) :
    isSampleKey (bucketKey provider model) = false := by
  simp [isSampleKey, bucketKey, String.toList_append]

theorem isSampleKey_observeKey (provider model : String) (epochSec : ℤ) :
    isSampleKey (observeKey provider model epochSec) = false := by
  simp [isSampleKey, observeKey, String.toList_append]

end Librouter
