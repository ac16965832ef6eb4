/-
# `ratelimit.py`: the token bucket per (provider, model)

`RedisTokenBucket` turns a `RateLimitEntry` into a call of `RATELIMIT_LUA`: the caps are the
per-minute limits, each dimension refills `cap / 60000` per millisecond, and `remaining` is an
acquire of zero tokens.

The results are about whole runs on one bucket key: a run is any list of acquires, clamps and
expiries (`BucketCall`), and its log is the list of its acquires (`runCalls`).  This module has
the runs and what a single acquire does; `Ratelimit.Window` and `Ratelimit.Skew` have the bounds.
-/
import Librouter.Models
import Librouter.RedisState

namespace Librouter

open TokenBucket

/-! ## 1. `RedisTokenBucket` -/

/-- The caps of one bucket.  Every `RateLimitEntry` gives one. -/
structure BucketCaps where
  rpmCap : ℚ
  tpmCap : ℚ
  one_le_rpmCap : 1 ≤ rpmCap
  one_le_tpmCap : 1 ≤ tpmCap

/-- The caps a `RateLimitEntry` configures. -/
def RateLimitEntry.caps (entry : RateLimitEntry) : BucketCaps where
  rpmCap := entry.rpm
  tpmCap := entry.tpm
  one_le_rpmCap := by exact_mod_cast entry.rpm_pos
  one_le_tpmCap := by exact_mod_cast entry.tpm_pos

/-- The arguments `RedisTokenBucket` passes to `RATELIMIT_LUA`. -/
def BucketCaps.acquireArgs (c : BucketCaps) (nowMs requestTokens : ℚ) : RatelimitArgs where
  nowMs := nowMs
  rpmCap := c.rpmCap
  tpmCap := c.tpmCap
  refillRpmPm := c.rpmCap / 60000
  refillTpmPm := c.tpmCap / 60000
  reqTokens := requestTokens

/-- `_candidate_key`. -/
def candidateKey (provider model : String) : String := provider ++ "/" ++ model

/-- `RedisTokenBucket`: the rate-limits map, keyed by `_candidate_key`. -/
structure RedisTokenBucket where
  limits : Dict String RateLimitEntry

/-- The `KeyError` of `_entry`. -/
def noEntryError (provider model : String) : String :=
  "no rate_limits entry for '" ++ provider ++ "'/'" ++ model ++ "'"

/-- `_entry`. -/
def RedisTokenBucket.entry (b : RedisTokenBucket) (provider model : String) :
    Except String RateLimitEntry :=
  match b.limits.get? (candidateKey provider model) with
  | some e => .ok e
  | none => .error (noEntryError provider model)

/-- `try_acquire`, on the state stored under the candidate's bucket key. -/
def RedisTokenBucket.tryAcquire (b : RedisTokenBucket) (provider model : String)
    (requestTokens : ℕ) (nowMs : ℚ) (e : RedisEntry) :
    Except String (RedisEntry × RatelimitReply) :=
  (b.entry provider model).map fun entry =>
    ratelimitLua e (entry.caps.acquireArgs nowMs requestTokens)

/-- `remaining`: an acquire of zero tokens, which still takes one request. -/
def RedisTokenBucket.remaining (b : RedisTokenBucket) (provider model : String) (nowMs : ℚ)
    (e : RedisEntry) : Except String (RedisEntry × ℤ × ℤ) :=
  (b.tryAcquire provider model 0 nowMs e).map fun r =>
    (r.1, r.2.rpmRemaining, r.2.tpmRemaining)

/-- `try_acquire`, executed at `nowS`. -/
def RedisTokenBucket.acquireAt (b : RedisTokenBucket) (r : Redis) (nowS : ℚ) (cand : CandidateRef)
    (requestTokens : ℕ) : Except String (Redis × RatelimitReply) :=
  let key := bucketKey cand.provider cand.model
  (b.tryAcquire cand.provider cand.model requestTokens (toInt (nowS * 1000))
    (r.read (nowS * 1000) key)).map fun a => (r.set key a.1, a.2)

/-- `remaining`, executed at `nowS`. -/
def RedisTokenBucket.remainingAt (b : RedisTokenBucket) (r : Redis) (nowS : ℚ)
    (cand : CandidateRef) : Except String (Redis × ℤ × ℤ) :=
  let key := bucketKey cand.provider cand.model
  (b.remaining cand.provider cand.model (toInt (nowS * 1000))
    (r.read (nowS * 1000) key)).map fun a => (r.set key a.1, a.2)

/-- `clamp`. -/
def RedisTokenBucket.clamp (b : RedisTokenBucket) (provider model : String)
    (rpmObserved tpmObserved : ℤ) (e : RedisEntry) : Except String (RedisEntry × ℤ × ℤ) :=
  (b.entry provider model).map fun _ => clampLua e rpmObserved tpmObserved

/-- **`try_acquire`** runs the script, with the limits of the candidate, on its bucket key. -/
theorem RedisTokenBucket.acquireAt_ok {b : RedisTokenBucket} {r r' : Redis} {nowS : ℚ}
    {cand : CandidateRef} {n : ℕ} {reply : RatelimitReply}
    (h : b.acquireAt r nowS cand n = .ok (r', reply)) :
    ∃ limits, b.entry cand.provider cand.model = .ok limits ∧
      let key := bucketKey cand.provider cand.model
      let a := ratelimitLua (r.read (nowS * 1000) key)
        (limits.caps.acquireArgs (toInt (nowS * 1000)) n)
      r' = r.set key a.1 ∧ reply = a.2 := by
  unfold acquireAt tryAcquire at h
  cases hentry : b.entry cand.provider cand.model with
  | error e => simp [hentry, Except.map] at h
  | ok limits =>
    simp only [hentry, Except.map, Except.ok.injEq, Prod.mk.injEq] at h
    exact ⟨limits, rfl, h.1.symm, h.2.symm⟩

/-- **`remaining`** does, with zero tokens. -/
theorem RedisTokenBucket.remainingAt_ok {b : RedisTokenBucket} {r r' : Redis} {nowS : ℚ}
    {cand : CandidateRef} {rpm tpm : ℤ} (h : b.remainingAt r nowS cand = .ok (r', rpm, tpm)) :
    ∃ limits, b.entry cand.provider cand.model = .ok limits ∧
      let key := bucketKey cand.provider cand.model
      let a := ratelimitLua (r.read (nowS * 1000) key)
        (limits.caps.acquireArgs (toInt (nowS * 1000)) 0)
      r' = r.set key a.1 ∧ rpm = a.2.rpmRemaining ∧ tpm = a.2.tpmRemaining := by
  unfold remainingAt remaining tryAcquire at h
  cases hentry : b.entry cand.provider cand.model with
  | error e => simp [hentry, Except.map] at h
  | ok limits =>
    simp only [hentry, Except.map, Except.ok.injEq, Prod.mk.injEq, Nat.cast_zero] at h
    exact ⟨limits, rfl, h.1.symm, h.2.1.symm, h.2.2.symm⟩

/-- `estimate_tokens`. -/
def estimateTokens (promptChars maxTokens : ℕ) : ℕ := max 1 (promptChars / 4 + maxTokens)

/-! ## 2. Runs on one bucket key -/

/-- What can happen to the state under one bucket key. -/
inductive BucketCall
  /-- `RATELIMIT_LUA` by `try_acquire`, or by `remaining` with zero tokens -/
  | acquire (nowMs requestTokens : ℚ)
  /-- `CLAMP_LUA`, which does not look at the clock -/
  | clamp (atMs rpmObserved tpmObserved : ℚ)
  /-- Redis looks whether the key is due -/
  | expire (atMs : ℚ)

/-- When the call runs. -/
def BucketCall.time : BucketCall → ℚ
  | .acquire t _ => t
  | .clamp t _ _ => t
  | .expire t => t

/-- Tokens and observations are counts. -/
def BucketCall.Nonneg : BucketCall → Prop
  | .acquire _ n => 0 ≤ n
  | .clamp _ r p => 0 ≤ r ∧ 0 ≤ p
  | .expire _ => True

/-- One acquire of a run: its arguments, its answer, and the levels it stored. -/
structure AcquireRow where
  nowMs : ℚ
  requestTokens : ℚ
  ok : Bool
  rpmLevel : ℚ
  tpmLevel : ℚ

/-- The row of an acquire. -/
def acquireRow (c : BucketCaps) (e : RedisEntry) (nowMs requestTokens : ℚ) : AcquireRow where
  nowMs := nowMs
  requestTokens := requestTokens
  ok := (ratelimitLua e (c.acquireArgs nowMs requestTokens)).2.ok
  rpmLevel := (c.acquireArgs nowMs requestTokens).rpmLeft e
  tpmLevel := (c.acquireArgs nowMs requestTokens).tpmLeft e

/-- The state a call leaves. -/
def callState (c : BucketCaps) (e : RedisEntry) : BucketCall → RedisEntry
  | .acquire t n => (ratelimitLua e (c.acquireArgs t n)).1
  | .clamp _ r p => (clampLua e r p).1
  | .expire t => e.expire t

/-- The acquires of a run, in order. -/
def runCalls (c : BucketCaps) (e : RedisEntry) : List BucketCall → List AcquireRow
  | [] => []
  | .acquire t n :: calls =>
    acquireRow c e t n :: runCalls c (callState c e (.acquire t n)) calls
  | .clamp t r p :: calls => runCalls c (callState c e (.clamp t r p)) calls
  | .expire t :: calls => runCalls c (callState c e (.expire t)) calls

/-- How many acquires were accepted. -/
def acceptedCount (rows : List AcquireRow) : ℕ := rows.countP AcquireRow.ok

/-- The tokens the accepted acquires took. -/
def acceptedTokens (rows : List AcquireRow) : ℚ :=
  ((rows.filter AcquireRow.ok).map AcquireRow.requestTokens).sum

/-! ## 3. One acquire -/

namespace BucketCaps

variable (c : BucketCaps)

theorem rpmCap_nonneg : 0 ≤ c.rpmCap := zero_le_one.trans c.one_le_rpmCap

theorem tpmCap_nonneg : 0 ≤ c.tpmCap := zero_le_one.trans c.one_le_tpmCap

end BucketCaps

/-- What a row took from the request dimension. -/
def AcquireRow.rpmSpent (row : AcquireRow) : ℚ := if row.ok then 1 else 0

/-- What a row took from the token dimension. -/
def AcquireRow.tpmSpent (row : AcquireRow) : ℚ := if row.ok then row.requestTokens else 0

theorem acquireRow_ok (c : BucketCaps) (e : RedisEntry) (t n : ℚ) :
    (acquireRow c e t n).ok = (c.acquireArgs t n).ok e := rfl

/-- An acquire leaves what the refill gave, less what it took... -/
theorem rpmLevel_add_spent (c : BucketCaps) (e : RedisEntry) (t n : ℚ) :
    (acquireRow c e t n).rpmLevel + (acquireRow c e t n).rpmSpent
      = (c.acquireArgs t n).refilledRpm e := by
  change (c.acquireArgs t n).rpmLeft e + _ = _
  rw [RatelimitArgs.rpmLeft, AcquireRow.rpmSpent, acquireRow_ok]
  split
  · exact sub_add_cancel _ _
  · exact add_zero _

/-- ...in both dimensions. -/
theorem tpmLevel_add_spent (c : BucketCaps) (e : RedisEntry) (t n : ℚ) :
    (acquireRow c e t n).tpmLevel + (acquireRow c e t n).tpmSpent
      = (c.acquireArgs t n).refilledTpm e := by
  change (c.acquireArgs t n).tpmLeft e + _ = _
  rw [RatelimitArgs.tpmLeft, AcquireRow.tpmSpent, acquireRow_ok]
  split
  · exact sub_add_cancel _ _
  · exact add_zero _

theorem ok_iff {a : RatelimitArgs} {e : RedisEntry} :
    a.ok e = true ↔ 1 ≤ a.refilledRpm e ∧ a.reqTokens ≤ a.refilledTpm e := by
  simp [RatelimitArgs.ok]

/-- Joint acceptance: nothing goes below zero in either dimension. -/
theorem rpmLeft_nonneg {a : RatelimitArgs} {e : RedisEntry} (h : 0 ≤ a.refilledRpm e) :
    0 ≤ a.rpmLeft e := by
  unfold RatelimitArgs.rpmLeft
  split
  · rename_i hok
    exact sub_nonneg.mpr (ok_iff.mp hok).1
  · exact h

theorem tpmLeft_nonneg {a : RatelimitArgs} {e : RedisEntry} (h : 0 ≤ a.refilledTpm e) :
    0 ≤ a.tpmLeft e := by
  unfold RatelimitArgs.tpmLeft
  split
  · rename_i hok
    exact sub_nonneg.mpr (ok_iff.mp hok).2
  · exact h

/-- What is left never exceeds the cap. -/
theorem rpmLeft_le_cap (a : RatelimitArgs) (e : RedisEntry) : a.rpmLeft e ≤ a.rpmCap := by
  have hrefilled : a.refilledRpm e ≤ a.rpmCap := refill_le_cap _ _ _ _
  unfold RatelimitArgs.rpmLeft
  split
  · linarith
  · exact hrefilled

theorem tpmLeft_le_cap {a : RatelimitArgs} (h : 0 ≤ a.reqTokens) (e : RedisEntry) :
    a.tpmLeft e ≤ a.tpmCap := by
  have hrefilled : a.refilledTpm e ≤ a.tpmCap := refill_le_cap _ _ _ _
  unfold RatelimitArgs.tpmLeft
  split
  · linarith
  · exact hrefilled

theorem elapsed_nonneg (a : RatelimitArgs) (e : RedisEntry) : 0 ≤ a.elapsed e := by
  simp only [RatelimitArgs.elapsed]
  split
  · exact le_refl 0
  · exact not_lt.mp ‹_›

/-- The guard of the script, as a maximum. -/
theorem elapsed_of_last {a : RatelimitArgs} {e : RedisEntry} {last : ℚ}
    (h : e.fields "last_refill_ms" = some last) : a.elapsed e = max 0 (a.nowMs - last) := by
  simp only [RatelimitArgs.elapsed, h, Option.getD_some]
  rcases lt_or_ge (a.nowMs - last) 0 with hlt | hge
  · rw [if_pos hlt, max_eq_left hlt.le]
  · rw [if_neg hge.not_gt, max_eq_right hge]

/-- A key without a refill time has nothing to catch up on. -/
theorem elapsed_of_no_last {a : RatelimitArgs} {e : RedisEntry}
    (h : e.fields "last_refill_ms" = none) : a.elapsed e = 0 := by
  simp [RatelimitArgs.elapsed, h]

/-! ## 4. Stored levels -/

/-- The levels `r`, `p` are stored, refilled last at `t₀`. -/
structure Stored (t₀ r p : ℚ) (e : RedisEntry) : Prop where
  last : e.fields "last_refill_ms" = some t₀
  rpm : e.fields "rpm_remaining" = some r
  tpm : e.fields "tpm_remaining" = some p

theorem stored_acquire (c : BucketCaps) (e : RedisEntry) (t n : ℚ) :
    Stored t (acquireRow c e t n).rpmLevel (acquireRow c e t n).tpmLevel
      (callState c e (.acquire t n)) :=
  ⟨ratelimitLua_last _ _, ratelimitLua_rpm _ _, ratelimitLua_tpm _ _⟩

section Stored

variable {c : BucketCaps} {t₀ r p : ℚ} {e : RedisEntry}

theorem Stored.refilledRpm (h : Stored t₀ r p e) (t n : ℚ) :
    (c.acquireArgs t n).refilledRpm e
      = refill c.rpmCap (c.rpmCap / 60000) r (max 0 (t - t₀)) := by
  rw [RatelimitArgs.refilledRpm, elapsed_of_last h.last, h.rpm]
  rfl

theorem Stored.refilledTpm (h : Stored t₀ r p e) (t n : ℚ) :
    (c.acquireArgs t n).refilledTpm e
      = refill c.tpmCap (c.tpmCap / 60000) p (max 0 (t - t₀)) := by
  rw [RatelimitArgs.refilledTpm, elapsed_of_last h.last, h.tpm]
  rfl

end Stored

/-- A missing key is a full bucket. -/
theorem refilled_missing (c : BucketCaps) (t n : ℚ) :
    (c.acquireArgs t n).refilledRpm .missing = c.rpmCap ∧
      (c.acquireArgs t n).refilledTpm .missing = c.tpmCap := by
  have hel : (c.acquireArgs t n).elapsed .missing = 0 := elapsed_of_no_last rfl
  rw [RatelimitArgs.refilledRpm, RatelimitArgs.refilledTpm, hel]
  simp [BucketCaps.acquireArgs]

end Librouter
