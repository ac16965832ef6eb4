/-
# `redis_state.py`: the keys and the two Lua scripts

`RATELIMIT_LUA` is a two-dimensional token bucket with lazy refill: one call takes one request
and `request_tokens` tokens, or nothing.  `CLAMP_LUA` shrinks the stored levels to what a vendor
reports.  Both are translated line by line; `math.floor` appears only in the reply, the levels
written back are not rounded.
-/
import Librouter.Redis
import Librouter.Foundations.Bucket

namespace Librouter

/-! ## 1. Keys -/

/-- `KEY_BUCKET`. -/
def bucketKey (provider model : String) : String := "gw:bkt:" ++ provider ++ ":" ++ model

/-- `KEY_BREAKER_PROBE`. -/
def breakerProbeKey (provider model : String) : String :=
  "gw:brk:" ++ provider ++ ":" ++ model ++ ":probe"

/-- `KEY_OBSERVE_SEC`. -/
def observeKey (provider model : String) (epochSec : ℤ) : String :=
  "gw:obs:" ++ provider ++ ":" ++ model ++ ":" ++ toString epochSec

/-! ## 2. `RATELIMIT_LUA` -/

/-- `ARGV` of `RATELIMIT_LUA`, after `tonumber`. -/
structure RatelimitArgs where
  nowMs : ℚ
  rpmCap : ℚ
  tpmCap : ℚ
  refillRpmPm : ℚ
  refillTpmPm : ℚ
  reqTokens : ℚ

/-- What `RATELIMIT_LUA` returns: `{ok, math.floor(rpm_rem), math.floor(tpm_rem)}`. -/
structure RatelimitReply where
  ok : Bool
  rpmRemaining : ℤ
  tpmRemaining : ℤ
deriving DecidableEq

namespace RatelimitArgs

variable (a : RatelimitArgs) (e : RedisEntry)

/-- `elapsed`: the script's guard against a clock that went backwards.  A key that has never
been refilled counts from `now_ms`. -/
def elapsed : ℚ :=
  let lastMs := (e.fields "last_refill_ms").getD a.nowMs
  if a.nowMs - lastMs < 0 then 0 else a.nowMs - lastMs

/-- `rpm_rem` after the lazy refill; an absent field starts full. -/
def refilledRpm : ℚ :=
  TokenBucket.refill a.rpmCap a.refillRpmPm ((e.fields "rpm_remaining").getD a.rpmCap)
    (a.elapsed e)

/-- `tpm_rem` after the lazy refill. -/
def refilledTpm : ℚ :=
  TokenBucket.refill a.tpmCap a.refillTpmPm ((e.fields "tpm_remaining").getD a.tpmCap)
    (a.elapsed e)

/-- `rpm_rem >= 1 and tpm_rem >= req_tokens`. -/
def ok : Bool := decide (1 ≤ a.refilledRpm e) && decide (a.reqTokens ≤ a.refilledTpm e)

/-- The `rpm_rem` that is written back. -/
def rpmLeft : ℚ := if a.ok e then a.refilledRpm e - 1 else a.refilledRpm e

/-- The `tpm_rem` that is written back. -/
def tpmLeft : ℚ := if a.ok e then a.refilledTpm e - a.reqTokens else a.refilledTpm e

end RatelimitArgs

/-- `RATELIMIT_LUA`. -/
def ratelimitLua (e : RedisEntry) (a : RatelimitArgs) : RedisEntry × RatelimitReply :=
  ((((e.hset "rpm_remaining" (a.rpmLeft e)).hset "tpm_remaining" (a.tpmLeft e)).hset
      "last_refill_ms" a.nowMs).pexpire a.nowMs 600000,
    ⟨a.ok e, ⌊a.rpmLeft e⌋, ⌊a.tpmLeft e⌋⟩)

theorem ratelimitLua_rpm (e : RedisEntry) (a : RatelimitArgs) :
    (ratelimitLua e a).1.fields "rpm_remaining" = some (a.rpmLeft e) := by
  simp [ratelimitLua, RedisEntry.hset_fields_ne]

theorem ratelimitLua_tpm (e : RedisEntry) (a : RatelimitArgs) :
    (ratelimitLua e a).1.fields "tpm_remaining" = some (a.tpmLeft e) := by
  simp [ratelimitLua, RedisEntry.hset_fields_ne]

theorem ratelimitLua_last (e : RedisEntry) (a : RatelimitArgs) :
    (ratelimitLua e a).1.fields "last_refill_ms" = some a.nowMs := by
  simp [ratelimitLua]

theorem ratelimitLua_expireAtMs (e : RedisEntry) (a : RatelimitArgs) :
    (ratelimitLua e a).1.expireAtMs = some (a.nowMs + 600000) := rfl

/-! ## 3. `CLAMP_LUA` -/

/-- `tonumber(h[i]) or observed`, lowered to `observed` if that is less. -/
def clampLevel (level : Option ℚ) (observed : ℚ) : ℚ :=
  if observed < level.getD observed then observed else level.getD observed

/-- `CLAMP_LUA`: shrink the stored levels if the vendor reports less than they hold.  Neither
`last_refill_ms` nor the time to live is touched. -/
def clampLua (e : RedisEntry) (rpmObserved tpmObserved : ℚ) : RedisEntry × ℤ × ℤ :=
  let rpmCur := clampLevel (e.fields "rpm_remaining") rpmObserved
  let tpmCur := clampLevel (e.fields "tpm_remaining") tpmObserved
  ((e.hset "rpm_remaining" rpmCur).hset "tpm_remaining" tpmCur, ⌊rpmCur⌋, ⌊tpmCur⌋)

/-- On a level that is there a clamp is a minimum... -/
theorem clampLevel_some (level observed : ℚ) :
    clampLevel (some level) observed = min level observed := by
  simp only [clampLevel, Option.getD_some]
  rcases lt_or_ge observed level with h | h
  · rw [if_pos h, min_eq_right h.le]
  · rw [if_neg h.not_gt, min_eq_left h]

/-- ...and on a missing one it is the observation itself. -/
@[simp] theorem clampLevel_none (observed : ℚ) : clampLevel none observed = observed := by
  simp [clampLevel]

theorem clampLua_rpm (e : RedisEntry) (r p : ℚ) :
    (clampLua e r p).1.fields "rpm_remaining" = some (clampLevel (e.fields "rpm_remaining") r) := by
  simp [clampLua, RedisEntry.hset_fields_ne]

theorem clampLua_tpm (e : RedisEntry) (r p : ℚ) :
    (clampLua e r p).1.fields "tpm_remaining" = some (clampLevel (e.fields "tpm_remaining") p) := by
  simp [clampLua]

theorem clampLua_last (e : RedisEntry) (r p : ℚ) :
    (clampLua e r p).1.fields "last_refill_ms" = e.fields "last_refill_ms" := by
  simp [clampLua, RedisEntry.hset_fields_ne]

theorem clampLua_expireAtMs (e : RedisEntry) (r p : ℚ) :
    (clampLua e r p).1.expireAtMs = e.expireAtMs := rfl

end Librouter
