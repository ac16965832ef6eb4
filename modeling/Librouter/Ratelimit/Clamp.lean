/-
# A clamp and the acquire after it

`CLAMP_LUA` lowers the stored levels to what the vendor reports, and leaves `last_refill_ms` where
the last acquire put it.  So the next acquire refills the lowered levels for the time BEFORE the
clamp as well, and can have any number of requests that the vendor has just said are not there
(`clamp_refilled`).

The clamp binds an acquire of the same instant exactly when there is nothing to refill, or the
refill does not lead above the observation anyway (`clamp_binds_iff`).
-/
import Librouter.Ratelimit

namespace Librouter

open TokenBucket

/-! ## 1. What an acquire finds after a clamp -/

/-- What is stored when a clamp has run at `nowMs`. -/
def clampedAt (e : RedisEntry) (nowMs : ℚ) (rpmObserved tpmObserved : ℕ) : RedisEntry :=
  (clampLua (e.expire nowMs) rpmObserved tpmObserved).1

/-- A clamp leaves the time to live alone: a key that was there a moment ago is still there. -/
theorem expire_clampedAt (e : RedisEntry) (nowMs : ℚ) (r p : ℕ) :
    (clampedAt e nowMs r p).expire nowMs = clampedAt e nowMs r p := by
  have hdue : (clampedAt e nowMs r p).expireAtMs = (e.expire nowMs).expireAtMs :=
    clampLua_expireAtMs _ _ _
  rcases (clampedAt e nowMs r p).expire_cases nowMs with ⟨due, hsome, hle, -⟩ | hsame
  · rw [hdue] at hsome
    rcases e.expire_cases nowMs with ⟨_, _, _, hmissing⟩ | hkept
    · rw [hmissing] at hsome
      cases hsome
    · rw [hkept] at hsome
      -- it would have been dropped before the clamp
      have hgone : e.expire nowMs = .missing := by
        unfold RedisEntry.expire
        rw [hsome]
        exact if_pos hle
      rw [← hkept, hgone] at hsome
      cases hsome
  · exact hsame

theorem elapsed_clampedAt (a : RatelimitArgs) (e : RedisEntry) (nowMs : ℚ) (r p : ℕ) :
    a.elapsed (clampedAt e nowMs r p) = a.elapsed (e.expire nowMs) := by
  simp only [RatelimitArgs.elapsed, clampedAt, clampLua_last]

/-! ## 2. One dimension -/

/-- The observation stays in force: there is nothing to refill, or the bucket is smaller than the
observation, or the stored level is within it after the refill. -/
def ObservationHolds (cap : ℚ) (lastMs level : Option ℚ) (nowMs observed : ℚ) : Prop :=
  (∀ last ∈ lastMs, nowMs ≤ last) ∨ cap ≤ observed ∨
    ∃ l ∈ level, ∃ last ∈ lastMs, l + (nowMs - last) * (cap / 60000) ≤ observed

theorem clampLevel_le (level : Option ℚ) (observed : ℚ) : clampLevel level observed ≤ observed := by
  cases level with
  | none => rw [clampLevel_none]
  | some l => rw [clampLevel_some]; exact min_le_right _ _

/-- A level that was lowered, or was not there, is refilled past the observation. -/
theorem refill_clampLevel_le_iff {cap rate observed elapsed : ℚ} {level : Option ℚ}
    (hrate : 0 < rate) (helapsed : 0 < elapsed) :
    refill cap rate (clampLevel level observed) elapsed ≤ observed ↔
      cap ≤ observed ∨ ∃ l ∈ level, l + elapsed * rate ≤ observed := by
  have hgain : 0 < elapsed * rate := mul_pos helapsed hrate
  rw [refill, min_le_iff]
  refine or_congr_right ?_
  cases level with
  | none => simp [hgain]
  | some l =>
    rw [clampLevel_some]
    constructor
    · intro h
      refine ⟨l, rfl, ?_⟩
      rcases le_total l observed with hle | hge
      · rwa [min_eq_left hle] at h
      · rw [min_eq_right hge] at h
        linarith
    · rintro ⟨_, hl, h⟩
      obtain rfl := Option.some.inj hl
      exact (add_le_add_left (min_le_left _ _) _).trans h

/-- **One dimension.**  The refilled level is within the observation exactly when the observation
stays in force. -/
theorem refill_clamped_le_iff {cap nowMs observed : ℚ} (hcap : 0 < cap) (e : RedisEntry)
    (level : Option ℚ) {a : RatelimitArgs} (hnow : a.nowMs = nowMs) :
    refill cap (cap / 60000) (clampLevel level observed) (a.elapsed e) ≤ observed ↔
      ObservationHolds cap (e.fields "last_refill_ms") level nowMs observed := by
  have hrate : 0 < cap / 60000 := div_pos hcap (by norm_num)
  unfold ObservationHolds
  cases hlast : e.fields "last_refill_ms" with
  | none =>
    rw [elapsed_of_no_last hlast, refill_zero]
    simp [clampLevel_le]
  | some last =>
    rw [elapsed_of_last hlast, hnow]
    rcases le_or_gt nowMs last with hle | hgt
    · rw [max_eq_left (sub_nonpos.mpr hle), refill_zero]
      simp [clampLevel_le, hle]
    · rw [max_eq_right (sub_pos.mpr hgt).le, refill_clampLevel_le_iff hrate (sub_pos.mpr hgt)]
      simp [hgt]

/-! ## 3. Both dimensions -/

/-- The clamp binds an acquire of `requestTokens` at the same instant: it works from no more than
was observed, it is rejected if that is not enough, and returns no more. -/
structure ClampBinds (c : BucketCaps) (e : RedisEntry) (nowMs : ℚ)
    (rpmObserved tpmObserved requestTokens : ℕ) : Prop where
  rpm_le : (c.acquireArgs nowMs requestTokens).refilledRpm
    ((clampedAt e nowMs rpmObserved tpmObserved).expire nowMs) ≤ rpmObserved
  tpm_le : (c.acquireArgs nowMs requestTokens).refilledTpm
    ((clampedAt e nowMs rpmObserved tpmObserved).expire nowMs) ≤ tpmObserved
  rejected : rpmObserved < 1 ∨ tpmObserved < requestTokens →
    (ratelimitLua ((clampedAt e nowMs rpmObserved tpmObserved).expire nowMs)
      (c.acquireArgs nowMs requestTokens)).2.ok = false
  returned : (ratelimitLua ((clampedAt e nowMs rpmObserved tpmObserved).expire nowMs)
      (c.acquireArgs nowMs requestTokens)).2.rpmRemaining ≤ rpmObserved ∧
    (ratelimitLua ((clampedAt e nowMs rpmObserved tpmObserved).expire nowMs)
      (c.acquireArgs nowMs requestTokens)).2.tpmRemaining ≤ tpmObserved

/-- An acquire leaves no more than it works from... -/
theorem RatelimitArgs.rpmLeft_le (a : RatelimitArgs) (e : RedisEntry) :
    a.rpmLeft e ≤ a.refilledRpm e := by
  unfold rpmLeft
  split
  · linarith
  · exact le_refl _

/-- ...in either dimension. -/
theorem RatelimitArgs.tpmLeft_le {a : RatelimitArgs} (h : 0 ≤ a.reqTokens) (e : RedisEntry) :
    a.tpmLeft e ≤ a.refilledTpm e := by
  unfold tpmLeft
  split
  · linarith
  · exact le_refl _

/-- The levels an acquire works from decide the rest. -/
theorem clampBinds_of_levels {c : BucketCaps} {e : RedisEntry} {nowMs : ℚ} {r p n : ℕ}
    (hrpm : (c.acquireArgs nowMs n).refilledRpm ((clampedAt e nowMs r p).expire nowMs) ≤ r)
    (htpm : (c.acquireArgs nowMs n).refilledTpm ((clampedAt e nowMs r p).expire nowMs) ≤ p) :
    ClampBinds c e nowMs r p n := by
  have htokens : 0 ≤ (c.acquireArgs nowMs n).reqTokens := Nat.cast_nonneg n
  refine ⟨hrpm, htpm, fun hshort => ?_, ?_, ?_⟩
  · refine Bool.eq_false_iff.mpr fun hok => ?_
    obtain ⟨hone, hn⟩ := ok_iff.mp hok
    rcases hshort with hr | hp
    · have : (1 : ℚ) ≤ r := hone.trans hrpm
      exact absurd (Nat.one_le_cast.mp this) (not_le.mpr hr)
    · have : (n : ℚ) ≤ p := le_trans hn htpm
      exact absurd (Nat.cast_le.mp this) (not_le.mpr hp)
  · have hleft := ((c.acquireArgs nowMs n).rpmLeft_le _).trans hrpm
    exact Int.floor_le_iff.mpr (by push_cast; linarith)
  · have hleft := (RatelimitArgs.tpmLeft_le htokens _).trans htpm
    exact Int.floor_le_iff.mpr (by push_cast; linarith)

/-- **When a clamp binds the next acquire.**  For every stored state, observation and acquire of
the same instant: exactly when the observation stays in force in both dimensions. -/
theorem clamp_binds_iff (c : BucketCaps) (e : RedisEntry) (nowMs : ℚ)
    (rpmObserved tpmObserved requestTokens : ℕ) :
    ClampBinds c e nowMs rpmObserved tpmObserved requestTokens ↔
      ObservationHolds c.rpmCap ((e.expire nowMs).fields "last_refill_ms")
        ((e.expire nowMs).fields "rpm_remaining") nowMs rpmObserved ∧
      ObservationHolds c.tpmCap ((e.expire nowMs).fields "last_refill_ms")
        ((e.expire nowMs).fields "tpm_remaining") nowMs tpmObserved := by
  have hrpmCap : 0 < c.rpmCap := zero_lt_one.trans_le c.one_le_rpmCap
  have htpmCap : 0 < c.tpmCap := zero_lt_one.trans_le c.one_le_tpmCap
  have hnow : (c.acquireArgs nowMs requestTokens).nowMs = nowMs := rfl
  rw [← refill_clamped_le_iff hrpmCap _ _ hnow, ← refill_clamped_le_iff htpmCap _ _ hnow]
  have hrpm : (c.acquireArgs nowMs requestTokens).refilledRpm
      ((clampedAt e nowMs rpmObserved tpmObserved).expire nowMs)
      = refill c.rpmCap (c.rpmCap / 60000)
        (clampLevel ((e.expire nowMs).fields "rpm_remaining") rpmObserved)
        ((c.acquireArgs nowMs requestTokens).elapsed (e.expire nowMs)) := by
    rw [expire_clampedAt, RatelimitArgs.refilledRpm, elapsed_clampedAt, clampedAt, clampLua_rpm]
    rfl
  have htpm : (c.acquireArgs nowMs requestTokens).refilledTpm
      ((clampedAt e nowMs rpmObserved tpmObserved).expire nowMs)
      = refill c.tpmCap (c.tpmCap / 60000)
        (clampLevel ((e.expire nowMs).fields "tpm_remaining") tpmObserved)
        ((c.acquireArgs nowMs requestTokens).elapsed (e.expire nowMs)) := by
    rw [expire_clampedAt, RatelimitArgs.refilledTpm, elapsed_clampedAt, clampedAt, clampLua_tpm]
    rfl
  rw [← hrpm, ← htpm]
  exact ⟨fun h => ⟨h.rpm_le, h.tpm_le⟩, fun h => clampBinds_of_levels h.1 h.2⟩

/-- One request and one token a second. -/
def sixtyCaps : BucketCaps := (⟨60, 60, Nat.succ_pos 59, Nat.succ_pos 59⟩ : RateLimitEntry).caps

/-- **The refill undoes the clamp.**  A minute after the last acquire the vendor reports that
nothing is left; an acquire at that very instant works from a full bucket, and is accepted. -/
theorem clamp_refilled :
    (ratelimitLua ((clampedAt (callState sixtyCaps .missing (.acquire 0 1)) 60000 0 0).expire 60000)
      (sixtyCaps.acquireArgs 60000 1)).2 = ⟨true, 59, 59⟩ ∧
    ¬ ClampBinds sixtyCaps (callState sixtyCaps .missing (.acquire 0 1)) 60000 0 0 1 := by
  have hreply : (ratelimitLua ((clampedAt (callState sixtyCaps .missing (.acquire 0 1))
      60000 0 0).expire 60000) (sixtyCaps.acquireArgs 60000 1)).2 = ⟨true, 59, 59⟩ := by
    decide +kernel
  refine ⟨hreply, fun h => ?_⟩
  have hrejected := h.rejected (Or.inl zero_lt_one)
  rw [Nat.cast_one, hreply] at hrejected
  cases hrejected

end Librouter
