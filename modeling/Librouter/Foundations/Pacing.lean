/-
# Drawers who share one bucket at a pace

Several drawers take one unit at a time from one lazily refilled bucket (`Foundations.Bucket`), and
each of them lets a `period` pass between two of its draws.  A drawer who drew at `last` owes the
unit it took until the period is over, a little less of it at every instant (`owed`); what all of
them owe together bounds from below what the bucket holds.

A bucket that refills at least one unit a period for each drawer pays for all of them
(`sub_sum_le_refill`).  Which bursts the drawers open with is for the user: it is in the debts.
-/
import Librouter.Foundations.Bucket

namespace TokenBucket

section Pacing

variable {K : Type*} [Field K] [LinearOrder K]

/-- How much of a unit drawn at `last` is still owed at `now`, when one is paid back a `period`. -/
def owed (period last now : K) : K := 1 - min 1 (max 0 ((now - last) / period))

variable [IsStrictOrderedRing K] {period last now now' : K}

theorem owed_nonneg : 0 ≤ owed period last now := sub_nonneg.mpr (min_le_left _ _)

theorem owed_le_one : owed period last now ≤ 1 :=
  sub_le_self _ (le_min zero_le_one (le_max_left _ _))

/-- A unit just drawn is owed in full. -/
theorem owed_eq_one (hp : 0 < period) (h : now ≤ last) : owed period last now = 1 := by
  have hpass : (now - last) / period ≤ 0 := div_nonpos_of_nonpos_of_nonneg (sub_nonpos.mpr h) hp.le
  rw [owed, max_eq_left hpass, min_eq_right zero_le_one, sub_zero]

/-- After a period nothing is owed. -/
theorem owed_eq_zero (hp : 0 < period) (h : last + period ≤ now) : owed period last now = 0 := by
  have hone : 1 ≤ (now - last) / period := by
    rw [one_le_div hp]
    linarith
  rw [owed, min_eq_left (hone.trans (le_max_right _ _)), sub_self]

/-- A debt shrinks by at most the part of a period that has passed. -/
theorem owed_le_add (hp : 0 < period) (h : now ≤ now') :
    owed period last now ≤ owed period last now' + (now' - now) / period := by
  have hpass : 0 ≤ (now' - now) / period := div_nonneg (sub_nonneg.mpr h) hp.le
  have hsplit : (now' - last) / period = (now - last) / period + (now' - now) / period := by ring
  have hmax : max 0 ((now' - last) / period)
      ≤ max 0 ((now - last) / period) + (now' - now) / period := by
    rw [hsplit]
    exact max_le (add_nonneg (le_max_left _ _) hpass) (add_le_add_left (le_max_right _ _) _)
  have hmin : min 1 (max 0 ((now' - last) / period))
      ≤ min 1 (max 0 ((now - last) / period)) + (now' - now) / period := by
    rw [← min_add_add_right]
    exact min_le_min (le_add_of_nonneg_right hpass) hmax
  rw [owed, owed]
  linarith

/-- **The refill pays the drawers.**  If a bucket is short of its capacity by no more than its
drawers owe, it still is after any time in which it refills as fast as they pay back. -/
theorem sub_sum_le_refill {ι : Type*} [Fintype ι] {cap rate level elapsed : K} {before after : ι → K}
    (hlevel : cap - ∑ i, before i ≤ level) (hafter : ∀ i, 0 ≤ after i)
    (hpaid : ∀ i, before i ≤ after i + elapsed / period) (he : 0 ≤ elapsed)
    (hrate : Fintype.card ι / period ≤ rate) :
    cap - ∑ i, after i ≤ refill cap rate level elapsed := by
  refine le_min (sub_le_self _ (Finset.sum_nonneg fun i _ => hafter i)) ?_
  have hsum : ∑ i, before i ≤ ∑ i, after i + Fintype.card ι * (elapsed / period) := by
    refine (Finset.sum_le_sum fun i _ => hpaid i).trans ?_
    rw [Finset.sum_add_distrib, Finset.sum_const, Finset.card_univ, nsmul_eq_mul]
  have hrefill : (Fintype.card ι : K) * (elapsed / period) ≤ elapsed * rate := by
    calc (Fintype.card ι : K) * (elapsed / period)
        = elapsed * (Fintype.card ι / period) := by ring
      _ ≤ elapsed * rate := mul_le_mul_of_nonneg_left hrate he
  linarith

end Pacing

end TokenBucket
