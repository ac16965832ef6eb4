/-
# What `pick` returns, for every draw

`pick` scales `rng.random()` by the total weight and returns the first entry at which the
accumulated weight reaches it: a draw from the weights of the entries that are not excluded and
have one (`Foundations.WeightedDraw`), so each of them is returned for an interval of draws as long
as its share of the total.  The `return cands[-1]` after the loop is never reached; it is there for
sums that round.
-/
import Librouter.Routing.Weights
import Librouter.Foundations.WeightedDraw

namespace Librouter

open WeightedDraw

/-! ## 1. The loop is a search -/

/-- The loop of `pick` returns the entry at which the search for `r` stops. -/
theorem pickFrom_eq_reach (r : ℚ) : ∀ (acc : ℚ) (live : List (CandidateRef × ℚ)),
    pickFrom r acc live
      = (reach r acc (live.map Prod.snd)).bind fun i => live[i]?.map Prod.fst
  | _, [] => rfl
  | acc, (c, w) :: rest => by
    rw [pickFrom, List.map_cons, reach]
    by_cases hstop : r ≤ acc + w
    · rw [if_pos hstop, if_pos hstop]
      rfl
    · rw [if_neg hstop, if_neg hstop, pickFrom_eq_reach r (acc + w) rest, Option.bind_map]
      rfl

namespace WeightEngine

variable (engine : WeightEngine) (tierCandidates : List TierEntry) (exclude : List CandidateRef)

/-- The weights `pick` draws from. -/
def liveWeights : List ℚ := (engine.weighted tierCandidates exclude).map Prod.snd

theorem liveWeights_pos : ∀ w ∈ engine.liveWeights tierCandidates exclude, 0 < w := by
  intro w hw
  obtain ⟨e, he, rfl⟩ := List.mem_map.mp hw
  obtain ⟨ref, href, rfl⟩ := List.mem_map.mp he
  exact (of_decide_eq_true (List.mem_filter.mp href).2).2

@[simp] theorem length_liveWeights :
    (engine.liveWeights tierCandidates exclude).length
      = (engine.weighted tierCandidates exclude).length :=
  List.length_map ..

/-- **The trailing return is never reached**: the loop finds an entry. -/
theorem exists_pickFrom {tierCandidates : List TierEntry} {exclude : List CandidateRef}
    (hlive : engine.weighted tierCandidates exclude ≠ []) (draw : UnitDraw) :
    ∃ cand, pickFrom (draw.val * (engine.liveWeights tierCandidates exclude).sum) 0
      (engine.weighted tierCandidates exclude) = some cand := by
  have hne : engine.liveWeights tierCandidates exclude ≠ [] := fun h =>
    hlive (List.map_eq_nil_iff.mp h)
  have hpos := engine.liveWeights_pos tierCandidates exclude
  obtain ⟨i, hi⟩ := exists_draw hpos hne draw.lt_one.le
  have hlt : i < (engine.weighted tierCandidates exclude).length := by
    rw [← length_liveWeights]
    exact ((reach_eq_some_iff hpos).mp hi).1
  refine ⟨(engine.weighted tierCandidates exclude)[i].1, ?_⟩
  have hsearch : reach (draw.val * (engine.liveWeights tierCandidates exclude).sum) 0
      ((engine.weighted tierCandidates exclude).map Prod.snd) = some i := hi
  rw [pickFrom_eq_reach, hsearch, Option.bind_some, List.getElem?_eq_getElem hlt]
  rfl

/-- **`pick` is a draw** from the weights of the live entries. -/
theorem pick_eq_draw (draw : UnitDraw) :
    engine.pick tierCandidates exclude draw
      = (WeightedDraw.draw draw.val (engine.liveWeights tierCandidates exclude)).bind fun i =>
        (engine.weighted tierCandidates exclude)[i]?.map Prod.fst := by
  by_cases hlive : engine.weighted tierCandidates exclude = []
  · rw [pick, liveWeights, hlive]
    rfl
  · have hloop : engine.pick tierCandidates exclude draw
        = pickFrom (draw.val * (engine.liveWeights tierCandidates exclude).sum) 0
          (engine.weighted tierCandidates exclude) := by
      obtain ⟨cand, hcand⟩ := engine.exists_pickFrom hlive draw
      rw [hcand]
      exact Option.or_eq_some_iff.mpr (Or.inl hcand)
    rw [hloop, pickFrom_eq_reach]
    rfl

/-! ## 2. The law -/

/-- The candidate has signals, its breaker is not open, and its weight reaches the floor. -/
def Eligible (cand : CandidateRef) : Prop :=
  ∃ s, engine.cache.get? cand = some s ∧ s.breaker ≠ .opened ∧
    engine.routing.minWeightFloor ≤ s.baseWeight *
      healthScore s.errorRate s.meanLatencyS engine.routing.targetLatencyS *
      budgetScore s.rpmRemaining s.rpmCap s.tpmRemaining s.tpmCap

/-- No weight without signals, with an open breaker or below the floor. -/
theorem eligible_of_weight_pos {cand : CandidateRef} (h : 0 < engine.weight cand) :
    engine.Eligible cand := by
  unfold weight at h
  split at h
  · exact absurd h (lt_irrefl 0)
  · rename_i s hs
    refine ⟨s, hs, ?_⟩
    unfold CandidateSignals.weight effectiveWeight at h
    split at h
    · exact absurd h (lt_irrefl 0)
    · rename_i hopen
      split at h
      · exact ⟨hopen, by assumption⟩
      · exact absurd h (lt_irrefl 0)

theorem weighted_eq_nil_iff : engine.weighted tierCandidates exclude = [] ↔
    ∀ t ∈ tierCandidates, t.ref ∈ exclude ∨ engine.weight t.ref ≤ 0 := by
  rw [weighted, List.map_eq_nil_iff, List.filter_eq_nil_iff, List.forall_mem_map]
  refine forall₂_congr fun t _ => ?_
  rw [decide_eq_true_iff, not_and_or, not_not, not_lt]

/-- The search does the same among the reals. -/
theorem draw_cast (u : ℚ) :
    WeightedDraw.draw (Rat.castHom ℝ u)
      ((engine.liveWeights tierCandidates exclude).map (Rat.castHom ℝ))
      = WeightedDraw.draw u (engine.liveWeights tierCandidates exclude) :=
  draw_map (Rat.castHom ℝ) (fun _ _ => Rat.cast_le) u _

/-- What `pick` returns, over all draws. -/
structure PickLaw : Prop where
  /-- nothing, when no entry of the tier has a weight and is not excluded -/
  none_iff : ∀ draw, engine.pick tierCandidates exclude draw = none ↔
    ∀ t ∈ tierCandidates, t.ref ∈ exclude ∨ engine.weight t.ref ≤ 0
  /-- else a candidate of the tier that has one -/
  some_spec : ∀ draw cand, engine.pick tierCandidates exclude draw = some cand →
    cand ∈ tierCandidates.map TierEntry.ref ∧ cand ∉ exclude ∧ 0 < engine.weight cand ∧
      engine.Eligible cand
  /-- from within the loop -/
  loop_finds : engine.weighted tierCandidates exclude ≠ [] → ∀ draw : UnitDraw,
    pickFrom (draw.val * (engine.liveWeights tierCandidates exclude).sum) 0
      (engine.weighted tierCandidates exclude) ≠ none
  /-- which stops at one of the live entries -/
  entry : ∀ draw : UnitDraw, engine.pick tierCandidates exclude draw
    = (WeightedDraw.draw draw.val (engine.liveWeights tierCandidates exclude)).bind fun i =>
      (engine.weighted tierCandidates exclude)[i]?.map Prod.fst
  /-- at entry `i` for the draws of its interval, and at the first one for zero -/
  interval : ∀ (draw : UnitDraw) (i : ℕ) (_ : i < (engine.weighted tierCandidates exclude).length),
    WeightedDraw.draw draw.val (engine.liveWeights tierCandidates exclude) = some i ↔
      draw.val ∈ Set.Ioc
        (upTo (engine.liveWeights tierCandidates exclude) i
          / (engine.liveWeights tierCandidates exclude).sum)
        (upTo (engine.liveWeights tierCandidates exclude) (i + 1)
          / (engine.liveWeights tierCandidates exclude).sum) ∨ i = 0 ∧ draw.val = 0
  /-- which is as long as its weight is of the total, also among all real numbers -/
  cast : ∀ u : ℚ, WeightedDraw.draw (Rat.castHom ℝ u)
      ((engine.liveWeights tierCandidates exclude).map (Rat.castHom ℝ))
    = WeightedDraw.draw u (engine.liveWeights tierCandidates exclude)
  measure : ∀ (i : ℕ) (hi : i < (engine.weighted tierCandidates exclude).length),
    MeasureTheory.volume {u : ℝ | u ∈ Set.Ico 0 1 ∧ WeightedDraw.draw u
      ((engine.liveWeights tierCandidates exclude).map (Rat.castHom ℝ)) = some i}
      = ENNReal.ofReal ((engine.weighted tierCandidates exclude)[i].2
        / (engine.liveWeights tierCandidates exclude).sum : ℚ)

/-- **The law of the weighted pick**, for every cache, tier list and set of excluded candidates. -/
theorem pick_law : engine.PickLaw tierCandidates exclude := by
  have hpos := engine.liveWeights_pos tierCandidates exclude
  refine ⟨fun draw => ?_, fun draw cand hcand => ?_, fun hlive draw => ?_,
    engine.pick_eq_draw tierCandidates exclude, fun draw i hi => ?_,
    engine.draw_cast tierCandidates exclude, fun i hi => ?_⟩
  · rw [← weighted_eq_nil_iff]
    constructor
    · intro hnone
      by_contra hlive
      obtain ⟨cand, hcand⟩ := engine.exists_pickFrom hlive draw
      have hboth := Option.or_eq_none_iff.mp hnone
      exact Option.some_ne_none cand (hcand.symm.trans hboth.1)
    · intro hnil
      rw [pick, hnil]
      rfl
  · obtain ⟨hmem, hout, hweight⟩ := engine.pick_spec hcand
    exact ⟨hmem, hout, hweight, engine.eligible_of_weight_pos hweight⟩
  · obtain ⟨cand, hcand⟩ := engine.exists_pickFrom hlive draw
    rw [hcand]
    exact Option.some_ne_none cand
  · exact draw_eq_some_iff hpos draw.nonneg (by rwa [length_liveWeights])
  · have hcast : ∀ w ∈ (engine.liveWeights tierCandidates exclude).map (Rat.castHom ℝ), 0 < w := by
      intro w hw
      obtain ⟨q, hq, rfl⟩ := List.mem_map.mp hw
      exact Rat.cast_pos.mpr (hpos q hq)
    have hlength : i < ((engine.liveWeights tierCandidates exclude).map (Rat.castHom ℝ)).length := by
      rwa [List.length_map, length_liveWeights]
    rw [volume_draw hcast hlength, ← map_list_sum]
    congr 1
    simp [liveWeights]

end WeightEngine

end Librouter
