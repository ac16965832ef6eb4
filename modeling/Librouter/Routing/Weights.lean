/-
# `routing/weights.py`: the weight engine

The weight of a candidate is its base weight times a health score times a budget score, zero while
its breaker is open and zero below the floor.  `pick` draws among the candidates of a tier with a
positive weight; it reads the cache of signals and nothing else.
-/
import Librouter.Breaker
import Librouter.Models

namespace Librouter

/-! ## 1. Scores -/

/-- `CandidateSignals`. -/
structure CandidateSignals where
  baseWeight : ℚ
  errorRate : ℚ
  meanLatencyS : ℚ
  rpmRemaining : ℤ
  rpmCap : ℤ
  tpmRemaining : ℤ
  tpmCap : ℤ
  breaker : BreakerState

/-- `health_score`. -/
def healthScore (errorRate meanLatencyS targetLatencyS : ℚ) : ℚ :=
  max 0 (1 - errorRate) * (targetLatencyS / (targetLatencyS + max 0 meanLatencyS))

/-- `budget_score`. -/
def budgetScore (rpmRemaining rpmCap tpmRemaining tpmCap : ℤ) : ℚ :=
  if rpmCap ≤ 0 ∨ tpmCap ≤ 0 then 0
  else min (max 0 ((rpmRemaining : ℚ) / rpmCap)) (max 0 ((tpmRemaining : ℚ) / tpmCap))

/-- `effective_weight`. -/
def effectiveWeight (base health budget : ℚ) (breaker : BreakerState) (floor : ℚ) : ℚ :=
  if breaker = .opened then 0
  else if floor ≤ base * health * budget then base * health * budget else 0

theorem healthScore_nonneg (errorRate meanLatencyS : ℚ) {target : ℚ} (ht : 0 < target) :
    0 ≤ healthScore errorRate meanLatencyS target :=
  mul_nonneg (le_max_left _ _)
    (div_nonneg ht.le (add_nonneg ht.le (le_max_left _ _)))

theorem budgetScore_nonneg (rpm rpmCap tpm tpmCap : ℤ) : 0 ≤ budgetScore rpm rpmCap tpm tpmCap := by
  unfold budgetScore
  split
  · exact le_refl 0
  · exact le_min (le_max_left _ _) (le_max_left _ _)

/-! ## 2. The engine -/

/-- `WeightEngine`: its knobs and `_cache`. -/
structure WeightEngine where
  routing : RoutingConfig
  cache : Dict CandidateRef CandidateSignals := Dict.empty

/-- The weight of a candidate with these signals. -/
def CandidateSignals.weight (s : CandidateSignals) (routing : RoutingConfig) : ℚ :=
  effectiveWeight s.baseWeight
    (healthScore s.errorRate s.meanLatencyS routing.targetLatencyS)
    (budgetScore s.rpmRemaining s.rpmCap s.tpmRemaining s.tpmCap)
    s.breaker routing.minWeightFloor

/-- The search of `pick`: the first candidate at which the accumulated weight reaches `r`. -/
def pickFrom (r : ℚ) : ℚ → List (CandidateRef × ℚ) → Option CandidateRef
  | _, [] => none
  | acc, (c, w) :: rest => if r ≤ acc + w then some c else pickFrom r (acc + w) rest

theorem pickFrom_mem {r : ℚ} {c : CandidateRef} : ∀ {acc : ℚ} {live : List (CandidateRef × ℚ)},
    pickFrom r acc live = some c → c ∈ live.map Prod.fst
  | _, [], h => by cases h
  | acc, (c', w) :: rest, h => by
    rw [pickFrom] at h
    rw [List.map_cons, List.mem_cons]
    split at h
    · exact Or.inl (Option.some.inj h).symm
    · exact Or.inr (pickFrom_mem h)

namespace WeightEngine

variable (engine : WeightEngine)

/-- `_weight`: zero for a candidate without signals. -/
def weight (cand : CandidateRef) : ℚ :=
  match engine.cache.get? cand with
  | none => 0
  | some s => s.weight engine.routing

/-- The candidates `pick` chooses from, with their weights. -/
def weighted (tierCandidates : List TierEntry) (exclude : List CandidateRef) :
    List (CandidateRef × ℚ) :=
  ((tierCandidates.map TierEntry.ref).filter fun ref =>
    ref ∉ exclude ∧ 0 < engine.weight ref).map fun ref => (ref, engine.weight ref)

/-- `pick`; `draw` is what `rng.random()` returns. -/
def pick (tierCandidates : List TierEntry) (exclude : List CandidateRef) (draw : UnitDraw) :
    Option CandidateRef :=
  let live := engine.weighted tierCandidates exclude
  let total := (live.map Prod.snd).sum
  (pickFrom (draw.val * total) 0 live).or (live.getLast?.map Prod.fst)

/-- **`pick` returns** a candidate of the tier that is not excluded and has a positive weight. -/
theorem pick_spec {tierCandidates : List TierEntry} {exclude : List CandidateRef} {draw : UnitDraw}
    {cand : CandidateRef} (h : engine.pick tierCandidates exclude draw = some cand) :
    cand ∈ tierCandidates.map TierEntry.ref ∧ cand ∉ exclude ∧ 0 < engine.weight cand := by
  have hmem : cand ∈ (engine.weighted tierCandidates exclude).map Prod.fst := by
    rcases Option.or_eq_some_iff.mp h with hfound | ⟨-, hlast⟩
    · exact pickFrom_mem hfound
    · obtain ⟨e, he, rfl⟩ := Option.map_eq_some_iff.mp hlast
      exact List.mem_map_of_mem (List.mem_of_getLast? he)
  rw [weighted, List.map_map, List.mem_map] at hmem
  obtain ⟨ref, href, rfl⟩ := hmem
  obtain ⟨href, hlive⟩ := List.mem_filter.mp href
  exact ⟨href, of_decide_eq_true hlive⟩

end WeightEngine

end Librouter
