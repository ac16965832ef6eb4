/-
# `config/__init__.py`: reloads of the config, and the gauges

`ConfigHolder.reload` swaps the config that `app.state.cfg` holds.  Nothing that `lifespan` built
from the config at boot looks at it again: `_refresh_observability_gauges` computes the weight it
exports with the knobs of the holder's config, and `WeightEngine._weight` the one it picks by with
those it was built with.
-/
import Librouter.App.Breakers
import Librouter.Foundations.Runs

namespace Librouter

/-! ## 1. The gauges -/

/-- `signals_for`. -/
def WeightEngine.signalsFor (engine : WeightEngine) (cand : CandidateRef) :
    Option CandidateSignals :=
  engine.cache.get? cand

/-- What is set for a candidate: `ROUTING_WEIGHT`, `BREAKER_STATE` and `BUCKET_REMAINING`. -/
structure CandidateGauges where
  ref : CandidateRef
  routingWeight : ℚ
  breakerState : ℕ
  rpmRemaining : ℤ
  tpmRemaining : ℤ

/-- The number of a breaker state on the gauge. -/
def BreakerState.gauge : BreakerState → ℕ
  | .closed => 0
  | .halfOpen => 1
  | .opened => 2

/-- `_refresh_observability_gauges`, with the config of the holder. -/
def refreshObservabilityGauges (cfg : Config) (engine : WeightEngine) : List CandidateGauges :=
  (cfg.tiers.values.flatMap TierConfig.candidates).filterMap fun t =>
    (engine.signalsFor t.ref).map fun sig =>
      let h := healthScore sig.errorRate sig.meanLatencyS cfg.routing.targetLatencyS
      let b := budgetScore sig.rpmRemaining sig.rpmCap sig.tpmRemaining sig.tpmCap
      { ref := t.ref
        routingWeight := effectiveWeight sig.baseWeight h b sig.breaker cfg.routing.minWeightFloor
        breakerState := sig.breaker.gauge
        rpmRemaining := sig.rpmRemaining
        tpmRemaining := sig.tpmRemaining }

/-- A candidate of the config with signals has gauges... -/
theorem exists_gauges {cfg : Config} {engine : WeightEngine} {t : TierEntry}
    (ht : t ∈ cfg.tiers.values.flatMap TierConfig.candidates) {sig : CandidateSignals}
    (hsig : engine.signalsFor t.ref = some sig) :
    ∃ g ∈ refreshObservabilityGauges cfg engine, g.ref = t.ref := by
  refine ⟨_, List.mem_filterMap.mpr ⟨t, ht, by rw [hsig]; rfl⟩, rfl⟩

/-- ...which show the weight of its signals, under the knobs of the config. -/
theorem gauges_weight {cfg : Config} {engine : WeightEngine} {g : CandidateGauges}
    (h : g ∈ refreshObservabilityGauges cfg engine) :
    ∃ sig, engine.signalsFor g.ref = some sig ∧ g.routingWeight = sig.weight cfg.routing := by
  obtain ⟨t, -, hg⟩ := List.mem_filterMap.mp h
  obtain ⟨sig, hsig, rfl⟩ := Option.map_eq_some_iff.mp hg
  exact ⟨sig, hsig, rfl⟩

/-! ## 2. The app with its holder -/

/-- The state of the app and of `app.state.cfg`. -/
structure WiredState where
  app : AppState
  holder : Config

inductive WiredEvent
  | app (event : AppEvent)
  /-- `_do_reload` has loaded a config -/
  | reloaded (cfg : Config)
  /-- it has failed, and keeps the old one -/
  | reloadFails

namespace App

variable (app : App)

def wiredStep (s : WiredState) : WiredEvent → Option WiredState
  | .app event => (app.step s.app event).map fun s' => { s with app := s' }
  | .reloaded cfg => some { s with holder := cfg }
  | .reloadFails => some s

/-- `ConfigHolder(cfg)`, with the config everything else is built from. -/
def wiredBoot (redis : Redis) (start : ℚ) : WiredState := ⟨App.boot redis start, app.cfg⟩

end App

/-! ## 3. A sample -/

/-- A config with a floor that no candidate of `fastConfig` reaches. -/
def highFloorConfig : Config :=
  { fastConfig with
    routing := { RoutingConfig.default with
      minWeightFloor := 2, minWeightFloor_nonneg := zero_le_two } }

/-- The first tick, and a reload. -/
def tickAndReload (cfg : Config) : List WiredEvent := (soleTick 0).map .app ++ [.reloaded cfg]

theorem run_tickAndReload (cfg : Config) :
    ∃ s, Runs.run soleApp.wiredStep (soleApp.wiredBoot Dict.empty 0) (tickAndReload cfg) = some s ∧
      s.holder = cfg ∧ (soleApp.engine s.app).weight soleCand = 999 / 1000 ∧
      (refreshObservabilityGauges highFloorConfig (soleApp.engine s.app)).map
        (fun g => (g.ref, g.routingWeight)) = [(soleCand, 0)] := by
  have htick : (Runs.run soleApp.wiredStep (soleApp.wiredBoot Dict.empty 0)
      ((soleTick 0).map .app)).any (fun s =>
        (soleApp.engine s.app).weight soleCand = 999 / 1000 ∧
        (refreshObservabilityGauges highFloorConfig (soleApp.engine s.app)).map
          (fun g => (g.ref, g.routingWeight)) = [(soleCand, 0)]) = true := by
    decide +kernel
  obtain ⟨m, hm, hend⟩ := (Option.any_eq_true _ _).mp htick
  exact ⟨{ m with holder := cfg }, Runs.run_concat_iff.mpr ⟨m, hm, rfl⟩, rfl,
    of_decide_eq_true hend⟩

end Librouter
