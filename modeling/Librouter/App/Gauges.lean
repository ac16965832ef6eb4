/-
# The exported weight is the picked one

`_refresh_observability_gauges` goes through the candidates of the holder's config, with its knobs;
the weight engine has the signals of the candidates of the boot, and the knobs of the boot.

The two agree in every state of every run whose reloads keep both knobs and drop no candidate that
has a vendor (`gauge_eq_weight`).  Any other knobs show for some signals (`weight_eq_iff`), and a
dropped candidate that has signals is exported no more (`mem_holder_of_exports`), though its gauge
stays where it was.
-/
import Librouter.App.Callable

namespace Librouter

/-! ## 1. What is exported -/

/-- The weights that are exported are those the next pick uses. -/
structure App.ExportsPickWeight (app : App) (s : WiredState) : Prop where
  /-- every candidate that has signals is exported -/
  exported : ∀ cand, (app.engine s.app).signalsFor cand ≠ none →
    ∃ g ∈ refreshObservabilityGauges s.holder (app.engine s.app), g.ref = cand
  /-- with the weight of the engine -/
  weight : ∀ g ∈ refreshObservabilityGauges s.holder (app.engine s.app),
    g.routingWeight = (app.engine s.app).weight g.ref

/-! ## 2. The knobs -/

/-- The knobs the weight depends on. -/
structure RoutingConfig.SameKnobs (routing routing' : RoutingConfig) : Prop where
  targetLatencyS : routing.targetLatencyS = routing'.targetLatencyS
  minWeightFloor : routing.minWeightFloor = routing'.minWeightFloor

theorem RoutingConfig.SameKnobs.weight_eq {routing routing' : RoutingConfig}
    (h : routing.SameKnobs routing') (sig : CandidateSignals) :
    sig.weight routing = sig.weight routing' := by
  rw [CandidateSignals.weight, CandidateSignals.weight, h.targetLatencyS, h.minWeightFloor]

/-- Signals of a candidate without errors, on a full bucket. -/
def cleanSignals (baseWeight meanLatencyS : ℚ) : CandidateSignals where
  baseWeight := baseWeight
  errorRate := 0
  meanLatencyS := meanLatencyS
  rpmRemaining := 1
  rpmCap := 1
  tpmRemaining := 1
  tpmCap := 1
  breaker := .closed

theorem cleanSignals_weight {base mean : ℚ} (hmean : 0 ≤ mean) (routing : RoutingConfig) :
    (cleanSignals base mean).weight routing =
      if routing.minWeightFloor ≤ base * (routing.targetLatencyS / (routing.targetLatencyS + mean))
      then base * (routing.targetLatencyS / (routing.targetLatencyS + mean)) else 0 := by
  simp [CandidateSignals.weight, cleanSignals, effectiveWeight, healthScore, budgetScore, hmean]

/-- A candidate between two floors is above the lower one only. -/
theorem floor_le_of_weight_eq {routing routing' : RoutingConfig}
    (h : ∀ sig : CandidateSignals, sig.weight routing = sig.weight routing') :
    routing'.minWeightFloor ≤ routing.minWeightFloor := by
  by_contra hlt
  rw [not_le] at hlt
  have hfloor := routing.minWeightFloor_nonneg
  have hratio : ∀ r : RoutingConfig, r.targetLatencyS / (r.targetLatencyS + 0) = 1 := fun r => by
    rw [add_zero, div_self r.targetLatencyS_pos.ne']
  have heq := h (cleanSignals ((routing.minWeightFloor + routing'.minWeightFloor) / 2) 0)
  rw [cleanSignals_weight le_rfl, cleanSignals_weight le_rfl, hratio, hratio, mul_one,
    if_pos (by linarith), if_neg (by linarith)] at heq
  linarith

/-- **Both knobs show** in the weights: only configs with the same ones agree for all signals. -/
theorem weight_eq_iff {routing routing' : RoutingConfig} :
    (∀ sig : CandidateSignals, sig.weight routing = sig.weight routing') ↔
      routing.SameKnobs routing' := by
  refine ⟨fun h => ⟨?_, ?_⟩, fun h sig => h.weight_eq sig⟩
  · have ht := routing.targetLatencyS_pos
    have ht' := routing'.targetLatencyS_pos
    have hf := routing.minWeightFloor_nonneg
    have hf' := routing'.minWeightFloor_nonneg
    -- a mean latency of a second, and a base weight above both floors
    set base := 1 + routing.minWeightFloor * ((routing.targetLatencyS + 1) / routing.targetLatencyS)
      + routing'.minWeightFloor * ((routing'.targetLatencyS + 1) / routing'.targetLatencyS) with hbase
    have habove : ∀ r : RoutingConfig,
        r.minWeightFloor * ((r.targetLatencyS + 1) / r.targetLatencyS) ≤ base →
        r.minWeightFloor ≤ base * (r.targetLatencyS / (r.targetLatencyS + 1)) := by
      intro r hr
      have hpos := r.targetLatencyS_pos
      have hscaled := mul_le_mul_of_nonneg_right hr
        (div_nonneg hpos.le (by linarith : 0 ≤ r.targetLatencyS + 1))
      have hone : (r.targetLatencyS + 1) / r.targetLatencyS
          * (r.targetLatencyS / (r.targetLatencyS + 1)) = 1 := by
        field_simp
      rwa [mul_assoc, hone, mul_one] at hscaled
    have hpart := mul_nonneg hf (div_nonneg (by linarith : 0 ≤ routing.targetLatencyS + 1) ht.le)
    have hpart' := mul_nonneg hf' (div_nonneg (by linarith : 0 ≤ routing'.targetLatencyS + 1) ht'.le)
    have heq := h (cleanSignals base 1)
    rw [cleanSignals_weight zero_le_one, cleanSignals_weight zero_le_one,
      if_pos (habove routing (by linarith)), if_pos (habove routing' (by linarith))] at heq
    have hratio := mul_left_cancel₀ (by linarith : base ≠ 0) heq
    rw [div_eq_div_iff (by linarith) (by linarith)] at hratio
    linarith
  · exact le_antisymm (floor_le_of_weight_eq fun sig => (h sig).symm) (floor_le_of_weight_eq h)

/-! ## 3. Runs -/

/-- The config is no other for the weights: it has the knobs of the boot, and the candidates of the
boot that have a vendor. -/
structure App.KeepsWeights (app : App) (cfg : Config) : Prop where
  knobs : cfg.routing.SameKnobs app.cfg.routing
  candidates : ∀ t ∈ app.cfg.tiers.values.flatMap TierConfig.candidates,
    t.provider ∈ app.vendors →
      ∃ t' ∈ cfg.tiers.values.flatMap TierConfig.candidates, t'.ref = t.ref

/-- The reloads of the run bring in no others. -/
def App.ReloadsKeepWeights (app : App) (es : List WiredEvent) : Prop :=
  ∀ cfg, WiredEvent.reloaded cfg ∈ es → app.KeepsWeights cfg

theorem App.keepsWeights_cfg (app : App) : app.KeepsWeights app.cfg :=
  ⟨⟨rfl, rfl⟩, fun t ht _ => ⟨t, ht, rfl⟩⟩

/-- Then nor does the holder have another. -/
theorem App.keepsWeights_of_run (app : App) {redis : Redis} {start : ℚ} {es : List WiredEvent}
    {s : WiredState} (hkeep : app.ReloadsKeepWeights es)
    (hrun : Runs.run app.wiredStep (app.wiredBoot redis start) es = some s) :
    app.KeepsWeights s.holder := by
  refine Runs.invariant_along (fun _ e => ∀ cfg, e = .reloaded cfg → app.KeepsWeights cfg)
    (fun _ s => app.KeepsWeights s.holder) app.keepsWeights_cfg (fun _ m e m' h hkeeps hstep => ?_)
    hrun (Runs.along_of_forall es _ fun e he cfg hcfg => hkeep cfg (by rwa [hcfg] at he))
  cases e with
  | app event =>
    obtain ⟨a, -, rfl⟩ := Option.map_eq_some_iff.mp hstep
    exact h
  | reloaded cfg =>
    cases hstep
    exact hkeeps cfg rfl
  | reloadFails =>
    cases hstep
    exact h

/-- A candidate of the refresh task is an entry of the boot, and has a vendor. -/
theorem App.exists_entry_of_mem_candidates {app : App} {c : RatedCandidate}
    (h : c ∈ app.refresh.candidates) : ∃ t ∈ app.cfg.tiers.values.flatMap TierConfig.candidates,
      t.ref = c.ref ∧ t.provider ∈ app.vendors := by
  obtain ⟨hvendor, t, ht, -, -⟩ := mem_candidates_iff.mp h
  have href : t.ref = c.ref := by simpa using List.find?_some ht
  refine ⟨t, List.mem_of_find?_eq_some ht, href, ?_⟩
  rwa [← href] at hvendor

/-- **The exported weight is the one `pick` uses**, for every candidate that has signals, in every
state that ticks, requests and reloads lead to, as long as the reloads keep the target latency, the
floor, and the candidates that have a vendor. -/
theorem App.gauge_eq_weight (app : App) {redis : Redis} {start : ℚ} {es : List WiredEvent}
    {s : WiredState} (hrun : Runs.run app.wiredStep (app.wiredBoot redis start) es = some s)
    (hkeep : app.ReloadsKeepWeights es) : app.ExportsPickWeight s := by
  have hkept := app.keepsWeights_of_run hkeep hrun
  -- the signals are of candidates of the boot, and these are in the holder's config
  have hwithin : s.app.refresh.Within fun cand =>
      ∃ t ∈ s.holder.tiers.values.flatMap TierConfig.candidates, t.ref = cand := by
    refine App.within_of_run (fun c hc => ?_) hrun
    obtain ⟨t, ht, href, hvendor⟩ := exists_entry_of_mem_candidates hc
    obtain ⟨t', ht', href'⟩ := hkept.candidates t ht hvendor
    exact ⟨t', ht', href'.trans href⟩
  refine ⟨fun cand hsignals => ?_, fun g hg => ?_⟩
  · obtain ⟨sig, hsig⟩ := Option.ne_none_iff_exists'.mp hsignals
    obtain ⟨t, ht, rfl⟩ := hwithin.cache cand sig hsig
    exact exists_gauges ht hsig
  · obtain ⟨sig, hsig, hweight⟩ := gauges_weight hg
    have hget : (app.engine s.app).cache.get? g.ref = some sig := hsig
    rw [hweight, WeightEngine.weight, hget]
    exact hkept.knobs.weight_eq sig

theorem gauge_eq_weight_tick : ∃ s, Runs.run soleApp.wiredStep (soleApp.wiredBoot Dict.empty 0)
    (tickAndReload fastConfig) = some s ∧ soleApp.ExportsPickWeight s := by
  obtain ⟨s, hrun, -⟩ := run_tickAndReload fastConfig
  refine ⟨s, hrun, soleApp.gauge_eq_weight hrun fun cfg hcfg => ?_⟩
  simp only [tickAndReload, List.mem_append, List.mem_map, reduceCtorEq, and_false, exists_false,
    List.mem_singleton, false_or, WiredEvent.reloaded.injEq] at hcfg
  rw [hcfg]
  exact soleApp.keepsWeights_cfg

/-- A candidate that has signals is exported only if the holder's config has it. -/
theorem App.mem_holder_of_exports {app : App} {s : WiredState} (h : app.ExportsPickWeight s)
    {cand : CandidateRef} (hsignals : (app.engine s.app).signalsFor cand ≠ none) :
    ∃ t ∈ s.holder.tiers.values.flatMap TierConfig.candidates, t.ref = cand := by
  obtain ⟨g, hg, rfl⟩ := h.exported cand hsignals
  obtain ⟨t, ht, hg⟩ := List.mem_filterMap.mp hg
  obtain ⟨sig, -, rfl⟩ := Option.map_eq_some_iff.mp hg
  exact ⟨t, ht, rfl⟩

/-! ## 4. A reload that shows on the gauge only -/

/-- **The gauge follows the reload, the engine does not**: the exported weight is zero, and the
candidate goes on being picked. -/
theorem gauge_follows_reload : ∃ s, Runs.run soleApp.wiredStep (soleApp.wiredBoot Dict.empty 0)
    (tickAndReload highFloorConfig) = some s ∧
    (soleApp.engine s.app).weight soleCand = 999 / 1000 ∧
    (∃ g ∈ refreshObservabilityGauges s.holder (soleApp.engine s.app),
      g.ref = soleCand ∧ g.routingWeight = 0) ∧
    ¬ soleApp.ExportsPickWeight s := by
  obtain ⟨s, hrun, hholder, hweight, hgauges⟩ := run_tickAndReload highFloorConfig
  rw [← hholder] at hgauges
  have hmem : (soleCand, (0 : ℚ)) ∈ (refreshObservabilityGauges s.holder
      (soleApp.engine s.app)).map fun g => (g.ref, g.routingWeight) := by
    rw [hgauges]
    exact List.mem_singleton_self _
  obtain ⟨g, hg, heq⟩ := List.mem_map.mp hmem
  obtain ⟨href, hzero⟩ := Prod.mk.inj heq
  refine ⟨s, hrun, hweight, ⟨g, hg, href, hzero⟩, fun h => ?_⟩
  have hsame := h.weight g hg
  rw [hzero, href, hweight] at hsame
  norm_num at hsame

end Librouter
