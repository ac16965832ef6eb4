/-
# Who gets the traffic of a candidate that does worse

Over all draws, the chance of a candidate is its share of the weights `pick` draws from.  The weight
falls with every signal that gets worse, so the candidate loses traffic, and what it loses goes to
the others in proportion to what they have (`traffic_shifts`).  The same happens when `route`
excludes a candidate.
-/
import Librouter.Routing.Picks

namespace Librouter

open WeightedDraw MeasureTheory
open scoped ENNReal

/-! ## 1. Worse signals, lower weights -/

/-- The signals `s'` are nowhere better than `s`. -/
structure CandidateSignals.Worse (s s' : CandidateSignals) : Prop where
  baseWeight_nonneg : 0 ≤ s'.baseWeight
  baseWeight : s'.baseWeight ≤ s.baseWeight
  errorRate : s.errorRate ≤ s'.errorRate
  meanLatencyS : s.meanLatencyS ≤ s'.meanLatencyS
  rpmCap : s'.rpmCap = s.rpmCap
  tpmCap : s'.tpmCap = s.tpmCap
  rpmRemaining : s'.rpmRemaining ≤ s.rpmRemaining
  tpmRemaining : s'.tpmRemaining ≤ s.tpmRemaining
  breaker : s.breaker = .opened → s'.breaker = .opened

/-- More errors or a higher latency, a lower health score. -/
theorem healthScore_anti {target e e' l l' : ℚ} (htarget : 0 < target) (he : e ≤ e')
    (hl : l ≤ l') : healthScore e' l' target ≤ healthScore e l target := by
  have hlatency : max 0 l ≤ max 0 l' := max_le_max_left 0 hl
  have hpos : 0 < target + max 0 l := add_pos_of_pos_of_nonneg htarget (le_max_left _ _)
  refine mul_le_mul (max_le_max_left 0 (by linarith)) ?_ ?_ (le_max_left _ _)
  · exact div_le_div_of_nonneg_left htarget.le hpos (by linarith)
  · exact div_nonneg htarget.le (add_nonneg htarget.le (le_max_left _ _))

/-- Less left in the bucket, a lower budget score. -/
theorem budgetScore_mono {rpm rpm' rpmCap tpm tpm' tpmCap : ℤ} (hrpm : rpm' ≤ rpm)
    (htpm : tpm' ≤ tpm) :
    budgetScore rpm' rpmCap tpm' tpmCap ≤ budgetScore rpm rpmCap tpm tpmCap := by
  unfold budgetScore
  split
  · exact le_rfl
  · rename_i hcaps
    obtain ⟨hrpmCap, htpmCap⟩ := not_or.mp hcaps
    have hr : (0 : ℚ) ≤ rpmCap := by exact_mod_cast (not_le.mp hrpmCap).le
    have ht : (0 : ℚ) ≤ tpmCap := by exact_mod_cast (not_le.mp htpmCap).le
    refine min_le_min (max_le_max_left 0 ?_) (max_le_max_left 0 ?_)
    · exact div_le_div_of_nonneg_right (by exact_mod_cast hrpm) hr
    · exact div_le_div_of_nonneg_right (by exact_mod_cast htpm) ht

/-- **Worse signals, a lower weight**: the floor and the breaker never raise it. -/
theorem CandidateSignals.Worse.weight_le {s s' : CandidateSignals} (h : s.Worse s')
    (routing : RoutingConfig) : s'.weight routing ≤ s.weight routing := by
  have htarget := routing.targetLatencyS_pos
  have hhealth := healthScore_anti htarget h.errorRate h.meanLatencyS
  have hbudget : budgetScore s'.rpmRemaining s'.rpmCap s'.tpmRemaining s'.tpmCap ≤
      budgetScore s.rpmRemaining s.rpmCap s.tpmRemaining s.tpmCap := by
    rw [h.rpmCap, h.tpmCap]
    exact budgetScore_mono h.rpmRemaining h.tpmRemaining
  have hhealth0 := healthScore_nonneg s'.errorRate s'.meanLatencyS htarget
  have hbudget0 := budgetScore_nonneg s'.rpmRemaining s'.rpmCap s'.tpmRemaining s'.tpmCap
  have hbase := h.baseWeight_nonneg.trans h.baseWeight
  have hbasehealth := mul_le_mul h.baseWeight hhealth hhealth0 hbase
  have hle := mul_le_mul hbasehealth hbudget hbudget0
    (mul_nonneg hbase (hhealth0.trans hhealth))
  have hnonneg := mul_nonneg (mul_nonneg h.baseWeight_nonneg hhealth0) hbudget0
  unfold CandidateSignals.weight effectiveWeight
  by_cases hopened' : s'.breaker = .opened
  · rw [if_pos hopened']
    split
    · exact le_rfl
    · split
      · exact hnonneg.trans hle
      · exact le_rfl
  · rw [if_neg hopened', if_neg fun hopened => hopened' (h.breaker hopened)]
    split
    · rename_i hfloor
      rw [if_pos (hfloor.trans hle)]
      exact hle
    · split
      · exact hnonneg.trans hle
      · exact le_rfl

/-- The signals of a candidate got worse, or it has none any more. -/
def SignalsWorsen : Option CandidateSignals → Option CandidateSignals → Prop
  | _, none => True
  | some s, some s' => s.Worse s'
  | none, some _ => False

/-! ## 2. The chance of a candidate -/

namespace WeightEngine

variable (engine : WeightEngine) (tierCandidates : List TierEntry) (exclude : List CandidateRef)

/-- `pick`, for a draw among the real numbers. -/
noncomputable def pickAt (u : ℝ) : Option CandidateRef :=
  drawLabel u ((engine.weighted tierCandidates exclude).map fun e => (e.1, Rat.castHom ℝ e.2))

/-- How many of the draws return the candidate. -/
noncomputable def chance (cand : CandidateRef) : ℝ≥0∞ :=
  volume {u : ℝ | u ∈ Set.Ico 0 1 ∧ engine.pickAt tierCandidates exclude u = some cand}

/-- The part the weight of the candidate has in the total. -/
def share (cand : CandidateRef) : ℚ :=
  mass (engine.weighted tierCandidates exclude) cand /
    (engine.liveWeights tierCandidates exclude).sum

/-- At the draws of `rng.random()` it is `pick`. -/
theorem pickAt_draw (draw : UnitDraw) : engine.pickAt tierCandidates exclude (draw.val : ℝ) =
    engine.pick tierCandidates exclude draw := by
  have hweights : ((engine.weighted tierCandidates exclude).map fun e =>
      (e.1, Rat.castHom ℝ e.2)).map Prod.snd =
        (engine.liveWeights tierCandidates exclude).map (Rat.castHom ℝ) := by
    rw [liveWeights, List.map_map, List.map_map]
    rfl
  rw [pick_eq_draw, ← draw_cast, pickAt, drawLabel, hweights]
  refine congrArg (Option.bind _) (funext fun i => ?_)
  rw [List.getElem?_map, Option.map_map]
  rfl

/-- **The chance is the share.** -/
theorem chance_eq (cand : CandidateRef) : engine.chance tierCandidates exclude cand =
    ENNReal.ofReal (engine.share tierCandidates exclude cand : ℝ) := by
  have hpos : ∀ e ∈ (engine.weighted tierCandidates exclude).map fun e =>
      (e.1, Rat.castHom ℝ e.2), 0 < e.2 := by
    intro e he
    obtain ⟨e', he', rfl⟩ := List.mem_map.mp he
    exact Rat.cast_pos.mpr (engine.liveWeights_pos tierCandidates exclude _
      (List.mem_map_of_mem he'))
  have htotal : (((engine.weighted tierCandidates exclude).map fun e =>
      (e.1, Rat.castHom ℝ e.2)).map Prod.snd).sum =
        ((engine.liveWeights tierCandidates exclude).sum : ℝ) := by
    rw [liveWeights, List.map_map, ← eq_ratCast (Rat.castHom ℝ), map_list_sum, List.map_map]
    rfl
  rw [chance]
  simp only [pickAt]
  rw [volume_drawLabel hpos, htotal]
  have hmass := mass_map (Rat.castHom ℝ).toAddMonoidHom
    (engine.weighted tierCandidates exclude) cand
  congr 1
  rw [share, Rat.cast_div]
  congr 1

/-- What `pick` sees of a candidate: nothing, if it is excluded or has no positive weight. -/
def drawWeight (ref : CandidateRef) : ℚ := if ref ∈ exclude then 0 else max 0 (engine.weight ref)

theorem drawWeight_nonneg (ref : CandidateRef) : 0 ≤ engine.drawWeight exclude ref := by
  unfold drawWeight
  split
  · exact le_rfl
  · exact le_max_left _ _

/-- The entries `pick` skips weigh nothing, so sums go over the whole tier. -/
theorem sum_weighted (f : CandidateRef → ℚ → ℚ) (hf : ∀ ref, f ref 0 = 0) :
    ((engine.weighted tierCandidates exclude).map fun e => f e.1 e.2).sum =
      ((tierCandidates.map TierEntry.ref).map fun ref =>
        f ref (engine.drawWeight exclude ref)).sum := by
  unfold weighted
  generalize tierCandidates.map TierEntry.ref = refs
  induction refs with
  | nil => rfl
  | cons ref refs ih =>
    by_cases hlive : ref ∉ exclude ∧ 0 < engine.weight ref
    · have hweight : engine.drawWeight exclude ref = engine.weight ref := by
        rw [drawWeight, if_neg hlive.1, max_eq_right hlive.2.le]
      rw [List.filter_cons_of_pos (by simpa using hlive), List.map_cons, List.map_cons,
        List.sum_cons, List.map_cons, List.sum_cons, hweight, ih]
    · have hweight : engine.drawWeight exclude ref = 0 := by
        unfold drawWeight
        split
        · rfl
        · rename_i hout
          exact max_eq_left (not_lt.mp fun hpos => hlive ⟨hout, hpos⟩)
      rw [List.filter_cons_of_neg (by simpa using hlive), List.map_cons, List.sum_cons, hweight, hf,
        zero_add, ih]

/-- The weight of the entries of `cand`, and of all the others. -/
def ofCand (cand : CandidateRef) : ℚ :=
  ((tierCandidates.map TierEntry.ref).map fun ref =>
    if ref = cand then engine.drawWeight exclude ref else 0).sum

def ofOthers (cand : CandidateRef) : ℚ :=
  ((tierCandidates.map TierEntry.ref).map fun ref =>
    if ref = cand then 0 else engine.drawWeight exclude ref).sum

theorem ofCand_nonneg (cand : CandidateRef) : 0 ≤ engine.ofCand tierCandidates exclude cand := by
  refine List.sum_nonneg (List.forall_mem_map.mpr fun ref _ => ?_)
  split
  · exact engine.drawWeight_nonneg exclude ref
  · exact le_rfl

theorem ofOthers_nonneg (cand : CandidateRef) :
    0 ≤ engine.ofOthers tierCandidates exclude cand := by
  refine List.sum_nonneg (List.forall_mem_map.mpr fun ref _ => ?_)
  split
  · exact le_rfl
  · exact engine.drawWeight_nonneg exclude ref

/-- The total is what the candidate weighs and what the others weigh. -/
theorem sum_liveWeights (cand : CandidateRef) : (engine.liveWeights tierCandidates exclude).sum =
    engine.ofCand tierCandidates exclude cand + engine.ofOthers tierCandidates exclude cand := by
  rw [liveWeights, engine.sum_weighted tierCandidates exclude (fun _ w => w) fun _ => rfl, ofCand,
    ofOthers, ← List.sum_map_add]
  congr 1
  refine List.map_congr_left fun ref _ => ?_
  split
  · exact (add_zero _).symm
  · exact (zero_add _).symm

theorem mass_weighted (cand : CandidateRef) : mass (engine.weighted tierCandidates exclude) cand =
    engine.ofCand tierCandidates exclude cand :=
  engine.sum_weighted tierCandidates exclude (fun ref w => if ref = cand then w else 0)
    fun _ => ite_self _

theorem share_eq (cand other : CandidateRef) : engine.share tierCandidates exclude cand =
    engine.ofCand tierCandidates exclude cand /
      (engine.ofCand tierCandidates exclude other +
        engine.ofOthers tierCandidates exclude other) := by
  rw [share, mass_weighted, engine.sum_liveWeights tierCandidates exclude other]

theorem share_nonneg (cand : CandidateRef) : 0 ≤ engine.share tierCandidates exclude cand := by
  rw [engine.share_eq tierCandidates exclude cand cand]
  exact div_nonneg (engine.ofCand_nonneg _ _ _)
    (add_nonneg (engine.ofCand_nonneg _ _ _) (engine.ofOthers_nonneg _ _ _))

/-- **No draw is lost**, as long as there is anything to pick. -/
theorem sum_chance (hlive : engine.weighted tierCandidates exclude ≠ []) :
    ∑ cand ∈ (tierCandidates.map TierEntry.ref).toFinset,
      engine.chance tierCandidates exclude cand = 1 := by
  have hlabels : ∀ e ∈ engine.weighted tierCandidates exclude,
      e.1 ∈ (tierCandidates.map TierEntry.ref).toFinset := by
    intro e he
    obtain ⟨ref, href, rfl⟩ := List.mem_map.mp he
    exact List.mem_toFinset.mpr (List.mem_of_mem_filter href)
  have htotal : 0 < (engine.liveWeights tierCandidates exclude).sum :=
    sum_pos (engine.liveWeights_pos tierCandidates exclude) fun hnil =>
      hlive (List.map_eq_nil_iff.mp hnil)
  have hshares : ∑ cand ∈ (tierCandidates.map TierEntry.ref).toFinset,
      engine.share tierCandidates exclude cand = 1 := by
    simp only [share]
    rw [← Finset.sum_div, sum_mass hlabels]
    exact div_self htotal.ne'
  simp only [chance_eq]
  rw [← ENNReal.ofReal_sum_of_nonneg fun cand _ =>
    Rat.cast_nonneg.mpr (engine.share_nonneg tierCandidates exclude cand), ← Rat.cast_sum, hshares,
    Rat.cast_one, ENNReal.ofReal_one]

/-- One of the others is part of the others. -/
theorem ofCand_le_ofOthers {cand other : CandidateRef} (hne : other ≠ cand) :
    engine.ofCand tierCandidates exclude other ≤ engine.ofOthers tierCandidates exclude cand := by
  refine List.sum_le_sum fun ref _ => ?_
  by_cases hother : ref = other
  · rw [if_pos hother, if_neg (hother ▸ hne)]
  · rw [if_neg hother]
    split
    · exact le_rfl
    · exact engine.drawWeight_nonneg exclude ref

end WeightEngine

/-! ## 3. One candidate weighs less -/

/-- `cand` weighs no more than before, and the others as much. -/
structure Lightens (engine : WeightEngine) (exclude : List CandidateRef) (engine' : WeightEngine)
    (exclude' : List CandidateRef) (cand : CandidateRef) : Prop where
  le : engine'.drawWeight exclude' cand ≤ engine.drawWeight exclude cand
  others : ∀ other, other ≠ cand →
    engine'.drawWeight exclude' other = engine.drawWeight exclude other

/-- Traffic moves from `cand` to the others, who share it as they did. -/
structure TrafficShifts (before after : CandidateRef → ℝ≥0∞) (cand : CandidateRef) : Prop where
  loses : after cand ≤ before cand
  gain : ∀ other, other ≠ cand → before other ≤ after other
  ratio : ∀ other other', other ≠ cand → other' ≠ cand →
    before other * after other' = after other * before other'

namespace Lightens

variable {engine engine' : WeightEngine} {exclude exclude' : List CandidateRef}
variable {cand : CandidateRef}

theorem ofCand_le (h : Lightens engine exclude engine' exclude' cand)
    (tierCandidates : List TierEntry) :
    engine'.ofCand tierCandidates exclude' cand ≤ engine.ofCand tierCandidates exclude cand := by
  refine List.sum_le_sum fun ref _ => ?_
  by_cases hcand : ref = cand
  · rw [if_pos hcand, if_pos hcand, hcand]
    exact h.le
  · rw [if_neg hcand, if_neg hcand]

theorem ofCand_eq (h : Lightens engine exclude engine' exclude' cand)
    (tierCandidates : List TierEntry) {other : CandidateRef} (hne : other ≠ cand) :
    engine'.ofCand tierCandidates exclude' other = engine.ofCand tierCandidates exclude other := by
  unfold WeightEngine.ofCand
  congr 1
  refine List.map_congr_left fun ref _ => ?_
  by_cases hother : ref = other
  · rw [if_pos hother, if_pos hother, hother, h.others other hne]
  · rw [if_neg hother, if_neg hother]

theorem ofOthers_eq (h : Lightens engine exclude engine' exclude' cand)
    (tierCandidates : List TierEntry) :
    engine'.ofOthers tierCandidates exclude' cand =
      engine.ofOthers tierCandidates exclude cand := by
  unfold WeightEngine.ofOthers
  congr 1
  refine List.map_congr_left fun ref _ => ?_
  by_cases hcand : ref = cand
  · rw [if_pos hcand, if_pos hcand]
  · rw [if_neg hcand, if_neg hcand, h.others ref hcand]

/-- **Who weighs less is picked less, and the others are picked more, in proportion.** -/
theorem trafficShifts (h : Lightens engine exclude engine' exclude' cand)
    (tierCandidates : List TierEntry) :
    TrafficShifts (engine.chance tierCandidates exclude) (engine'.chance tierCandidates exclude')
      cand := by
  have hle := h.ofCand_le tierCandidates
  have hpos := engine'.ofCand_nonneg tierCandidates exclude' cand
  have hrest := engine.ofOthers_nonneg tierCandidates exclude cand
  have hsame := h.ofOthers_eq tierCandidates
  constructor
  · rw [WeightEngine.chance_eq, WeightEngine.chance_eq, WeightEngine.share_eq _ _ _ _ cand,
      WeightEngine.share_eq _ _ _ _ cand, hsame]
    exact ENNReal.ofReal_le_ofReal (Rat.cast_le.mpr (share_le_share hpos hle hrest))
  · intro other hne
    rw [WeightEngine.chance_eq, WeightEngine.chance_eq, WeightEngine.share_eq _ _ _ _ cand,
      WeightEngine.share_eq _ _ _ _ cand, hsame, h.ofCand_eq tierCandidates hne]
    exact ENNReal.ofReal_le_ofReal (Rat.cast_le.mpr (share_of_rest_le hpos hle
      (engine.ofCand_nonneg tierCandidates exclude other)
      (engine.ofCand_le_ofOthers tierCandidates exclude hne)))
  · intro other other' hne hne'
    have hshare : engine.share tierCandidates exclude other *
        engine'.share tierCandidates exclude' other' =
          engine'.share tierCandidates exclude' other *
            engine.share tierCandidates exclude other' := by
      simp only [WeightEngine.share_eq _ _ _ _ cand, h.ofCand_eq tierCandidates hne,
        h.ofCand_eq tierCandidates hne']
      ring
    rw [WeightEngine.chance_eq, WeightEngine.chance_eq, WeightEngine.chance_eq,
      WeightEngine.chance_eq,
      ← ENNReal.ofReal_mul (Rat.cast_nonneg.mpr (engine.share_nonneg _ _ _)),
      ← ENNReal.ofReal_mul (Rat.cast_nonneg.mpr (engine'.share_nonneg _ _ _)),
      ← Rat.cast_mul, ← Rat.cast_mul, hshare]

end Lightens

/-! ## 4. What makes a candidate weigh less -/

theorem WeightEngine.weight_le {engine : WeightEngine} {cand : CandidateRef}
    {cache' : Dict CandidateRef CandidateSignals}
    (h : SignalsWorsen (engine.cache.get? cand) (cache'.get? cand)) :
    max 0 (({ engine with cache := cache' } : WeightEngine).weight cand) ≤
      max 0 (engine.weight cand) := by
  unfold WeightEngine.weight
  cases hold : engine.cache.get? cand with
  | none =>
    cases hnew : cache'.get? cand with
    | none => exact le_rfl
    | some s' =>
      rw [hold, hnew] at h
      exact absurd h id
  | some s =>
    cases hnew : cache'.get? cand with
    | none => exact max_le (le_max_left _ _) (le_max_left _ _)
    | some s' =>
      rw [hold, hnew] at h
      exact max_le_max_left 0 (CandidateSignals.Worse.weight_le h engine.routing)

theorem lightens_of_worse {engine : WeightEngine} {cand : CandidateRef}
    {cache' : Dict CandidateRef CandidateSignals} (exclude : List CandidateRef)
    (hothers : ∀ other, other ≠ cand → cache'.get? other = engine.cache.get? other)
    (hworse : SignalsWorsen (engine.cache.get? cand) (cache'.get? cand)) :
    Lightens engine exclude { engine with cache := cache' } exclude cand where
  le := by
    unfold WeightEngine.drawWeight
    split
    · exact le_rfl
    · exact WeightEngine.weight_le hworse
  others other hne := by
    unfold WeightEngine.drawWeight WeightEngine.weight
    rw [hothers other hne]

theorem lightens_of_exclude (engine : WeightEngine) (exclude : List CandidateRef)
    (cand : CandidateRef) : Lightens engine exclude engine (cand :: exclude) cand where
  le := by
    rw [WeightEngine.drawWeight, if_pos List.mem_cons_self]
    exact engine.drawWeight_nonneg exclude cand
  others other hne := by
    unfold WeightEngine.drawWeight
    simp only [List.mem_cons, hne, false_or]

/-- **Traffic shifts away from the worse candidate.**  For every cache, tier and set of excluded
candidates: when the signals of one candidate get worse (more errors, a higher latency, less left in
its bucket, a lower base weight, its breaker opened, or none at all), `pick` returns it for no more
of the draws, every other candidate for no fewer, and the others in the same proportion to each
other; and the same when `route` excludes it.  As long as there is anything to pick, no draw is
lost. -/
theorem traffic_shifts (engine : WeightEngine) (tierCandidates : List TierEntry)
    (exclude : List CandidateRef) {cand : CandidateRef}
    {cache' : Dict CandidateRef CandidateSignals}
    (hothers : ∀ other, other ≠ cand → cache'.get? other = engine.cache.get? other)
    (hworse : SignalsWorsen (engine.cache.get? cand) (cache'.get? cand)) :
    (∀ (e : WeightEngine) (draw : UnitDraw), e.pickAt tierCandidates exclude (draw.val : ℝ) =
        e.pick tierCandidates exclude draw) ∧
      (∀ e : WeightEngine, e.weighted tierCandidates exclude ≠ [] →
        ∑ c ∈ (tierCandidates.map TierEntry.ref).toFinset, e.chance tierCandidates exclude c = 1) ∧
      TrafficShifts (engine.chance tierCandidates exclude)
        (({ engine with cache := cache' } : WeightEngine).chance tierCandidates exclude) cand ∧
      TrafficShifts (engine.chance tierCandidates exclude)
        (engine.chance tierCandidates (cand :: exclude)) cand :=
  ⟨fun e draw => e.pickAt_draw tierCandidates exclude draw,
    fun e hlive => e.sum_chance tierCandidates exclude hlive,
    (lightens_of_worse exclude hothers hworse).trafficShifts tierCandidates,
    (lightens_of_exclude engine exclude cand).trafficShifts tierCandidates⟩

/-- Good signals, but for the breaker. -/
def steadySignals (breaker : BreakerState) : CandidateSignals :=
  ⟨1, 0, 0, 60, 60, 1000, 1000, breaker⟩

/-- Two vendors. -/
def pairTier : List TierEntry := [sampleEntry "openai" "gpt-4o-mini", sampleEntry "google" "flash"]

/-- Both do well. -/
def pairEngine : WeightEngine where
  routing := fastConfig.routing
  cache := (Dict.empty.set ⟨"openai", "gpt-4o-mini"⟩ (steadySignals .closed)).set
    ⟨"google", "flash"⟩ (steadySignals .closed)

/-- The shift, when the breaker of the first opens: from one half to nothing. -/
theorem traffic_shifts_opened :
    let cache' := pairEngine.cache.set ⟨"openai", "gpt-4o-mini"⟩ (steadySignals .opened)
    let engine' : WeightEngine := { pairEngine with cache := cache' }
    (pairEngine.share pairTier [] ⟨"google", "flash"⟩ = 1 / 2 ∧
      engine'.share pairTier [] ⟨"google", "flash"⟩ = 1) ∧
      TrafficShifts (pairEngine.chance pairTier []) (engine'.chance pairTier [])
        ⟨"openai", "gpt-4o-mini"⟩ := by
  refine ⟨by decide +kernel, ?_⟩
  refine (traffic_shifts pairEngine pairTier []
    (fun other hne => Dict.get?_set_ne _ _ hne) ?_).2.2.1
  have hold : pairEngine.cache.get? ⟨"openai", "gpt-4o-mini"⟩ = some (steadySignals .closed) := by
    rfl
  rw [hold, Dict.get?_set_self]
  exact ⟨by decide +kernel, le_rfl, le_rfl, le_rfl, rfl, rfl, le_rfl, le_rfl, fun _ => rfl⟩

end Librouter
