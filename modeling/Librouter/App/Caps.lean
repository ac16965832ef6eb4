/-
# Published caps against enforced caps

`lifespan` builds the limits of the bucket with a dict comprehension over all candidates of all
tiers, so of several entries under one `provider/model` the LAST counts.  `build_signals` takes the
caps it publishes from `_all_candidates`, which uses `setdefault`, so there the FIRST counts.  A
level the bucket refilled to one cap is then divided by the other, and the budget score of an
overloaded candidate can be any number.

`capsAgree_iff` says when the two agree: after every tick of every run, the published caps are the
enforced ones and all scores lie in `[0, 1]`, exactly when the first and the last entry of every
available candidate have the same limits.

The invariant is that the signals under construction are those of the candidates done so far
(`TickSound`), with a non-negative error rate and levels within the enforced caps.
-/
import Librouter.App.Wiring
import Librouter.Foundations.Runs

namespace Librouter

/-! ## 1. Which entry counts -/

/-- The entries of all tiers, in order. -/
def Config.entries (cfg : Config) : List TierEntry := cfg.tiers.values.flatMap TierConfig.candidates

/-- The first entry for a candidate. -/
def Config.firstEntry (cfg : Config) (cand : CandidateRef) : Option TierEntry :=
  cfg.entries.find? fun t => t.ref = cand

/-- The last entry with the `provider/model` of a candidate. -/
def Config.lastEntry (cfg : Config) (cand : CandidateRef) : Option TierEntry :=
  cfg.entries.reverse.find? fun t =>
    candidateKey t.provider t.model = candidateKey cand.provider cand.model

/-- The limits of the bucket are those of the last entry. -/
theorem App.entry_eq_ok_iff {app : App} {cand : CandidateRef} {limits : RateLimitEntry} :
    app.bucket.entry cand.provider cand.model = .ok limits ↔
      (app.cfg.lastEntry cand).map TierEntry.rateLimits = some limits := by
  have hget : app.bucket.limits.get? (candidateKey cand.provider cand.model)
      = (app.cfg.lastEntry cand).map TierEntry.rateLimits := by
    rw [bucket, Dict.get?_ofList, ← List.map_reverse, Dict.lookup_map_eq_find?]
    rfl
  rw [RedisTokenBucket.entry, hget]
  cases (app.cfg.lastEntry cand).map TierEntry.rateLimits <;> simp

/-- What `_all_candidates` yields is from the first entry. -/
theorem Config.mem_allCandidates_iff {cfg : Config} {c : RatedCandidate} :
    c ∈ cfg.allCandidates ↔
      ∃ t, cfg.firstEntry c.ref = some t ∧ c.baseWeight = t.weight ∧ c.rateLimits = t.rateLimits := by
  have hget : ∀ ref, ((cfg.tiers.values.flatMap TierConfig.candidates).foldl
      (fun seen t => seen.setDefault t.ref (t.weight, t.rateLimits)) Dict.empty).get? ref
        = (cfg.firstEntry ref).map fun t => (t.weight, t.rateLimits) := by
    intro ref
    have hfold := Dict.get?_foldl_setDefault ref
      (cfg.entries.map fun t => (t.ref, (t.weight, t.rateLimits))) Dict.empty
    rw [List.foldl_map, Dict.get?_empty, Option.none_or, Dict.lookup_map_eq_find?] at hfold
    exact hfold
  rw [allCandidates, List.mem_map]
  constructor
  · rintro ⟨⟨ref, weight, limits⟩, hmem, rfl⟩
    have hfirst := Dict.get?_of_mem hmem
    rw [hget] at hfirst
    obtain ⟨t, ht, heq⟩ := Option.map_eq_some_iff.mp hfirst
    obtain ⟨rfl, rfl⟩ := Prod.mk.inj heq
    exact ⟨t, ht, rfl, rfl⟩
  · rintro ⟨t, ht, hweight, hlimits⟩
    refine ⟨(c.ref, c.baseWeight, c.rateLimits), Dict.get?_eq_some_iff.mp ?_, rfl⟩
    rw [hget, ht, hweight, hlimits]
    rfl

/-! ## 2. What the app promises -/

/-- The caps of the signals are those the bucket enforces, and the scores are scores. -/
structure App.SignalsOk (app : App) (cand : CandidateRef) (p : CandidateSignals) : Prop where
  caps : ∃ limits, app.bucket.entry cand.provider cand.model = .ok limits ∧
    p.rpmCap = limits.rpm ∧ p.tpmCap = limits.tpm
  budget : 0 ≤ budgetScore p.rpmRemaining p.rpmCap p.tpmRemaining p.tpmCap ∧
    budgetScore p.rpmRemaining p.rpmCap p.tpmRemaining p.tpmCap ≤ 1
  health : 0 ≤ healthScore p.errorRate p.meanLatencyS app.cfg.routing.targetLatencyS ∧
    healthScore p.errorRate p.meanLatencyS app.cfg.routing.targetLatencyS ≤ 1
  weight : 0 ≤ p.weight app.cfg.routing ∧ p.weight app.cfg.routing ≤ p.baseWeight

/-- All signals of the weight engine are. -/
def App.Promise (app : App) (s : AppState) : Prop :=
  ∀ cand p, s.refresh.cache.get? cand = some p → app.SignalsOk cand p

/-- The first and the last entry of every available candidate have the same limits. -/
def App.LimitsAgree (app : App) : Prop :=
  ∀ cand, cand.provider ∈ app.vendors → ∀ t ∈ app.cfg.firstEntry cand,
    ∀ t' ∈ app.cfg.lastEntry cand, t.rateLimits = t'.rateLimits

/-! ## 3. Scores -/

/-- A level within the cap gives a score of at most one. -/
theorem budgetScore_le_one {rpm rpmCap : ℤ} (tpm tpmCap : ℤ) (h : rpm ≤ rpmCap) :
    budgetScore rpm rpmCap tpm tpmCap ≤ 1 := by
  unfold budgetScore
  split
  · exact zero_le_one
  · rename_i hcap
    have hpos : (0 : ℚ) < rpmCap := by
      exact_mod_cast not_le.mp (not_or.mp hcap).1
    refine (min_le_left _ _).trans (max_le zero_le_one ?_)
    rw [div_le_one hpos]
    exact_mod_cast h

theorem healthScore_le_one {errorRate : ℚ} (meanLatencyS : ℚ) {target : ℚ} (he : 0 ≤ errorRate)
    (ht : 0 < target) : healthScore errorRate meanLatencyS target ≤ 1 := by
  have hsum : 0 < target + max 0 meanLatencyS := add_pos_of_pos_of_nonneg ht (le_max_left _ _)
  have herror : max 0 (1 - errorRate) ≤ 1 := max_le zero_le_one (sub_le_self _ he)
  have hlatency : target / (target + max 0 meanLatencyS) ≤ 1 :=
    (div_le_one hsum).mpr (le_add_of_nonneg_right (le_max_left _ _))
  exact mul_le_one₀ herror (div_nonneg ht.le hsum.le) hlatency

/-- A weight is a part of the base weight, when both scores are scores. -/
theorem effectiveWeight_bounds {base health budget : ℚ} (breaker : BreakerState) (floor : ℚ)
    (hbase : 0 ≤ base) (hhealth : 0 ≤ health ∧ health ≤ 1) (hbudget : 0 ≤ budget ∧ budget ≤ 1) :
    0 ≤ effectiveWeight base health budget breaker floor ∧
      effectiveWeight base health budget breaker floor ≤ base := by
  have hnonneg : 0 ≤ base * health * budget :=
    mul_nonneg (mul_nonneg hbase hhealth.1) hbudget.1
  have hle : base * health * budget ≤ base := by
    calc base * health * budget ≤ base * health :=
          mul_le_of_le_one_right (mul_nonneg hbase hhealth.1) hbudget.2
      _ ≤ base := mul_le_of_le_one_right hbase hhealth.2
  unfold effectiveWeight
  split
  · exact ⟨le_refl 0, hbase⟩
  · split
    · exact ⟨hnonneg, hle⟩
    · exact ⟨le_refl 0, hbase⟩

/-! ## 4. Counters

What `aggregate` reads was written by `record_success` and `record_failure`, which only count up. -/

/-- The counters of an observation are counts. -/
structure RedisEntry.Counting (e : RedisEntry) : Prop where
  successes : 0 ≤ e.count "successes"
  failures : 0 ≤ e.count "failures"

/-- All counters are. -/
def Redis.Counting (r : Redis) : Prop := ∀ key e, r.get? key = some e → e.Counting

theorem RedisEntry.count_hset (e : RedisEntry) (field : String) (v : ℚ) (f : String) :
    (e.hset field v).count f = if f = field then toInt v else e.count f := by
  unfold count
  by_cases h : f = field
  · rw [if_pos h, h, hset_fields_self, Option.getD_some]
  · rw [if_neg h, hset_fields_ne e v h]

namespace RedisEntry.Counting

variable {e : RedisEntry}

theorem missing : RedisEntry.missing.Counting := ⟨by decide, by decide⟩

theorem expire (h : e.Counting) (nowMs : ℚ) : (e.expire nowMs).Counting := by
  rcases e.expire_cases nowMs with ⟨-, -, -, hmiss⟩ | hsame
  · rw [hmiss]
    exact missing
  · rwa [hsame]

/-- Another field, or a count. -/
theorem hset (h : e.Counting) {field : String} {v : ℚ}
    (hv : (field = "successes" ∨ field = "failures") → 0 ≤ toInt v) :
    (e.hset field v).Counting := by
  constructor
  · rw [RedisEntry.count_hset]
    split
    · exact hv (Or.inl (Eq.symm ‹_›))
    · exact h.successes
  · rw [RedisEntry.count_hset]
    split
    · exact hv (Or.inr (Eq.symm ‹_›))
    · exact h.failures

theorem hincrby (h : e.Counting) {field : String} {n : ℤ}
    (hn : (field = "successes" ∨ field = "failures") → 0 ≤ n) : (e.hincrby field n).Counting := by
  refine h.hset fun hfield => ?_
  rw [← Int.cast_add, toInt_intCast]
  refine add_nonneg ?_ (hn hfield)
  rcases hfield with rfl | rfl
  · exact h.successes
  · exact h.failures

theorem foldl_hincrby {incrs : List (String × ℤ)} (h : e.Counting)
    (hincrs : ∀ i ∈ incrs, (i.1 = "successes" ∨ i.1 = "failures") → 0 ≤ i.2) :
    (incrs.foldl (fun e i => e.hincrby i.1 i.2) e).Counting := by
  induction incrs generalizing e with
  | nil => exact h
  | cons i incrs ih =>
    obtain ⟨hi, hincrs⟩ := List.forall_mem_cons.mp hincrs
    exact ih (h.hincrby hi) hincrs

theorem pexpire (h : e.Counting) (nowMs ttlMs : ℚ) : (e.pexpire nowMs ttlMs).Counting :=
  ⟨h.successes, h.failures⟩

/-- The script of the bucket writes other fields. -/
theorem ratelimitLua (h : e.Counting) (a : RatelimitArgs) :
    (Librouter.ratelimitLua e a).1.Counting := by
  have hother : ∀ {e : RedisEntry} (field : String) (v : ℚ), e.Counting →
      ¬ (field = "successes" ∨ field = "failures") → (e.hset field v).Counting :=
    fun _ v he hfield => he.hset fun h => absurd h hfield
  have hrpm := hother "rpm_remaining" (a.rpmLeft e) h (by decide)
  have htpm := hother "tpm_remaining" (a.tpmLeft e) hrpm (by decide)
  have hlast := hother "last_refill_ms" a.nowMs htpm (by decide)
  exact hlast.pexpire _ _

end RedisEntry.Counting

namespace Redis.Counting

variable {r : Redis}

theorem empty : Redis.Counting Dict.empty := by
  intro key e hget
  rw [Dict.get?_empty] at hget
  cases hget

theorem read (h : r.Counting) (nowMs : ℚ) (key : String) : (r.read nowMs key).Counting := by
  unfold Redis.read
  cases hget : r.get? key with
  | none => exact RedisEntry.Counting.missing.expire nowMs
  | some e => exact (h key e hget).expire nowMs

theorem set (h : r.Counting) (key : String) {e : RedisEntry} (he : e.Counting) :
    Redis.Counting (r.set key e) := by
  intro key' e' hget
  rw [Dict.get?_set] at hget
  split at hget
  · cases hget
    exact he
  · exact h key' e' hget

/-- An observation counts up. -/
theorem record (h : r.Counting) (o : Observer) (nowS : ℚ) (cand : CandidateRef)
    {incrs : List (String × ℤ)}
    (hincrs : ∀ i ∈ incrs, (i.1 = "successes" ∨ i.1 = "failures") → 0 ≤ i.2) :
    Redis.Counting (o.record r nowS cand incrs) := by
  exact h.set _ (((h.read _ _).foldl_hincrby hincrs).pexpire _ _)

theorem recordSuccess (h : r.Counting) (o : Observer) (nowS : ℚ) (cand : CandidateRef)
    (latencyS : ℚ) : Redis.Counting (o.recordSuccess r nowS cand latencyS) := by
  refine h.record o nowS cand ?_
  simp

theorem recordFailure (h : r.Counting) (o : Observer) (nowS : ℚ) (cand : CandidateRef)
    (kind : String) : Redis.Counting (o.recordFailure r nowS cand kind) := by
  refine h.record o nowS cand ?_
  simp

/-- The error rate is a rate. -/
theorem errorRate_nonneg (h : r.Counting) (o : Observer) (nowS : ℚ) (cand : CandidateRef) :
    0 ≤ (o.aggregate r nowS cand).errorRate := by
  have hsum : ∀ field, (∀ key, 0 ≤ (r.read (nowS * 1000) key).count field) →
      0 ≤ (((intRange (toInt nowS - o.windowS) (toInt nowS + 1)).map fun sec =>
        r.read (nowS * 1000) (observeKey cand.provider cand.model sec)).map
          fun e => e.count field).sum := by
    intro field hcount
    refine List.sum_nonneg fun x hx => ?_
    obtain ⟨e, he, rfl⟩ := List.mem_map.mp hx
    obtain ⟨sec, -, rfl⟩ := List.mem_map.mp he
    exact hcount _
  have hsuccesses := hsum "successes" fun key => (h.read _ key).successes
  have hfailures := hsum "failures" fun key => (h.read _ key).failures
  simp only [Observer.aggregate]
  split
  · exact le_refl 0
  · exact div_nonneg (Int.cast_nonneg hfailures) (Int.cast_nonneg (add_nonneg hsuccesses hfailures))

end Redis.Counting

/-! ## 5. A tick -/

/-- Signals of a candidate of `_all_candidates`, with levels within the enforced caps. -/
structure RefreshTask.SignalsFor (task : RefreshTask) (c : RatedCandidate) (p : CandidateSignals) :
    Prop where
  baseWeight : p.baseWeight = c.baseWeight
  rpmCap : p.rpmCap = c.rateLimits.rpm
  tpmCap : p.tpmCap = c.rateLimits.tpm
  errorRate : 0 ≤ p.errorRate
  levels : ∃ limits, task.bucket.entry c.ref.provider c.ref.model = .ok limits ∧
    p.rpmRemaining ≤ limits.rpm ∧ p.tpmRemaining ≤ limits.tpm

/-- `out` holds the signals of the candidates `done`, and of no others. -/
structure RefreshTask.Built (task : RefreshTask) (done : List RatedCandidate)
    (out : Dict CandidateRef CandidateSignals) : Prop where
  sound : ∀ cand p, out.get? cand = some p → ∃ c ∈ done, c.ref = cand ∧ task.SignalsFor c p
  complete : ∀ c ∈ done, ∃ p, out.get? c.ref = some p

/-- What a tick in progress has done so far. -/
def RefreshTask.TickSound (task : RefreshTask) : TickPc → Prop
  | .idle => True
  | .seeding _ => True
  | .sampling .. => True
  | .probing .. => True
  | .aggregating c pending out =>
    ∃ done, task.candidates = done ++ c :: pending ∧ task.Built done out
  | .budgeting c agg pending out =>
    0 ≤ agg.errorRate ∧ ∃ done, task.candidates = done ++ c :: pending ∧ task.Built done out
  | .stating c agg rpm tpm pending out =>
    0 ≤ agg.errorRate ∧
      (∃ limits, task.bucket.entry c.ref.provider c.ref.model = .ok limits ∧
        rpm ≤ limits.rpm ∧ tpm ≤ limits.tpm) ∧
      ∃ done, task.candidates = done ++ c :: pending ∧ task.Built done out

namespace RefreshTask

variable {task : RefreshTask} {s s' : RefreshState}

theorem built_nil : task.Built [] Dict.empty := ⟨nofun, nofun⟩

/-- One more candidate. -/
theorem Built.set {done : List RatedCandidate} {out : Dict CandidateRef CandidateSignals}
    (h : task.Built done out) {c : RatedCandidate} {p : CandidateSignals}
    (hp : task.SignalsFor c p) : task.Built (done ++ [c]) (out.set c.ref p) := by
  constructor
  · intro cand p' hget
    rw [Dict.get?_set] at hget
    split at hget
    · cases hget
      exact ⟨c, List.mem_append_right _ List.mem_cons_self, Eq.symm ‹_›, hp⟩
    · obtain ⟨c', hc', href, hp'⟩ := h.sound cand p' hget
      exact ⟨c', List.mem_append_left _ hc', href, hp'⟩
  · rw [List.forall_mem_append, List.forall_mem_singleton]
    constructor
    · intro c' hc'
      obtain ⟨p', hp'⟩ := h.complete c' hc'
      rw [Dict.get?_set]
      split
      · exact ⟨p, rfl⟩
      · exact ⟨p', hp'⟩
    · exact ⟨p, Dict.get?_set_self _ _ _⟩

/-- What a step may do: go on with the tick, or end it with the signals of all candidates. -/
structure Goes (task : RefreshTask) (s s' : RefreshState) : Prop where
  tick : task.TickSound s'.pc
  cache : (s'.isIdle = true ∧ task.Built task.candidates s'.cache) ∨
    (s'.isIdle = false ∧ s'.cache = s.cache)

theorem goes_nextCandidate (m : RefreshState) {done pending : List RatedCandidate}
    {out : Dict CandidateRef CandidateSignals} (hcache : m.cache = s.cache)
    (hall : task.candidates = done ++ pending) (hout : task.Built done out) :
    task.Goes s (nextCandidate m pending out) := by
  cases pending with
  | nil =>
    rw [List.append_nil] at hall
    exact ⟨trivial, Or.inl ⟨rfl, hall ▸ hout⟩⟩
  | cons c rest => exact ⟨⟨done, hall, hout⟩, Or.inr ⟨rfl, hcache⟩⟩

theorem goes_nextSample (m : RefreshState) (now : ℚ)
    (pending : List ((String × String) × List String)) (fresh : Snapshot)
    (hcache : m.cache = s.cache) : task.Goes s (task.nextSample m now pending fresh) := by
  cases pending with
  | nil => exact goes_nextCandidate _ hcache (List.nil_append _).symm built_nil
  | cons x rest => exact ⟨trivial, Or.inr ⟨rfl, hcache⟩⟩

/-- **A command of a tick.** -/
theorem goes_step {r r' : Redis} {nowS : ℚ} (h : task.TickSound s.pc) (hr : r.Counting)
    (hstep : task.step r nowS s = some (r', s')) : task.Goes s s' ∧ r'.Counting := by
  unfold step at hstep
  split at hstep
  · cases hstep
  · cases hstep
    exact ⟨goes_nextSample _ _ _ _ rfl, hr⟩
  · dsimp only at hstep
    split at hstep
    · split at hstep <;> cases hstep
      · exact ⟨⟨trivial, Or.inr ⟨rfl, rfl⟩⟩, hr⟩
      · exact ⟨goes_nextSample _ _ _ _ rfl, hr⟩
    · cases hstep
      exact ⟨goes_nextSample _ _ _ _ rfl, hr⟩
  · cases hstep
    exact ⟨goes_nextSample _ _ _ _ rfl, hr⟩
  · rename_i hpc
    rw [hpc] at h
    cases hstep
    exact ⟨⟨⟨hr.errorRate_nonneg _ _ _, h⟩, Or.inr ⟨rfl, rfl⟩⟩, hr⟩
  · rename_i hpc
    rw [hpc] at h
    split at hstep <;> cases hstep
    obtain ⟨limits, hentry, rfl, rfl, rfl⟩ := RedisTokenBucket.remainingAt_ok ‹_›
    refine ⟨⟨⟨h.1, ⟨limits, hentry, ?_, ?_⟩, h.2⟩, Or.inr ⟨rfl, rfl⟩⟩,
      hr.set _ ((hr.read _ _).ratelimitLua _)⟩
    · exact Int.cast_le (R := ℚ).mp ((Int.floor_le _).trans (rpmLeft_le_cap _ _))
    · exact Int.cast_le (R := ℚ).mp ((Int.floor_le _).trans (tpmLeft_le_cap (le_refl 0) _))
  · rename_i hpc
    rw [hpc] at h
    cases hstep
    obtain ⟨herror, ⟨limits, hentry, hrpm, htpm⟩, done, hall, hout⟩ := h
    refine ⟨goes_nextCandidate _ rfl ?_ (hout.set ?_), hr⟩
    · rw [hall, List.append_assoc, List.singleton_append]
    · exact ⟨rfl, rfl, rfl, herror, limits, hentry, hrpm, htpm⟩

end RefreshTask

/-! ## 6. The app -/

namespace App

variable {app : App} {s s' : AppState}

/-- Redis holds counts, the tick is sound, and an app that serves has the signals of all
candidates. -/
structure Sound (app : App) (s : AppState) : Prop where
  redis : s.redis.Counting
  tick : app.refresh.TickSound s.refresh.pc
  cache : s.serving = true → app.refresh.Built app.refresh.candidates s.refresh.cache

/-- `route` counts up. -/
theorem counting_routeAnswer {now : ℚ} {t : RouteTask} {answer : Answer} {r : Redis}
    {event : RouteEvent} (h : s.redis.Counting)
    (hanswer : app.routeAnswer s now t answer = some (r, event)) : r.Counting := by
  unfold routeAnswer at hanswer
  split at hanswer
  · split at hanswer <;> cases hanswer
    · obtain ⟨-, -, rfl, -⟩ := RedisTokenBucket.acquireAt_ok ‹_›
      exact h.set _ ((h.read _ _).ratelimitLua _)
    · exact h
  · cases hanswer
    exact h
  · cases hanswer
    exact h.recordFailure _ _ _ _
  · cases hanswer
    exact h.recordSuccess _ _ _ _
  · cases hanswer
    exact h
  · cases hanswer

theorem counting_chatAnswer {now : ℚ} {c : ChatTask} {answer : Answer} {r : Redis}
    {event : ChatEvent} (h : s.redis.Counting)
    (hanswer : app.chatAnswer s now c answer = some (r, event)) : r.Counting := by
  unfold chatAnswer at hanswer
  split at hanswer
  · obtain ⟨⟨r', e⟩, ha, heq⟩ := Option.map_eq_some_iff.mp hanswer
    cases heq
    exact counting_routeAnswer h ha
  all_goals cases hanswer
  all_goals exact h

namespace Sound

theorem stepRequest {now : ℚ} {i : ℕ} {answer : Answer} (h : app.Sound s)
    (hstep : app.stepRequest s now i answer = some s') : app.Sound s' := by
  obtain ⟨c, -, hstep⟩ := Option.bind_eq_some_iff.mp hstep
  obtain ⟨⟨r, event⟩, hanswer, hstep⟩ := Option.bind_eq_some_iff.mp hstep
  obtain ⟨c', -, rfl⟩ := Option.map_eq_some_iff.mp hstep
  exact ⟨counting_chatAnswer h.redis hanswer, h.tick, h.cache⟩

theorem stepTick {now : ℚ} (h : app.Sound s) (hstep : app.stepTick s now = some s') :
    app.Sound s' := by
  obtain ⟨⟨r, refresh⟩, hrefresh, rfl⟩ := Option.map_eq_some_iff.mp hstep
  obtain ⟨hgoes, hr⟩ := RefreshTask.goes_step h.tick h.redis hrefresh
  refine ⟨hr, hgoes.tick, fun hserving => ?_⟩
  rcases hgoes.cache with ⟨-, hbuilt⟩ | ⟨hbusy, hsame⟩
  · exact hbuilt
  · -- the tick is not over: the app serves already, with the signals it had
    change app.refresh.Built _ refresh.cache
    rw [hsame]
    refine h.cache ?_
    change (s.serving || refresh.isIdle) = true at hserving
    rwa [hbusy, Bool.or_false] at hserving

theorem act {e : AppEvent} (h : app.Sound s) (hact : app.act s e = some s') : app.Sound s' := by
  unfold App.act at hact
  split at hact
  · obtain ⟨refresh, hstart, rfl⟩ := Option.map_eq_some_iff.mp hact
    unfold RefreshTask.start at hstart
    split at hstart <;> cases hstart
    exact ⟨h.redis, trivial, h.cache⟩
  · exact h.stepTick hact
  · obtain ⟨-, hact⟩ := Option.ite_none_right_eq_some.mp hact
    obtain ⟨refresh, habort, rfl⟩ := Option.map_eq_some_iff.mp hact
    unfold RefreshTask.abort at habort
    split at habort <;> cases habort
    exact ⟨h.redis, trivial, h.cache⟩
  · obtain ⟨-, hact⟩ := Option.ite_none_right_eq_some.mp hact
    cases hact
    exact ⟨h.redis, h.tick, h.cache⟩
  · exact h.stepRequest hact

theorem step {e : AppEvent} (h : app.Sound s) (hstep : app.step s e = some s') : app.Sound s' := by
  obtain ⟨-, hstep⟩ := Option.ite_none_right_eq_some.mp hstep
  obtain ⟨m, hact, rfl⟩ := Option.map_eq_some_iff.mp hstep
  have hm := h.act hact
  exact ⟨hm.redis, hm.tick, hm.cache⟩

end Sound

theorem sound_of_run {redis : Redis} {start : ℚ} {es : List AppEvent} (hredis : redis.Counting)
    (hrun : Runs.run app.step (App.boot redis start) es = some s) : app.Sound s := by
  have hboot : app.Sound (App.boot redis start) := ⟨hredis, trivial, nofun⟩
  exact Runs.invariant_along _ (fun _ s => app.Sound s) hboot
    (fun _ _ _ _ h _ hstep => h.step hstep) hrun (Runs.along_true es _)

/-! ## 7. When the caps agree -/

/-- The candidates of the refresh task. -/
theorem mem_candidates_iff {c : RatedCandidate} :
    c ∈ app.refresh.candidates ↔ c.ref.provider ∈ app.vendors ∧
      ∃ t, app.cfg.firstEntry c.ref = some t ∧ c.baseWeight = t.weight ∧
        c.rateLimits = t.rateLimits := by
  rw [RefreshTask.candidates, List.mem_filter, decide_eq_true_eq, and_comm]
  exact and_congr_right' Config.mem_allCandidates_iff

/-- Signals with the enforced caps keep the promise. -/
theorem signalsOk_of_caps {c : RatedCandidate} {p : CandidateSignals}
    (hp : app.refresh.SignalsFor c p) {limits : RateLimitEntry}
    (hentry : app.bucket.entry c.ref.provider c.ref.model = .ok limits)
    (hlimits : c.rateLimits = limits) (hbase : 0 ≤ c.baseWeight) : app.SignalsOk c.ref p := by
  subst hlimits
  obtain ⟨limits, hentry', hrpm, -⟩ := hp.levels
  obtain rfl := Except.ok.inj (hentry.symm.trans hentry')
  have htarget := app.cfg.routing.targetLatencyS_pos
  have hlevel : p.rpmRemaining ≤ p.rpmCap := hp.rpmCap ▸ hrpm
  have hbudget := And.intro (budgetScore_nonneg p.rpmRemaining p.rpmCap p.tpmRemaining p.tpmCap)
    (budgetScore_le_one p.tpmRemaining p.tpmCap hlevel)
  have hhealth := And.intro (healthScore_nonneg p.errorRate p.meanLatencyS htarget)
    (healthScore_le_one p.meanLatencyS hp.errorRate htarget)
  refine ⟨⟨c.rateLimits, hentry, hp.rpmCap, hp.tpmCap⟩, hbudget, hhealth, ?_⟩
  exact effectiveWeight_bounds _ _ (hp.baseWeight ▸ hbase) hhealth hbudget

/-- **After every tick of every run** the published caps are the enforced ones, and all scores
are scores, exactly when the first and the last entry of every available candidate agree. -/
theorem capsAgree_iff (app : App) {redis : Redis} {start : ℚ} {es : List AppEvent} {s : AppState}
    (hredis : redis.Counting) (hrun : Runs.run app.step (App.boot redis start) es = some s)
    (hserving : s.serving = true) : app.Promise s ↔ app.LimitsAgree := by
  have hbuilt := (sound_of_run hredis hrun).cache hserving
  constructor
  · intro h cand hvendor t ht t' ht'
    obtain ⟨p, hp⟩ := hbuilt.complete ⟨cand, t.weight, t.rateLimits⟩
      (mem_candidates_iff.mpr ⟨hvendor, t, ht, rfl, rfl⟩)
    obtain ⟨c, hc, rfl, hfor⟩ := hbuilt.sound cand p hp
    obtain ⟨-, t₁, ht₁, -, hlimits⟩ := mem_candidates_iff.mp hc
    obtain rfl := Option.some.inj (ht.symm.trans ht₁)
    obtain ⟨limits, hentry, hrpm, htpm⟩ := (h c.ref p hp).caps
    have hlast := entry_eq_ok_iff.mp hentry
    rw [ht', Option.map_some, Option.some.injEq] at hlast
    rw [hlast, ← hlimits]
    refine RateLimitEntry.eq_of ?_ ?_
    · exact_mod_cast hfor.rpmCap.symm.trans hrpm
    · exact_mod_cast hfor.tpmCap.symm.trans htpm
  · intro h cand p hp
    obtain ⟨c, hc, rfl, hfor⟩ := hbuilt.sound cand p hp
    obtain ⟨hvendor, t, ht, hweight, hlimits⟩ := mem_candidates_iff.mp hc
    obtain ⟨limits, hentry, -⟩ := hfor.levels
    obtain ⟨t', ht', hlast⟩ := Option.map_eq_some_iff.mp (entry_eq_ok_iff.mp hentry)
    refine signalsOk_of_caps hfor hentry ?_ (hweight ▸ t.weight_nonneg)
    rw [hlimits, h c.ref hvendor t ht t' ht', hlast]

end App

/-! ## 8. One candidate in two tiers -/

/-- `openai/gpt-4o-mini` twice: two requests a minute in one tier, a thousand in the other. -/
def doubledConfig : Config :=
  { fastConfig with
    tiers := Dict.ofList
      [("fast", ⟨[{ sampleEntry "openai" "gpt-4o-mini" with rateLimits := twicePerMinute }]⟩),
        ("smart", ⟨[sampleEntry "openai" "gpt-4o-mini"]⟩)] }

def doubledApp : App where
  cfg := doubledConfig
  vendors := ["openai"]
  repr := fun s => "'" ++ s ++ "'"

/-- `capsAgree_iff` after the first tick of that app. -/
theorem capsAgree_iff_doubled : ∃ s, Runs.run doubledApp.step (App.boot Dict.empty 0) (soleTick 0) =
    some s ∧ (doubledApp.Promise s ↔ doubledApp.LimitsAgree) := by
  have hrun : (Runs.run doubledApp.step (App.boot Dict.empty 0) (soleTick 0)).any
      (fun s => s.serving) = true := by
    decide +kernel
  obtain ⟨s, hs, hserving⟩ := (Option.any_eq_true _ _).mp hrun
  exact ⟨s, hs, App.capsAgree_iff doubledApp Redis.Counting.empty hs hserving⟩

/-- **Two caps for one candidate**: the first tick publishes a cap of two requests, the bucket
enforces a thousand, and the weight is above the base weight. -/
theorem doubled_caps_differ : ∃ s, Runs.run doubledApp.step (App.boot Dict.empty 0) (soleTick 0) =
    some s ∧ s.serving = true ∧ ∃ p limits,
      s.refresh.cache.get? ⟨"openai", "gpt-4o-mini"⟩ = some p ∧
      doubledApp.bucket.entry "openai" "gpt-4o-mini" = .ok limits ∧
      p.rpmCap = 2 ∧ limits.rpm = 1000 ∧
      1 < budgetScore p.rpmRemaining p.rpmCap p.tpmRemaining p.tpmCap ∧
      p.baseWeight < p.weight doubledApp.cfg.routing ∧ ¬ doubledApp.Promise s := by
  have hrun : (Runs.run doubledApp.step (App.boot Dict.empty 0) (soleTick 0)).any (fun s =>
      s.serving ∧ (s.refresh.cache.get? ⟨"openai", "gpt-4o-mini"⟩).any fun p =>
        p.rpmCap = 2 ∧ 1 < budgetScore p.rpmRemaining p.rpmCap p.tpmRemaining p.tpmCap ∧
        p.baseWeight < p.weight doubledApp.cfg.routing) = true := by
    decide +kernel
  obtain ⟨s, hs, hany⟩ := (Option.any_eq_true _ _).mp hrun
  obtain ⟨hserving, hp⟩ := of_decide_eq_true hany
  obtain ⟨p, hp, hdiffer⟩ := (Option.any_eq_true _ _).mp hp
  obtain ⟨hcap, hbudget, hweight⟩ := of_decide_eq_true hdiffer
  refine ⟨s, hs, hserving, p, (sampleEntry "openai" "gpt-4o-mini").rateLimits, hp, rfl, hcap, rfl,
    hbudget, hweight, fun hpromise => ?_⟩
  exact absurd (hpromise _ p hp).budget.2 hbudget.not_ge

end Librouter
