/-
# The window across replicas

The sample hashes are shared: what one replica records, another should find in its window.  But a
hash is named by a second of the clock of the process that records, and looked for by the seconds of
the clock of the process that refreshes; the default clock, `time.monotonic`, counts from an instant
of its own on every host.

`fleetWide_iff` says when the window is fleet-wide all the same: the two clocks read the same and
are not negative, the window is a second at least, and the names of the candidates are read back as
they were written.
-/
import Librouter.Breaker.Machine

namespace Librouter

/-! ## 1. What a refresh has aggregated -/

/-- The successes and failures in the entry of a candidate. -/
def Snapshot.aggregated (snapshot : Snapshot) (cand : String × String) : ℤ × ℤ :=
  match snapshot.get? cand with
  | some e => (e.samples - e.failures, e.failures)
  | none => (0, 0)

namespace BreakerSet

variable {b : BreakerSet}

theorem computeNextState_counts (prev : Option SnapshotEntry) (total failures : ℤ) (now : ℚ)
    (post : Option (ℤ × ℤ)) :
    (b.computeNextState prev total failures now post).samples = total ∧
      (b.computeNextState prev total failures now post).failures = failures := by
  unfold computeNextState
  cases (prev.map SnapshotEntry.state).getD .closed with
  | opened => exact ⟨rfl, rfl⟩
  | closed =>
    simp only
    split <;> exact ⟨rfl, rfl⟩
  | halfOpen =>
    cases post with
    | none => exact ⟨rfl, rfl⟩
    | some counts =>
      simp only
      split
      · exact ⟨rfl, rfl⟩
      · split <;> exact ⟨rfl, rfl⟩

/-- The time-driven pass leaves the counts alone. -/
theorem aggregated_transitionAfterWindow (snapshot : Snapshot) (now : ℚ) (cand : String × String) :
    (b.transitionAfterWindow snapshot now).aggregated cand = snapshot.aggregated cand := by
  rw [Snapshot.aggregated, transitionAfterWindow, Dict.get?_foldl_items
    (fun e : (String × String) × SnapshotEntry =>
      e.2.state = .opened ∧ b.openDurationS ≤ now - e.2.openedAtS), Snapshot.aggregated]
  cases snapshot.get? cand with
  | none => rfl
  | some e =>
    by_cases hdue : e.state = .opened ∧ b.openDurationS ≤ now - e.openedAtS
    · simp [hdue]
    · simp [hdue]

/-- **What a refresh aggregates for a candidate that it has an entry for.** -/
theorem aggregated_refreshSnapshot (r : Redis) (atS now : ℚ) (snapshot : Snapshot)
    (cand : String × String) :
    (b.refreshSnapshot r atS now snapshot).aggregated cand =
      match (snapshot.seed r atS).get? cand with
      | some e =>
        if sampleKeys cand (toInt (now - b.windowS)) (toInt now) = [] then
          (e.samples - e.failures, e.failures)
        else sumSamples r atS (sampleKeys cand (toInt (now - b.windowS)) (toInt now))
      | none => (0, 0) := by
  rw [refreshSnapshot, aggregated_transitionAfterWindow, Snapshot.aggregated, get?_aggregateInto]
  cases hget : (snapshot.seed r atS).get? cand with
  | none => rfl
  | some e =>
    rw [Option.map_some]
    by_cases hkeys : sampleKeys cand (toInt (now - b.windowS)) (toInt now) = []
    · simp [hkeys]
    · simp only [if_neg hkeys, nextEntry, (computeNextState_counts _ _ _ _ _).1,
        (computeNextState_counts _ _ _ _ _).2]
      simp

end BreakerSet

/-! ## 2. The fleet-wide window -/

/-- The outcomes of a candidate that were recorded at most `age` seconds before `t`. -/
def samplesWithin (history : List Sample) (cand : String × String) (t age : ℚ) : List Sample :=
  history.filter fun x => x.cand = cand ∧ t - x.time ≤ age

/-- The entry of a candidate after a refresh at `t` counts every outcome of the last `window_s`
seconds, and none that is more than a second older. -/
def FleetWide (b : BreakerSet) (s : BreakerSystem) (t : ℚ) (cand : String × String) : Prop :=
  let counts := s.snapshot.aggregated cand
  let recent := BreakerSet.tally (samplesWithin s.history cand t b.windowS)
  let recorded := BreakerSet.tally (samplesWithin s.history cand t (b.windowS + 1))
  (recent.1 ≤ counts.1 ∧ counts.1 ≤ recorded.1) ∧ recent.2 ≤ counts.2 ∧ counts.2 ≤ recorded.2

/-- At every refresh of every run, for every candidate. -/
def AlwaysFleetWide (b : BreakerSet) (writer reader : ℚ) (redis : Redis) (start : ℚ)
    (names : String × String → Prop) : Prop :=
  ∀ es s t s', (∀ e ∈ es, e.Over names) →
    Runs.run (BreakerSystem.step b writer reader) (.boot redis start) es = some s →
    s.step b writer reader ⟨t, .refresh⟩ = some s' → ∀ cand, names cand → FleetWide b s' t cand

/-! ## 3. Where it holds -/

section Holds

variable {b : BreakerSet} {writer reader start : ℚ} {redis : Redis} {s s' : BreakerSystem}
  {es : List BreakerEvent} {names : String × String → Prop} {t : ℚ} {cand : String × String}

/-- Nothing is recorded before the start. -/
theorem start_le_of_run
    (hrun : Runs.run (BreakerSystem.step b writer reader) (.boot redis start) es = some s) :
    start ≤ s.clock ∧ ∀ x ∈ s.history, start ≤ x.time := by
  refine Runs.invariant_along _ (fun _ s => start ≤ s.clock ∧ ∀ x ∈ s.history, start ≤ x.time)
    ⟨le_refl _, by simp [BreakerSystem.boot]⟩ ?_ hrun (Runs.along_true es _)
  rintro _ s ⟨time, call⟩ s' ⟨hclock, hhistory⟩ - hstep
  obtain ⟨hle, rfl⟩ := BreakerSystem.step_eq_some_iff.mp hstep
  have hstart : start ≤ time := hclock.trans hle
  refine ⟨hstart, ?_⟩
  cases call with
  | refresh => exact hhistory
  | record cand failed =>
    intro x hx
    rcases List.mem_append.mp hx with hx | hx
    · exact hhistory x hx
    · rw [List.mem_singleton.mp hx]
      exact hstart

/-- What a refresh sums, in terms of the history. -/
theorem BreakerInv.aggregated_refresh (h : BreakerInv b writer s) (reader : ℚ) (ht : s.clock ≤ t)
    (hcand : Addressable cand) (hw : 0 ≤ b.windowS) :
    (b.refreshSnapshot s.redis t (t + reader) s.snapshot).aggregated cand =
      BreakerSet.tally (b.storedIn s.history t cand (toInt (t + reader - b.windowS))
        (toInt (t + reader))) := by
  have htimes : ∀ x ∈ s.history, x.time ≤ t := fun x hx => (h.times x hx).trans ht
  have hkeys := BreakerSet.sampleKeys_ne_nil cand
    (toInt_mono (show t + reader - b.windowS ≤ t + reader by linarith))
  rw [BreakerSet.aggregated_refreshSnapshot, ← BreakerSet.sumSamples_eq h.counted h.sorted htimes]
  cases hget : (s.snapshot.seed s.redis t).get? cand with
  | some e => simp only [if_neg hkeys]
  | none => exact (sumSamples_of_missing (Snapshot.read_of_get?_seed hcand hget) _ _).symm

theorem tally_mono {xs ys : List Sample} (h : ∀ p : Sample → Bool, xs.countP p ≤ ys.countP p) :
    (BreakerSet.tally xs).1 ≤ (BreakerSet.tally ys).1 ∧
      (BreakerSet.tally xs).2 ≤ (BreakerSet.tally ys).2 := by
  simp only [BreakerSet.tally]
  exact ⟨by exact_mod_cast h _, by exact_mod_cast h _⟩

theorem countP_filter_mono {P Q : Sample → Prop} [DecidablePred P] [DecidablePred Q]
    {xs : List Sample} (h : ∀ x ∈ xs, P x → Q x) (p : Sample → Bool) :
    (xs.filter fun x => P x).countP p ≤ (xs.filter fun x => Q x).countP p := by
  rw [List.countP_filter, List.countP_filter]
  refine List.countP_mono_left fun x hx hpx => ?_
  obtain ⟨hp, hPx⟩ := Bool.and_eq_true_iff.mp hpx
  exact Bool.and_eq_true_iff.mpr ⟨hp, decide_eq_true (h x hx (of_decide_eq_true hPx))⟩

/-- **Two clocks that read the same, and are not negative.** -/
theorem fleetWide_of_same_clock (hw : 1 ≤ b.windowS) (hclock : 0 ≤ start + reader)
    (hredis : redis.NoSamples) (hes : ∀ e ∈ es, e.Over Addressable)
    (hrun : Runs.run (BreakerSystem.step b reader reader) (.boot redis start) es = some s)
    (hstep : s.step b reader reader ⟨t, .refresh⟩ = some s') (hcand : Addressable cand) :
    FleetWide b s' t cand := by
  have hinv : BreakerInv b reader s := breakerInv_of_run hredis hrun
  have hnames := BreakerSystem.names_of_run hes hrun
  have hstart := (start_le_of_run hrun).2
  obtain ⟨ht, rfl⟩ := BreakerSystem.step_eq_some_iff.mp hstep
  have htimes : ∀ x ∈ s.history, x.time ≤ t := fun x hx => (hinv.times x hx).trans ht
  have hagg := hinv.aggregated_refresh reader ht hcand (zero_le_one.trans hw)
  rw [BreakerSet.storedIn_window hw hinv.clocks hnames hcand] at hagg
  have hrecent : ∀ p, (samplesWithin s.history cand t b.windowS).countP p ≤
      (b.windowSamples s.history cand (t + reader)).countP p := by
    refine countP_filter_mono fun x hx hwithin => ⟨hwithin.1, ?_, ?_⟩
    · refine toInt_mono ?_
      rw [hinv.clocks x hx]
      linarith [hwithin.2]
    · exact BreakerSet.second_le hinv.clocks htimes hx
  have hrecorded : ∀ p, (b.windowSamples s.history cand (t + reader)).countP p ≤
      (samplesWithin s.history cand t (b.windowS + 1)).countP p := by
    refine countP_filter_mono fun x hx hwindow => ⟨hwindow.1, ?_⟩
    -- an outcome that is too old lies a second or more before the window
    by_contra hold
    have hpos : 0 ≤ x.time + reader := by linarith [hstart x hx]
    have hsecond : x.second = ⌊x.time + reader⌋ := by
      rw [Sample.second, hinv.clocks x hx, toInt_of_nonneg hpos]
    have hlo : ⌊x.time + reader⌋ + 1 ≤ toInt (t + reader - b.windowS) := by
      rw [← Int.floor_add_one, ← toInt_of_nonneg (show 0 ≤ x.time + reader + 1 by linarith)]
      exact toInt_mono (by linarith)
    have hle := hwindow.2.1
    omega
  have h1 := tally_mono hrecent
  have h2 := tally_mono hrecorded
  rw [← hagg] at h1 h2
  exact ⟨⟨h1.1, h2.1⟩, h1.2, h2.2⟩

/-- Nothing is stored of a window shorter than a second. -/
theorem BreakerInv.storedIn_eq_nil (h : BreakerInv b writer s) (hw : b.windowS < 1)
    (ht : s.clock ≤ t) (lo hi : ℤ) : b.storedIn s.history t cand lo hi = [] := by
  have httl := b.ttlS_nonpos hw
  refine List.filter_eq_nil_iff.mpr fun x _ => ?_
  rw [decide_eq_true_eq]
  rintro ⟨-, -, y, hy, -, hlt⟩
  have hle := (h.times y hy).trans ht
  linarith

/-- A negative window has no outcomes, and none is counted. -/
theorem fleetWide_of_neg (hw : b.windowS < 0) (hredis : redis.NoSamples)
    (hrun : Runs.run (BreakerSystem.step b writer reader) (.boot redis start) es = some s)
    (hstep : s.step b writer reader ⟨t, .refresh⟩ = some s') : FleetWide b s' t cand := by
  have hzero : ∀ cand, s'.snapshot.aggregated cand = (0, 0) := by
    refine (Runs.invariant_along _ (fun _ s => BreakerInv b writer s ∧
      ∀ cand, s.snapshot.aggregated cand = (0, 0)) ⟨breakerInv_boot hredis start, fun _ => rfl⟩ ?_
      (Runs.run_concat_iff.mpr ⟨s, hrun, hstep⟩) (Runs.along_true _ _)).2
    rintro _ s ⟨time, call⟩ s' ⟨hinv, hagg⟩ - hstep
    refine ⟨hinv.step hstep, fun cand => ?_⟩
    obtain ⟨hle, rfl⟩ := BreakerSystem.step_eq_some_iff.mp hstep
    cases call with
    | record cand' failed => exact hagg cand
    | refresh =>
      have htimes : ∀ x ∈ s.history, x.time ≤ time := fun x hx => (hinv.times x hx).trans hle
      have hsum := BreakerSet.sumSamples_eq hinv.counted hinv.sorted htimes cand
      refine (BreakerSet.aggregated_refreshSnapshot _ _ _ _ _).trans ?_
      cases hget : (s.snapshot.seed s.redis time).get? cand with
      | none => rfl
      | some e =>
        simp only [hsum, hinv.storedIn_eq_nil (hw.trans one_pos) hle]
        split
        · -- the entry is an old one, or a fresh one
          rw [Snapshot.get?_seed, Option.or_eq_some_iff] at hget
          rcases hget with hold | ⟨-, hfresh⟩
          · have := hagg cand
            rwa [Snapshot.aggregated, hold] at this
          · rw [← Option.some.inj (Option.ite_none_right_eq_some.mp hfresh).2]
            rfl
        · rfl
  have hinv : BreakerInv b writer s := breakerInv_of_run hredis hrun
  obtain ⟨ht, rfl⟩ := BreakerSystem.step_eq_some_iff.mp hstep
  have hnone : samplesWithin s.history cand t b.windowS = [] := by
    refine List.filter_eq_nil_iff.mpr fun x hx => ?_
    rw [decide_eq_true_eq]
    rintro ⟨-, hage⟩
    have hle := (hinv.times x hx).trans ht
    simp only at hle
    linarith
  have hrecent : BreakerSet.tally (samplesWithin s.history cand t b.windowS) = (0, 0) := by
    rw [hnone]
    rfl
  unfold FleetWide
  rw [hzero]
  refine ⟨⟨?_, (BreakerSet.tally_nonneg _).1⟩, ?_, (BreakerSet.tally_nonneg _).2⟩
  · exact (congrArg Prod.fst hrecent).le
  · exact (congrArg Prod.snd hrecent).le

end Holds

/-! ## 4. Where it fails -/

section Fails

variable (b : BreakerSet) (writer reader start : ℚ) (redis : Redis)

/-- After a single failure at `t`. -/
def afterFailure (t : ℚ) (cand : String × String) : BreakerSystem where
  redis := b.record redis ⟨t, t + writer, cand, true⟩
  clock := t
  history := [⟨t, t + writer, cand, true⟩]

/-- What a refresh at `u` then counts as failures. -/
def failuresSeen (t u : ℚ) (cand : String × String) : ℤ :=
  ((b.refreshSnapshot (afterFailure b writer redis t cand).redis u (u + reader)
    Dict.empty).aggregated cand).2

variable {b writer reader start redis} {names : String × String → Prop} {t u : ℚ}
  {cand : String × String}

theorem run_afterFailure (ht : start ≤ t) :
    Runs.run (BreakerSystem.step b writer reader) (.boot redis start) [⟨t, .record cand true⟩] =
      some (afterFailure b writer redis t cand) := by
  have hstep : (BreakerSystem.boot redis start).step b writer reader ⟨t, .record cand true⟩ =
      some (afterFailure b writer redis t cand) :=
    BreakerSystem.step_eq_some_iff.mpr ⟨ht, rfl⟩
  rw [Runs.run, hstep]
  rfl

/-- The one failure has to be seen while it is recent, and not when it is old. -/
theorem AlwaysFleetWide.failuresSeen (h : AlwaysFleetWide b writer reader redis start names)
    (hcand : names cand) (ht : start ≤ t) (hu : t ≤ u) :
    (u - t ≤ b.windowS → 1 ≤ failuresSeen b writer reader redis t u cand) ∧
      (b.windowS + 1 < u - t → failuresSeen b writer reader redis t u cand ≤ 0) := by
  have hone : ∀ e ∈ [(⟨t, .record cand true⟩ : BreakerEvent)], e.Over names := by
    intro e he
    rw [List.mem_singleton.mp he]
    exact hcand
  have hstep : (afterFailure b writer redis t cand).step b writer reader ⟨u, .refresh⟩ = some _ :=
    BreakerSystem.step_eq_some_iff.mpr ⟨hu, rfl⟩
  have hwide : (BreakerSet.tally (samplesWithin [⟨t, t + writer, cand, true⟩] cand u b.windowS)).2 ≤
        Librouter.failuresSeen b writer reader redis t u cand ∧
      Librouter.failuresSeen b writer reader redis t u cand ≤
        (BreakerSet.tally (samplesWithin [⟨t, t + writer, cand, true⟩] cand u (b.windowS + 1))).2 :=
    (h _ _ u _ hone (run_afterFailure ht) hstep cand hcand).2
  constructor
  · intro hrecent
    refine le_trans ?_ hwide.1
    have hle : u ≤ b.windowS + t := by linarith
    simp [samplesWithin, BreakerSet.tally, hle]
  · intro hold
    refine hwide.2.trans ?_
    have hlt : ¬ u ≤ b.windowS + 1 + t := by linarith
    simp [samplesWithin, BreakerSet.tally, hlt]

/-- The failure is seen while its second is in the window and its hash has not expired. -/
theorem failuresSeen_eq (hredis : redis.NoSamples) (hcand : Addressable cand) (hw : 0 ≤ b.windowS)
    (hu : t ≤ u) :
    failuresSeen b writer reader redis t u cand =
      if (toInt (u + reader - b.windowS) ≤ toInt (t + writer) ∧
        toInt (t + writer) ≤ toInt (u + reader)) ∧ u < t + b.ttlS then 1 else 0 := by
  have hrun : Runs.run (BreakerSystem.step b writer reader) (.boot redis t)
      [⟨t, .record cand true⟩] = some (afterFailure b writer redis t cand) :=
    run_afterFailure (le_refl t)
  have hinv : BreakerInv b writer (afterFailure b writer redis t cand) :=
    breakerInv_of_run hredis hrun
  rw [failuresSeen]
  have hagg := hinv.aggregated_refresh reader (t := u) hu hcand hw
  rw [show (afterFailure b writer redis t cand).snapshot = Dict.empty from rfl] at hagg
  rw [hagg]
  split
  · rename_i h
    simp [BreakerSet.tally, BreakerSet.storedIn, afterFailure, Sample.second, Sample.CountsFor,
      BreakerSet.Stored, h]
  · rename_i h
    have hnil : b.storedIn (afterFailure b writer redis t cand).history u cand
        (toInt (u + reader - b.windowS)) (toInt (u + reader)) = [] := by
      refine List.filter_eq_nil_iff.mpr fun x hx => ?_
      rw [decide_eq_true_eq, List.mem_singleton.mp hx]
      rintro ⟨-, hsec, y, hy, -, hlt⟩
      rw [List.mem_singleton.mp hy] at hlt
      exact h ⟨hsec, hlt⟩
    rw [hnil]
    rfl

/-- A hash whose name is read back as something else is never aggregated. -/
theorem failuresSeen_of_not_addressable (hredis : redis.NoSamples) (hcand : ¬ Addressable cand) :
    failuresSeen b writer reader redis t u cand = 0 := by
  have hnone : (Snapshot.seed Dict.empty (afterFailure b writer redis t cand).redis u).get? cand =
      none := by
    have hnot : cand ∉ ((afterFailure b writer redis t cand).redis.scan (u * 1000)
        isSampleKey).filterMap sampleKeyCandidate := by
      intro hmem
      obtain ⟨key, hkey, hread⟩ := List.mem_filterMap.mp hmem
      obtain ⟨hkeys, hmatch⟩ := Redis.mem_keys_of_mem_scan hkey
      rcases Dict.mem_keys_set.mp hkeys with rfl | hold
      · exact hcand (addressable_of hread)
      · rw [hredis key hold] at hmatch
        cases hmatch
    rw [Snapshot.get?_seed, if_neg hnot]
    rfl
  rw [failuresSeen, BreakerSet.aggregated_refreshSnapshot, hnone]

section Consequences

variable (h : AlwaysFleetWide b writer reader redis start names) (hredis : redis.NoSamples)
  (hcand : names cand)

include h hredis hcand

/-- A shorter window than a second keeps nothing. -/
theorem AlwaysFleetWide.one_le_windowS (hw : 0 ≤ b.windowS) : 1 ≤ b.windowS := by
  by_contra hlt
  have hseen := (h.failuresSeen hcand (le_refl start) (le_refl start)).1 (by linarith)
  by_cases haddr : Addressable cand
  · have httl := b.ttlS_nonpos (not_le.mp hlt)
    rw [failuresSeen_eq hredis haddr hw (le_refl start), if_neg fun hin => by linarith [hin.2]]
      at hseen
    exact absurd hseen (by norm_num)
  · rw [failuresSeen_of_not_addressable hredis haddr] at hseen
    exact absurd hseen (by norm_num)

theorem AlwaysFleetWide.addressable (hw : 0 ≤ b.windowS) : Addressable cand := by
  by_contra haddr
  have hseen := (h.failuresSeen hcand (le_refl start) (le_refl start)).1 (by linarith)
  rw [failuresSeen_of_not_addressable hredis haddr] at hseen
  exact absurd hseen (by norm_num)

/-- A clock that is behind does not look as far as the second of a record just made. -/
theorem AlwaysFleetWide.writer_le_reader (hw : 0 ≤ b.windowS) : writer ≤ reader := by
  by_contra hlt
  obtain ⟨n, hn⟩ := exists_nat_ge (max (start + writer) 1)
  have hn1 : (1 : ℚ) ≤ n := (le_max_right _ _).trans hn
  have hstart : start ≤ n - writer := by linarith [(le_max_left (start + writer) 1).trans hn]
  have hseen := (h.failuresSeen hcand hstart (le_refl _)).1 (by linarith)
  have hbehind : toInt ((n : ℚ) - writer + reader) < toInt ((n : ℚ) - writer + writer) := by
    have hn' : toInt ((n : ℚ) - writer + writer) = n := by
      rw [sub_add_cancel]
      exact_mod_cast toInt_intCast (n : ℤ)
    rw [hn']
    rcases le_or_gt 0 ((n : ℚ) - writer + reader) with hpos | hneg
    · rw [toInt_of_nonneg hpos]
      exact Int.floor_lt.mpr (by push_cast; linarith)
    · rw [toInt_of_neg hneg]
      have hceil : ⌈(n : ℚ) - writer + reader⌉ ≤ 0 := Int.ceil_le.mpr (by exact_mod_cast hneg.le)
      have hn0 : (1 : ℤ) ≤ n := by exact_mod_cast hn1
      omega
  rw [failuresSeen_eq hredis (h.addressable hredis hcand hw) hw (le_refl _),
    if_neg fun hin => absurd hin.1.2 hbehind.not_ge] at hseen
  exact absurd hseen (by norm_num)

/-- A clock that is ahead has left the second of a record behind too early. -/
theorem AlwaysFleetWide.reader_le_writer (hw : 0 ≤ b.windowS) : reader ≤ writer := by
  by_contra hlt
  obtain ⟨n, hn⟩ := exists_nat_ge (max (start + writer) 0)
  set m := min (reader - writer) 1 with hm
  have hm0 : 0 < m := lt_min (by linarith) one_pos
  have hm1 : m ≤ 1 := min_le_right _ _
  have hmd : m ≤ reader - writer := min_le_left _ _
  have hn0 : (0 : ℚ) ≤ n := (le_max_right _ _).trans hn
  have hstart : start ≤ n + 1 - m - writer := by
    linarith [(le_max_left (start + writer) 0).trans hn]
  have hseen := (h.failuresSeen hcand hstart (le_add_of_nonneg_right hw)).1 (by linarith)
  have hsecond : toInt ((n : ℚ) + 1 - m - writer + writer) = n := by
    rw [sub_add_cancel, toInt_of_nonneg (by linarith)]
    exact Int.floor_eq_iff.mpr ⟨by push_cast; linarith, by push_cast; linarith⟩
  have hlo : (n : ℤ) + 1 ≤
      toInt ((n : ℚ) + 1 - m - writer + b.windowS + reader - b.windowS) := by
    have hle : ((n + 1 : ℤ) : ℚ) ≤ (n : ℚ) + 1 - m - writer + b.windowS + reader - b.windowS := by
      push_cast
      linarith
    exact (toInt_intCast (n + 1)).symm.le.trans (toInt_mono hle)
  have hout : ¬ toInt ((n : ℚ) + 1 - m - writer + b.windowS + reader - b.windowS) ≤
      toInt ((n : ℚ) + 1 - m - writer + writer) := by
    rw [hsecond]
    omega
  rw [failuresSeen_eq hredis (h.addressable hredis hcand hw) hw (le_add_of_nonneg_right hw),
    if_neg fun hin => hout hin.1.1] at hseen
  exact absurd hseen (by norm_num)

/-- Towards zero `int()` makes a second of two: a negative reading keeps an outcome too long. -/
theorem AlwaysFleetWide.clock_nonneg (hw : 0 ≤ b.windowS) : 0 ≤ start + writer := by
  by_contra hneg
  have hw1 := h.one_le_windowS hredis hcand hw
  have hsame : writer = reader :=
    le_antisymm (h.writer_le_reader hredis hcand hw) (h.reader_le_writer hredis hcand hw)
  subst hsame
  set x := max (start + writer) (-1 / 2) with hx
  have hx0 : x < 0 := max_lt (not_le.mp hneg) (by norm_num)
  have hx1 : -1 / 2 ≤ x := le_max_right _ _
  have hstart : start ≤ x - writer := by linarith [le_max_left (start + writer) (-1 / 2)]
  have hlater : x - writer ≤ x - writer + (b.windowS + 1 - x / 2) := by linarith
  have hseen := (h.failuresSeen hcand hstart hlater).2 (by linarith)
  have hsecond : toInt (x - writer + writer) = 0 := by
    rw [sub_add_cancel, toInt_of_neg hx0]
    exact Int.ceil_eq_iff.mpr ⟨by push_cast; linarith, by push_cast; linarith⟩
  have hlo : toInt (x - writer + (b.windowS + 1 - x / 2) + writer - b.windowS) = 0 := by
    rw [toInt_of_nonneg (by linarith)]
    exact Int.floor_eq_iff.mpr ⟨by push_cast; linarith, by push_cast; linarith⟩
  have hhi : (0 : ℤ) ≤ toInt (x - writer + (b.windowS + 1 - x / 2) + writer) := by
    rw [← hlo]
    exact toInt_mono (by linarith)
  have hlive : x - writer + (b.windowS + 1 - x / 2) < x - writer + b.ttlS := by
    linarith [b.window_lt_ttlS hw1]
  have hin : (toInt (x - writer + (b.windowS + 1 - x / 2) + writer - b.windowS) ≤
      toInt (x - writer + writer) ∧
        toInt (x - writer + writer) ≤ toInt (x - writer + (b.windowS + 1 - x / 2) + writer)) ∧
      x - writer + (b.windowS + 1 - x / 2) < x - writer + b.ttlS := by
    rw [hlo, hsecond]
    exact ⟨⟨le_refl _, hhi⟩, hlive⟩
  rw [failuresSeen_eq hredis (h.addressable hredis hcand hw) hw hlater, if_pos hin] at hseen
  exact absurd hseen (by norm_num)

end Consequences

end Fails

/-! ## 5. The exact condition -/

/-- **Which pairs of replicas share a window**, whatever one of them records for some candidates:
those on one clock that is not negative, with a window of a second or more, if the names of all
these candidates are read back as they were written.  (A negative window is empty.) -/
theorem fleetWide_iff (b : BreakerSet) (writer reader start : ℚ) (redis : Redis)
    (names : String × String → Prop) (hredis : redis.NoSamples) (hnames : ∃ cand, names cand) :
    AlwaysFleetWide b writer reader redis start names ↔
      b.windowS < 0 ∨ (1 ≤ b.windowS ∧ writer = reader ∧ 0 ≤ start + writer) ∧
        ∀ cand, names cand → Addressable cand := by
  obtain ⟨cand, hcand⟩ := hnames
  constructor
  · intro h
    rcases lt_or_ge b.windowS 0 with hneg | hw
    · exact Or.inl hneg
    · exact Or.inr ⟨⟨h.one_le_windowS hredis hcand hw,
        le_antisymm (h.writer_le_reader hredis hcand hw) (h.reader_le_writer hredis hcand hw),
        h.clock_nonneg hredis hcand hw⟩, fun cand' hcand' => h.addressable hredis hcand' hw⟩
  · rintro (hneg | ⟨⟨hw, rfl, hclock⟩, haddr⟩) es s t s' hes hrun hstep cand' hcand'
    · exact fleetWide_of_neg hneg hredis hrun hstep
    · refine fleetWide_of_same_clock hw hclock hredis (fun e he => ?_) hrun hstep (haddr _ hcand')
      have hover := hes e he
      obtain ⟨time, call⟩ := e
      cases call with
      | record cand failed => exact haddr cand hover
      | refresh => trivial

/-- The law, for two replicas on one clock. -/
theorem fleetWide_iff_one_clock :
    AlwaysFleetWide promptBreaker 1000 1000 Dict.empty 0
      fun cand => cand = ("openai", "gpt-4o-mini") := by
  refine (fleetWide_iff promptBreaker 1000 1000 0 Dict.empty
    (fun cand => cand = ("openai", "gpt-4o-mini")) Redis.noSamples_empty
    ⟨("openai", "gpt-4o-mini"), rfl⟩).mpr (Or.inr ⟨⟨?_, rfl, ?_⟩, ?_⟩)
  · norm_num [promptBreaker]
  · norm_num
  · rintro cand rfl
    exact plainName_gpt.addressable

/-- **Two hosts, of which one has been up for longer**: a failure that the one records at 0 is not
in the window of the other at 0, whose clock is a thousand seconds behind. -/
theorem uptimes_differ : ¬ ∀ (b : BreakerSet) (writer reader start : ℚ) (redis : Redis)
    (names : String × String → Prop), redis.NoSamples → 1 ≤ b.windowS → 0 ≤ start + writer →
    0 ≤ start + reader → (∀ cand, names cand → PlainName cand) →
      AlwaysFleetWide b writer reader redis start names := by
  intro h
  have hwide := h promptBreaker 1000 0 0 Dict.empty (fun cand => cand = ("openai", "gpt-4o-mini"))
    Redis.noSamples_empty (by norm_num [promptBreaker]) (by norm_num) (by norm_num)
    fun cand hcand => hcand ▸ plainName_gpt
  have hseen := (hwide.failuresSeen rfl (le_refl 0) (le_refl 0)).1 (by norm_num [promptBreaker])
  have hnone : failuresSeen promptBreaker 1000 0 Dict.empty 0 0 ("openai", "gpt-4o-mini") = 0 := by
    decide +kernel
  rw [hnone] at hseen
  exact absurd hseen (by norm_num)

end Librouter
