/-
# A refresh of the breaker snapshot

`refresh_snapshot` seeds the snapshot with the candidates the `SCAN` finds, computes a new entry for
every candidate, and lets the open breakers whose time is up go half open.  `refreshSnapshot` is the
whole of it with nothing in between; it is what the commands of a tick come to when they are
executed one after another (`refreshSnapshot_steps`).

Of an entry only its `Stage` decides what comes next: closed, open since some time, or half open
since some time.  `stage_refreshSnapshot` gives the stage of a candidate after a refresh from its
stage before and from what is summed over its own hashes, without the other candidates.
-/
import Librouter.Breaker.Samples
import Librouter.Routing.Refresh

namespace Librouter

/-! ## 1. `refresh_snapshot` -/

namespace BreakerSet

variable (b : BreakerSet)

/-- The new entry of a candidate. -/
def nextEntry (r : Redis) (atS : ℚ) (snapshot : Snapshot) (now : ℚ) (cand : String × String)
    (keys : List String) : SnapshotEntry :=
  let (successes, failures) := sumSamples r atS keys
  let entry := snapshot.get? cand
  let postHalfOpen := match entry with
    | some e =>
      if e.state = .halfOpen then
        some (sumSamples r atS (sampleKeys cand (toInt e.halfOpenedAtS) (toInt now)))
      else none
    | none => none
  b.computeNextState entry (successes + failures) failures now postHalfOpen

/-- The new snapshot, before the time-driven pass. -/
def aggregateInto (r : Redis) (atS : ℚ) (snapshot : Snapshot) (now : ℚ) : Snapshot :=
  (b.enumerateSampleKeys snapshot now).foldl
    (fun fresh p => fresh.set p.1 (b.nextEntry r atS snapshot now p.1 p.2)) snapshot

/-- `refresh_snapshot`, executed at `atS` with the clock at `now`. -/
def refreshSnapshot (r : Redis) (atS now : ℚ) (snapshot : Snapshot) : Snapshot :=
  b.transitionAfterWindow (b.aggregateInto r atS (snapshot.seed r atS) now) now

end BreakerSet

namespace RefreshTask

variable (task : RefreshTask) (r : Redis) (nowS : ℚ)

/-- One command of a tick, on a Redis that it does not change. -/
def Steps (s s' : RefreshState) : Prop := task.step r nowS s = some (r, s')

theorem nextSample_pc (s : RefreshState) (pc : TickPc) (now : ℚ)
    (pending : List ((String × String) × List String)) (fresh : Snapshot) :
    task.nextSample { s with pc := pc } now pending fresh = task.nextSample s now pending fresh := by
  cases pending with
  | nil =>
    simp only [nextSample]
    cases task.candidates <;> rfl
  | cons p pending => rfl

/-- One candidate takes one command, or two. -/
theorem steps_sampling (s : RefreshState) (now : ℚ) (cand : String × String) (keys : List String)
    (pending : List ((String × String) × List String)) (fresh : Snapshot) :
    Relation.ReflTransGen (task.Steps r nowS) { s with pc := .sampling now cand keys pending fresh }
      (task.nextSample s now pending
        (fresh.set cand (task.breakers.nextEntry r nowS s.snapshot now cand keys))) := by
  simp only [BreakerSet.nextEntry]
  cases hentry : s.snapshot.get? cand with
  | none =>
    refine .single ?_
    simp [Steps, step, hentry, nextSample_pc]
  | some entry =>
    by_cases hhalf : entry.state = .halfOpen
    · refine .head (b := { s with pc := .probing now cand entry ((sumSamples r nowS keys).1 +
        (sumSamples r nowS keys).2) (sumSamples r nowS keys).2 pending fresh }) ?_ (.single ?_)
      · simp [Steps, step, hentry, hhalf]
      · simp [Steps, step, nextSample_pc, hhalf]
    · refine .single ?_
      simp [Steps, step, hentry, hhalf, nextSample_pc]

/-- **The commands of `refresh_snapshot` one after another.** -/
theorem refreshSnapshot_steps (s : RefreshState) (now : ℚ) (hpc : s.pc = .seeding now) :
    Relation.ReflTransGen (task.Steps r nowS) s
      (nextCandidate { s with snapshot := task.breakers.refreshSnapshot r nowS now s.snapshot }
        task.candidates Dict.empty) := by
  have hpending : ∀ (pending : List ((String × String) × List String)) (s : RefreshState)
      (fresh : Snapshot), Relation.ReflTransGen (task.Steps r nowS)
        (task.nextSample s now pending fresh)
        (nextCandidate
          { s with
            snapshot :=
              task.breakers.transitionAfterWindow
                (pending.foldl
                  (fun fresh p => fresh.set p.1
                    (task.breakers.nextEntry r nowS s.snapshot now p.1 p.2)) fresh) now }
          task.candidates Dict.empty) := by
    intro pending
    induction pending with
    | nil => exact fun s fresh => .refl
    | cons p pending ih =>
      intro s fresh
      exact (steps_sampling task r nowS s now p.1 p.2 pending fresh).trans (ih s _)
  refine .head ?_ (hpending _ { s with snapshot := s.snapshot.seed r nowS } _)
  simp only [Steps, step, hpc]

end RefreshTask

/-! ## 2. Stages -/

/-- What of an entry decides the next one. -/
inductive Stage
  | closed
  | opened (since : ℚ)
  | halfOpen (since : ℚ)
deriving DecidableEq

/-- The stage of an entry. -/
def SnapshotEntry.stage (e : SnapshotEntry) : Stage :=
  match e.state with
  | .closed => .closed
  | .opened => .opened e.openedAtS
  | .halfOpen => .halfOpen e.halfOpenedAtS

/-- The stage of a candidate; one without an entry is closed. -/
def Snapshot.stage (snapshot : Snapshot) (cand : String × String) : Stage :=
  ((snapshot.get? cand).map SnapshotEntry.stage).getD .closed

namespace BreakerSet

variable (b : BreakerSet)

/-- Enough outcomes, and enough of them failures. -/
def Trips (counts : ℤ × ℤ) : Prop :=
  (b.minSamples : ℤ) ≤ counts.1 + counts.2 ∧
    b.failureThreshold ≤ (counts.2 : ℚ) / (counts.1 + counts.2 : ℤ)

instance (counts : ℤ × ℤ) : Decidable (b.Trips counts) := inferInstanceAs (Decidable (_ ∧ _))

/-- `_compute_next_state`: what the counts of the window and those since the half-open second
decide. -/
def decideStage (window : ℤ × ℤ) (since : ℚ → ℤ × ℤ) (now : ℚ) : Stage → Stage
  | .opened t => .opened t
  | .halfOpen t =>
    if 0 < (since t).2 then .opened now else if 0 < (since t).1 then .closed else .halfOpen t
  | .closed => if b.Trips window then .opened now else .closed

/-- `_transition_after_window_into`: an open breaker whose time is up goes half open. -/
def wakeStage (now : ℚ) : Stage → Stage
  | .opened t => if b.openDurationS ≤ now - t then .halfOpen now else .opened t
  | .halfOpen t => .halfOpen t
  | .closed => .closed

variable {b}

/-- The counters of the window decide nothing but the stage. -/
theorem computeNextState_stage (prev : Option SnapshotEntry) (window : ℤ × ℤ) (now : ℚ)
    (since : ℚ → ℤ × ℤ) :
    (b.computeNextState prev (window.1 + window.2) window.2 now
        (match prev with
        | some e => if e.state = .halfOpen then some (since e.halfOpenedAtS) else none
        | none => none)).stage =
      b.decideStage window since now ((prev.map SnapshotEntry.stage).getD .closed) := by
  have hclosed : ∀ (p : Option SnapshotEntry) post,
      (p.map SnapshotEntry.state).getD .closed = .closed →
      (b.computeNextState p (window.1 + window.2) window.2 now post).stage =
        b.decideStage window since now .closed := by
    intro p post hp
    simp only [computeNextState, hp, decideStage]
    by_cases htrips : b.Trips window
    · rw [if_pos htrips]
      exact congrArg SnapshotEntry.stage (if_pos htrips)
    · rw [if_neg htrips]
      exact congrArg SnapshotEntry.stage (if_neg htrips)
  cases prev with
  | none => exact hclosed none none rfl
  | some e =>
    cases hstate : e.state with
    | closed =>
      have hstage : e.stage = .closed := by simp [SnapshotEntry.stage, hstate]
      rw [Option.map_some, Option.getD_some, hstage]
      exact hclosed (some e) _ hstate
    | opened => simp [computeNextState, hstate, SnapshotEntry.stage, decideStage]
    | halfOpen =>
      have hstage : e.stage = .halfOpen e.halfOpenedAtS := by simp [SnapshotEntry.stage, hstate]
      simp only [computeNextState, Option.map_some, Option.getD_some, hstate, if_true, hstage,
        decideStage]
      by_cases hfail : 0 < (since e.halfOpenedAtS).2
      · rw [if_pos hfail, if_pos hfail]
        rfl
      · rw [if_neg hfail, if_neg hfail]
        by_cases hsucc : 0 < (since e.halfOpenedAtS).1
        · rw [if_pos hsucc, if_pos hsucc]
          rfl
        · rw [if_neg hsucc, if_neg hsucc]
          rfl

end BreakerSet

/-! ## 3. The stage of a candidate after a refresh -/

namespace BreakerSet

variable {b : BreakerSet}

/-- The time-driven pass treats every candidate by itself. -/
theorem stage_transitionAfterWindow (snapshot : Snapshot) (now : ℚ) (cand : String × String) :
    (b.transitionAfterWindow snapshot now).stage cand = b.wakeStage now (snapshot.stage cand) := by
  rw [Snapshot.stage, transitionAfterWindow, Dict.get?_foldl_items
    (fun e : (String × String) × SnapshotEntry =>
      e.2.state = .opened ∧ b.openDurationS ≤ now - e.2.openedAtS), Snapshot.stage]
  cases he : snapshot.get? cand with
  | none => rfl
  | some e =>
    cases hstate : e.state with
    | opened =>
      by_cases hdue : b.openDurationS ≤ now - e.openedAtS
      · simp [hstate, hdue, SnapshotEntry.stage, wakeStage]
      · simp [hstate, hdue, SnapshotEntry.stage, wakeStage]
    | closed => simp [hstate, SnapshotEntry.stage, wakeStage]
    | halfOpen => simp [hstate, SnapshotEntry.stage, wakeStage]

end BreakerSet

/-- What `_seed_snapshot_from_keys` has done once the `SCAN` has returned these keys. -/
def Snapshot.seedFrom (snapshot : Snapshot) (found : List String) : Snapshot :=
  (found.filterMap sampleKeyCandidate).foldl (fun s cand => s.setDefault cand .fresh) snapshot

/-- Seeding adds candidates that were not there, with fresh entries. -/
theorem Snapshot.get?_seedFrom (snapshot : Snapshot) (found : List String)
    (cand : String × String) : (snapshot.seedFrom found).get? cand = (snapshot.get? cand).or
      (if cand ∈ found.filterMap sampleKeyCandidate then some .fresh else none) := by
  have hlookup : ∀ l : List (String × String),
      Dict.lookup cand (l.map fun c => (c, SnapshotEntry.fresh)) =
        if cand ∈ l then some .fresh else none := by
    intro l
    induction l with
    | nil => rfl
    | cons c l ih =>
      by_cases hc : c = cand
      · simp [Dict.lookup, hc]
      · simp [Dict.lookup, ih, hc, Ne.symm hc]
  have hfold := Dict.get?_foldl_setDefault cand
    ((found.filterMap sampleKeyCandidate).map fun c => (c, SnapshotEntry.fresh)) snapshot
  rw [List.foldl_map, hlookup] at hfold
  exact hfold

theorem Snapshot.stage_seedFrom (snapshot : Snapshot) (found : List String)
    (cand : String × String) : (snapshot.seedFrom found).stage cand = snapshot.stage cand := by
  rw [stage, get?_seedFrom, stage]
  cases snapshot.get? cand with
  | some e => rfl
  | none =>
    rw [Option.none_or]
    split <;> rfl

theorem Snapshot.get?_seed (snapshot : Snapshot) (r : Redis) (t : ℚ) (cand : String × String) :
    (snapshot.seed r t).get? cand = (snapshot.get? cand).or
      (if cand ∈ (r.scan (t * 1000) isSampleKey).filterMap sampleKeyCandidate
        then some .fresh else none) :=
  snapshot.get?_seedFrom _ cand

theorem Snapshot.stage_seed (snapshot : Snapshot) (r : Redis) (t : ℚ) (cand : String × String) :
    (snapshot.seed r t).stage cand = snapshot.stage cand :=
  snapshot.stage_seedFrom _ cand

/-- Of a candidate that the `SCAN` did not find no hash is left. -/
theorem Snapshot.read_of_get?_seed {snapshot : Snapshot} {r : Redis} {t : ℚ}
    {cand : String × String} (hcand : Addressable cand)
    (hnone : (snapshot.seed r t).get? cand = none) (n : ℤ) :
    r.read (t * 1000) (sampleKey cand.1 cand.2 n) = .missing := by
  rw [get?_seed, Option.or_eq_none_iff] at hnone
  have hnot : cand ∉ (r.scan (t * 1000) isSampleKey).filterMap sampleKeyCandidate := by
    intro hmem
    rw [if_pos hmem] at hnone
    cases hnone.2
  rw [Redis.read]
  cases he : r.get? (sampleKey cand.1 cand.2 n) with
  | none => rfl
  | some e =>
    rw [Option.getD_some]
    rcases e.expire_cases (t * 1000) with ⟨-, -, -, hmissing⟩ | hsame
    · exact hmissing
    · -- a live hash would have been found
      by_cases hlive : e.live (t * 1000) = true
      · refine absurd ?_ hnot
        refine List.mem_filterMap.mpr ⟨_, ?_, hcand n⟩
        refine List.mem_map.mpr ⟨_, List.mem_filter.mpr ⟨Dict.get?_eq_some_iff.mp he, ?_⟩, rfl⟩
        rw [hlive, isSampleKey_sampleKey]
        rfl
      · unfold RedisEntry.live at hlive
        unfold RedisEntry.expire
        cases hdue : e.expireAtMs with
        | none => simp [hdue] at hlive
        | some due =>
          have hle : due ≤ t * 1000 := by simpa [hdue] using hlive
          simp [hle]

theorem sumSamples_of_missing {r : Redis} {t : ℚ} {cand : String × String}
    (h : ∀ n, r.read (t * 1000) (sampleKey cand.1 cand.2 n) = .missing) (lo hi : ℤ) :
    sumSamples r t (sampleKeys cand lo hi) = (0, 0) := by
  have hsum : ∀ field, (((intRange lo (hi + 1)).map fun n =>
      (r.read (t * 1000) (sampleKey cand.1 cand.2 n)).count field).sum) = 0 := by
    intro field
    refine List.sum_eq_zero fun x hx => ?_
    obtain ⟨n, -, rfl⟩ := List.mem_map.mp hx
    rw [h n, RedisEntry.count_missing]
  simp only [sumSamples, sampleKeys, List.map_map]
  exact Prod.ext (hsum "successes") (hsum "failures")

namespace BreakerSet

variable {b : BreakerSet}

/-- Every candidate of the snapshot gets a new entry, unless the window has no second. -/
theorem get?_aggregateInto (r : Redis) (atS : ℚ) (snapshot : Snapshot) (now : ℚ)
    (cand : String × String) :
    (b.aggregateInto r atS snapshot now).get? cand = (snapshot.get? cand).map fun e =>
      if sampleKeys cand (toInt (now - b.windowS)) (toInt now) = [] then e
      else b.nextEntry r atS snapshot now cand
        (sampleKeys cand (toInt (now - b.windowS)) (toInt now)) := by
  set due := snapshot.keys.filter fun c =>
    sampleKeys c (toInt (now - b.windowS)) (toInt now) ≠ [] with hdue
  have hlist : b.enumerateSampleKeys snapshot now =
      due.map fun c => (c, sampleKeys c (toInt (now - b.windowS)) (toInt now)) := by
    rw [enumerateSampleKeys, List.filter_map]
    rfl
  have hmem : cand ∈ due ↔ (∃ e, snapshot.get? cand = some e) ∧
      sampleKeys cand (toInt (now - b.windowS)) (toInt now) ≠ [] := by
    rw [hdue, List.mem_filter, Dict.mem_keys_iff, decide_eq_true_eq]
  rw [aggregateInto, hlist, List.foldl_map, Dict.get?_foldl_set_key fun c =>
    b.nextEntry r atS snapshot now c (sampleKeys c (toInt (now - b.windowS)) (toInt now))]
  by_cases hin : cand ∈ due
  · obtain ⟨⟨e, he⟩, hkeys⟩ := hmem.mp hin
    rw [if_pos hin, he, Option.map_some, if_neg hkeys]
  · rw [if_neg hin]
    cases he : snapshot.get? cand with
    | none => rfl
    | some e =>
      have hkeys : sampleKeys cand (toInt (now - b.windowS)) (toInt now) = [] := by
        by_contra hne
        exact hin (hmem.mpr ⟨⟨e, he⟩, hne⟩)
      rw [Option.map_some, if_pos hkeys]

/-- The stage that the loop of `refresh_snapshot` gives a candidate. -/
def decidedStage (b : BreakerSet) (r : Redis) (atS now : ℚ) (snapshot : Snapshot)
    (cand : String × String) : Stage :=
  (b.aggregateInto r atS (snapshot.seed r atS) now).stage cand

/-- **The stage after the loop**, from the stage before and the candidate's own hashes. -/
theorem decidedStage_eq {r : Redis} {atS : ℚ} {snapshot : Snapshot} {cand : String × String}
    (hcand : snapshot.get? cand = none → Addressable cand) (now : ℚ) :
    b.decidedStage r atS now snapshot cand =
      if sampleKeys cand (toInt (now - b.windowS)) (toInt now) = [] then snapshot.stage cand
      else b.decideStage
        (sumSamples r atS (sampleKeys cand (toInt (now - b.windowS)) (toInt now)))
        (fun since => sumSamples r atS (sampleKeys cand (toInt since) (toInt now))) now
        (snapshot.stage cand) := by
  have hstage := Snapshot.stage_seed snapshot r atS cand
  rw [decidedStage, ← hstage, Snapshot.stage, get?_aggregateInto, Snapshot.stage]
  split
  · cases (snapshot.seed r atS).get? cand <;> rfl
  · cases he : (snapshot.seed r atS).get? cand with
    | some e =>
      rw [Option.map_some, Option.map_some, Option.getD_some]
      have hnext := computeNextState_stage (b := b) (some e)
        (sumSamples r atS (sampleKeys cand (toInt (now - b.windowS)) (toInt now))) now
        (fun since => sumSamples r atS (sampleKeys cand (toInt since) (toInt now)))
      rw [nextEntry, he]
      exact hnext
    | none =>
      -- no hash is left, and no breaker trips on nothing
      have hnone : snapshot.get? cand = none := by
        rw [Snapshot.get?_seed, Option.or_eq_none_iff] at he
        exact he.1
      have hzero := sumSamples_of_missing (Snapshot.read_of_get?_seed (hcand hnone) he)
      have hmin : b.minSamples ≠ 0 := b.minSamples_pos.ne'
      simp [decideStage, hzero, Trips, hmin]

/-- **The stage after a refresh.** -/
theorem stage_refreshSnapshot (r : Redis) (atS now : ℚ) (snapshot : Snapshot)
    (cand : String × String) :
    (b.refreshSnapshot r atS now snapshot).stage cand =
      b.wakeStage now (b.decidedStage r atS now snapshot cand) :=
  stage_transitionAfterWindow _ _ _

end BreakerSet

end Librouter
