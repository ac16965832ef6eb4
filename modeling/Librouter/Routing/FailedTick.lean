/-
# A tick that fails leaves nothing half done

Every Redis command of a tick may raise, and then `_loop` gives the tick up.  The weight cache is
assigned in one piece at the very end, and the breaker snapshot in one piece at the end of
`refresh_snapshot`; only `_seed_snapshot_from_keys` changes the live snapshot, candidate by candidate
as its `SCAN` returns keys.  What it adds are closed breakers, which a candidate without an entry has
as well.

So a failed tick leaves the states as they were, or as `refresh_snapshot` has computed them
(`RefreshTask.failedTick`).  And what it has added does not show later: a run with failed refreshes
goes through the states of the run without them (`stage_without_raised`).
-/
import Librouter.Breaker.Machine
import Librouter.RedisState.Keys

namespace Librouter

/-! ## 1. States and stages -/

/-- The state of a stage. -/
def Stage.state : Stage → BreakerState
  | .closed => .closed
  | .opened _ => .opened
  | .halfOpen _ => .halfOpen

theorem SnapshotEntry.stage_state (e : SnapshotEntry) : e.stage.state = e.state := by
  cases h : e.state <;> simp [stage, Stage.state, h]

theorem Snapshot.state_eq_stage (snapshot : Snapshot) (provider model : String) :
    snapshot.state provider model = (snapshot.stage (provider, model)).state := by
  rw [state, stage]
  cases snapshot.get? (provider, model) with
  | none => rfl
  | some e => exact e.stage_state.symm

/-- `state()` answers alike from the two snapshots for every candidate, whatever its `SCAN` finds. -/
def Snapshot.SameStates (snapshot snapshot' : Snapshot) : Prop :=
  ∀ (found found' : List String) (provider model : String),
    (snapshot.seedFrom found).state provider model =
      (snapshot'.seedFrom found').state provider model

theorem Snapshot.sameStates_of_stage {snapshot snapshot' : Snapshot}
    (h : ∀ cand, snapshot.stage cand = snapshot'.stage cand) : snapshot.SameStates snapshot' := by
  intro found found' provider model
  rw [state_eq_stage, state_eq_stage, stage_seedFrom, stage_seedFrom, h]

/-! ## 2. The commands of a tick -/

/-- What a command finds: Redis, and the time. -/
structure CommandAt where
  redis : Redis
  timeS : ℚ

/-- A command's `SCAN` returns the key. -/
def CommandAt.Scans (c : CommandAt) (key : String) : Prop :=
  key ∈ c.redis.scan (c.timeS * 1000) isSampleKey

/-- The tick is in `refresh_snapshot`. -/
def TickPc.refreshing : TickPc → Bool
  | .seeding _ => true
  | .sampling _ _ _ _ _ => true
  | .probing _ _ _ _ _ _ _ => true
  | _ => false

namespace RefreshTask

variable (task : RefreshTask)

/-- A command of a tick; since the last one Redis may have changed in any way. -/
def command (s : RefreshState) (c : CommandAt) : Option RefreshState :=
  (task.step c.redis c.timeS s).map Prod.snd

/-- The command that the tick waits for raises; if it is a `SCAN`, it has returned `found` before. -/
def raise (s : RefreshState) (found : List String) : Option RefreshState :=
  match s.pc with
  | .idle => none
  | .seeding _ => some { s with snapshot := s.snapshot.seedFrom found, pc := .idle }
  | .stating _ _ _ _ _ _ => some { s with snapshot := s.snapshot.seedFrom found, pc := .idle }
  | _ => some { s with pc := .idle }

/-- What a command does, or `raise`: the snapshot is seeded with keys like these, at most. -/
def Seeded (keys : String → Prop) (s s' : RefreshState) : Prop :=
  ∃ found, (∀ key ∈ found, keys key) ∧ s'.snapshot = s.snapshot.seedFrom found

theorem seeded_refl {keys : String → Prop} {s s' : RefreshState} (h : s'.snapshot = s.snapshot) :
    Seeded keys s s' :=
  ⟨[], by simp, h⟩

theorem Seeded.mono {keys keys' : String → Prop} {s s' : RefreshState} (h : Seeded keys s s')
    (hle : ∀ key, keys key → keys' key) : Seeded keys' s s' := by
  obtain ⟨found, hfound, hs'⟩ := h
  exact ⟨found, fun key hkey => hle key (hfound key hkey), hs'⟩

theorem Seeded.trans {keys : String → Prop} {s m s' : RefreshState} (h : Seeded keys s m)
    (h' : Seeded keys m s') : Seeded keys s s' := by
  obtain ⟨found, hfound, hm⟩ := h
  obtain ⟨found', hfound', hs'⟩ := h'
  refine ⟨found ++ found', fun key hkey => ?_, ?_⟩
  · rcases List.mem_append.mp hkey with hkey | hkey
    · exact hfound key hkey
    · exact hfound' key hkey
  · rw [hs', hm, Snapshot.seedFrom, Snapshot.seedFrom, Snapshot.seedFrom, List.filterMap_append,
      List.foldl_append]

theorem Seeded.stage {keys : String → Prop} {s s' : RefreshState} (h : Seeded keys s s')
    (cand : String × String) : s'.snapshot.stage cand = s.snapshot.stage cand := by
  obtain ⟨found, -, hs'⟩ := h
  rw [hs', Snapshot.stage_seedFrom]

variable {task} {s s' m : RefreshState}

/-- **A tick that raises** has not touched the cache, and has seeded the snapshot at most. -/
theorem raise_eq {found : List String} (h : raise s found = some s') :
    s'.cache = s.cache ∧ s.isIdle = false ∧ Seeded (· ∈ found) s s' := by
  unfold raise at h
  split at h
  · cases h
  · rename_i hpc
    cases h
    exact ⟨rfl, by simp [RefreshState.isIdle, hpc], found, fun _ hkey => hkey, rfl⟩
  · rename_i hpc
    cases h
    exact ⟨rfl, by simp [RefreshState.isIdle, hpc], found, fun _ hkey => hkey, rfl⟩
  · rename_i hidle _ _
    cases h
    refine ⟨rfl, ?_, seeded_refl rfl⟩
    unfold RefreshState.isIdle
    split
    · exact absurd ‹_› hidle
    · rfl

/-- On to the next candidate, or to `update_cache`: the snapshot stays. -/
theorem nextCandidate_spec (s : RefreshState) (pending : List RatedCandidate)
    (out : Dict CandidateRef CandidateSignals) :
    (nextCandidate s pending out).pc.refreshing = false ∧
      (nextCandidate s pending out).snapshot = s.snapshot ∧
      ((nextCandidate s pending out).isIdle = false →
        (nextCandidate s pending out).cache = s.cache) := by
  cases pending with
  | nil => exact ⟨rfl, rfl, nofun⟩
  | cons cand rest => exact ⟨rfl, rfl, fun _ => rfl⟩

/-- On to the next samples, or out of `refresh_snapshot`. -/
theorem nextSample_spec (task : RefreshTask) (s : RefreshState) (now : ℚ)
    (pending : List ((String × String) × List String)) (fresh : Snapshot) :
    ((task.nextSample s now pending fresh).pc.refreshing = true →
      (task.nextSample s now pending fresh).snapshot = s.snapshot) ∧
      ((task.nextSample s now pending fresh).isIdle = false →
        (task.nextSample s now pending fresh).cache = s.cache) := by
  cases pending with
  | nil =>
    obtain ⟨hover, -, hcache⟩ := nextCandidate_spec
      { s with snapshot := task.breakers.transitionAfterWindow fresh now } task.candidates Dict.empty
    refine ⟨fun hpc => ?_, hcache⟩
    rw [nextSample, hover] at hpc
    cases hpc
  | cons p pending => exact ⟨fun _ => rfl, fun _ => rfl⟩

/-- One command. -/
structure CommandLaw (c : CommandAt) (s s' : RefreshState) : Prop where
  busy : s.isIdle = false
  /-- the cache is assigned at the end -/
  cache : s'.isIdle = false → s'.cache = s.cache
  /-- the tick does not come back to `refresh_snapshot` -/
  left : s.pc.refreshing = false → s'.pc.refreshing = false
  /-- within `refresh_snapshot`, and after it, the snapshot is seeded at most -/
  seeded : s'.pc.refreshing = s.pc.refreshing → Seeded c.Scans s s'

/-- An idle task has no command. -/
theorem busy_of_command {c : CommandAt} (h : task.command s c = some s') : s.isIdle = false := by
  unfold RefreshState.isIdle
  split
  · rename_i hpc
    simp [command, step, hpc] at h
  · rfl

/-- **What a command of a tick does.** -/
theorem commandLaw {c : CommandAt} (h : task.command s c = some s') : CommandLaw c s s' := by
  have hbusy := busy_of_command h
  obtain ⟨⟨r, m⟩, hstep, rfl⟩ := Option.map_eq_some_iff.mp h
  unfold step at hstep
  split at hstep
  · cases hstep
  · rename_i now hpc
    cases hstep
    obtain ⟨hsame, hcache⟩ := nextSample_spec task
      { s with snapshot := s.snapshot.seed c.redis c.timeS } now
      (task.breakers.enumerateSampleKeys (s.snapshot.seed c.redis c.timeS) now)
      (s.snapshot.seed c.redis c.timeS)
    refine ⟨hbusy, hcache, fun hover => ?_, fun hrefresh => ⟨_, fun _ hkey => hkey, hsame ?_⟩⟩
    · rw [hpc] at hover
      cases hover
    · rw [hrefresh, hpc]
      rfl
  · rename_i now cand keys pending fresh hpc
    have hnext : ∀ fresh, CommandLaw c s (task.nextSample s now pending fresh) := by
      intro fresh
      obtain ⟨hsame, hcache⟩ := nextSample_spec task s now pending fresh
      refine ⟨hbusy, hcache, fun hover => ?_, fun hrefresh => seeded_refl (hsame ?_)⟩
      · rw [hpc] at hover
        cases hover
      · rw [hrefresh, hpc]
        rfl
    split at hstep
    split at hstep
    · split at hstep
      · cases hstep
        refine ⟨hbusy, fun _ => rfl, fun hover => ?_, fun _ => seeded_refl rfl⟩
        rw [hpc] at hover
        cases hover
      · cases hstep
        exact hnext _
    · cases hstep
      exact hnext _
  · rename_i now cand entry total failures pending fresh hpc
    cases hstep
    obtain ⟨hsame, hcache⟩ := nextSample_spec task s now pending
      (fresh.set cand (task.breakers.computeNextState (some entry) total failures now
        (some (sumSamples c.redis c.timeS
          (sampleKeys cand (toInt entry.halfOpenedAtS) (toInt now))))))
    refine ⟨hbusy, hcache, fun hover => ?_, fun hrefresh => seeded_refl (hsame ?_)⟩
    · rw [hpc] at hover
      cases hover
    · rw [hrefresh, hpc]
      rfl
  · cases hstep
    exact ⟨hbusy, fun _ => rfl, fun _ => rfl, fun _ => seeded_refl rfl⟩
  · split at hstep
    · cases hstep
      exact ⟨hbusy, fun _ => rfl, fun _ => rfl, fun _ => seeded_refl rfl⟩
    · cases hstep
  · rename_i cand agg rpm tpm pending out hpc
    cases hstep
    obtain ⟨hover, hsame, hcache⟩ := nextCandidate_spec
      { s with snapshot := s.snapshot.seed c.redis c.timeS } pending
      (out.set cand.ref (cand.signals agg rpm tpm ((s.snapshot.seed c.redis c.timeS).state
        cand.ref.provider cand.ref.model)))
    exact ⟨hbusy, hcache, fun _ => hover, fun _ => ⟨_, fun _ hkey => hkey, hsame⟩⟩

/-! ## 3. A whole tick -/

variable (task)

/-- `tick()` at `now`, up to the last of the commands. -/
def commands (s : RefreshState) (now : ℚ) (cmds : List CommandAt) : Option RefreshState :=
  (start now s).bind fun s => Runs.run task.command s cmds

/-- With the last of the commands, and not before, the tick leaves `refresh_snapshot`. -/
structure Refreshed (s : RefreshState) (now : ℚ) (cmds : List CommandAt) (d : RefreshState) :
    Prop where
  reached : task.commands s now cmds = some d
  left : d.pc.refreshing = false
  first : ∀ p m, p <+: cmds → p ≠ cmds → task.commands s now p = some m →
    m.pc.refreshing = true

/-- What `refresh_snapshot` still has to do, on one Redis, and what comes of it. -/
def completion (r : Redis) (t : ℚ) (s : RefreshState) : Snapshot :=
  let finish := fun now (pending : List ((String × String) × List String)) fresh =>
    task.breakers.transitionAfterWindow (pending.foldl (fun fresh p =>
      fresh.set p.1 (task.breakers.nextEntry r t s.snapshot now p.1 p.2)) fresh) now
  match s.pc with
  | .seeding now => task.breakers.refreshSnapshot r t now s.snapshot
  | .sampling now cand keys pending fresh => finish now ((cand, keys) :: pending) fresh
  | .probing now cand entry total failures pending fresh =>
    finish now pending (fresh.set cand (task.breakers.computeNextState (some entry) total failures
      now (some (sumSamples r t (sampleKeys cand (toInt entry.halfOpenedAtS) (toInt now))))))
  | _ => s.snapshot

variable {task} {r : Redis} {t : ℚ}

theorem completion_nextSample (s : RefreshState) (now : ℚ)
    (pending : List ((String × String) × List String)) (fresh : Snapshot) :
    task.completion r t (task.nextSample s now pending fresh) =
      task.breakers.transitionAfterWindow (pending.foldl (fun fresh p =>
        fresh.set p.1 (task.breakers.nextEntry r t s.snapshot now p.1 p.2)) fresh) now := by
  cases pending with
  | nil =>
    simp only [nextSample]
    cases task.candidates <;> rfl
  | cons p pending => rfl

/-- A command in `refresh_snapshot` does part of it. -/
theorem completion_command (hpc : s.pc.refreshing = true)
    (h : task.command s ⟨r, t⟩ = some s') : task.completion r t s' = task.completion r t s := by
  obtain ⟨⟨r', m⟩, hstep, rfl⟩ := Option.map_eq_some_iff.mp h
  unfold step at hstep
  split at hstep
  · cases hstep
  · rename_i now heq
    cases hstep
    refine (completion_nextSample _ _ _ _).trans ?_
    simp only [completion, heq]
    rfl
  · rename_i now cand keys pending fresh heq
    cases hentry : s.snapshot.get? cand with
    | none =>
      simp only [hentry] at hstep
      cases hstep
      refine (completion_nextSample _ _ _ _).trans ?_
      simp [completion, heq, BreakerSet.nextEntry, hentry]
    | some entry =>
      simp only [hentry] at hstep
      by_cases hhalf : entry.state = .halfOpen
      · rw [if_pos hhalf] at hstep
        cases hstep
        simp [completion, heq, BreakerSet.nextEntry, hentry, hhalf]
      · rw [if_neg hhalf] at hstep
        cases hstep
        refine (completion_nextSample _ _ _ _).trans ?_
        simp [completion, heq, BreakerSet.nextEntry, hentry, hhalf]
  · rename_i now cand entry total failures pending fresh heq
    cases hstep
    refine (completion_nextSample _ _ _ _).trans ?_
    simp only [completion, heq]
  all_goals
    rename_i heq
    rw [heq] at hpc
    cases hpc

theorem commands_eq_some_iff {now : ℚ} {cmds : List CommandAt} :
    task.commands s now cmds = some m ↔ s.isIdle = true ∧
      Runs.run task.command { s with pc := .seeding now } cmds = some m := by
  unfold commands start RefreshState.isIdle
  cases hpc : s.pc <;> simp

/-- **If Redis does not change meanwhile**, what the tick has computed is the whole of
`refresh_snapshot`. -/
theorem Refreshed.snapshot_eq {now : ℚ} {cmds : List CommandAt} {d : RefreshState}
    (h : task.Refreshed s now cmds d) (hall : ∀ c ∈ cmds, c = ⟨r, t⟩) :
    d.snapshot = task.breakers.refreshSnapshot r t now s.snapshot := by
  obtain ⟨hidle, hrun⟩ := commands_eq_some_iff.mp h.reached
  have halong : Runs.Along task.command (fun m c => m.pc.refreshing = true ∧ c = ⟨r, t⟩)
      { s with pc := .seeding now } cmds := by
    refine Runs.along_iff.mpr fun before c after hcmds m hm => ⟨?_, hall c (by simp [hcmds])⟩
    refine h.first before m ⟨c :: after, hcmds.symm⟩ (fun heq => ?_)
      (commands_eq_some_iff.mpr ⟨hidle, hm⟩)
    rw [hcmds] at heq
    simp at heq
  have hdone := Runs.invariant_along _
    (fun _ m => task.completion r t m = task.breakers.refreshSnapshot r t now s.snapshot) rfl
    (fun _ m c m' hinv hc hstep => by
      obtain ⟨hpc, rfl⟩ := hc
      rw [completion_command hpc hstep, hinv]) hrun halong
  rw [← hdone]
  have hleft := h.left
  unfold completion
  cases hpc : d.pc with
  | seeding | sampling | probing =>
    rw [hpc] at hleft
    cases hleft
  | idle | aggregating | budgeting | stating => rfl

/-- What the induction over the commands carries. -/
structure TickInv (task : RefreshTask) (s : RefreshState) (now : ℚ) (cmds : List CommandAt)
    (m : RefreshState) : Prop where
  reached : task.commands s now cmds = some m
  cache : m.isIdle = false → m.cache = s.cache
  /-- so far the tick has only seeded the snapshot, or it has refreshed it and seeded it since -/
  stages : ((∀ p m', p <+: cmds → task.commands s now p = some m' → m'.pc.refreshing = true) ∧
      Seeded (fun key => ∃ c ∈ cmds, c.Scans key) s m) ∨
    m.pc.refreshing = false ∧ ∃ done d, done <+: cmds ∧ task.Refreshed s now done d ∧
      Seeded (fun key => ∃ c ∈ cmds, c.Scans key) d m

theorem TickInv.refreshing {now : ℚ} {cmds : List CommandAt} (h : TickInv task s now cmds m)
    (hall : ∀ p m', p <+: cmds → task.commands s now p = some m' → m'.pc.refreshing = true) :
    m.pc.refreshing = true :=
  hall cmds m (List.prefix_refl _) h.reached

/-- **A command keeps it.** -/
theorem TickInv.command {now : ℚ} {cmds : List CommandAt} {c : CommandAt}
    (h : TickInv task s now cmds m) (hstep : task.command m c = some s') :
    TickInv task s now (cmds ++ [c]) s' := by
  obtain ⟨hidle, hrun⟩ := commands_eq_some_iff.mp h.reached
  have hreached : task.commands s now (cmds ++ [c]) = some s' :=
    commands_eq_some_iff.mpr ⟨hidle, Runs.run_concat_iff.mpr ⟨m, hrun, hstep⟩⟩
  have hlaw := commandLaw hstep
  refine ⟨hreached, fun hbusy => (hlaw.cache hbusy).trans (h.cache hlaw.busy), ?_⟩
  have hprefix : ∀ p, p <+: cmds ++ [c] → p <+: cmds ∨ p = cmds ++ [c] := fun p hp => by
    rcases List.prefix_concat_iff.mp hp with heq | hp
    · exact Or.inr heq
    · exact Or.inl hp
  have hearlier : ∀ key, (∃ c ∈ cmds, c.Scans key) → ∃ c' ∈ cmds ++ [c], c'.Scans key := by
    rintro key ⟨c', hc', hkey⟩
    exact ⟨c', List.mem_append_left _ hc', hkey⟩
  have hlast : ∀ key, c.Scans key → ∃ c' ∈ cmds ++ [c], c'.Scans key := fun key hkey =>
    ⟨c, by simp, hkey⟩
  rcases h.stages with ⟨hall, hseeded⟩ | ⟨hover, done, d, hdone, hd, hseeded⟩
  · have hbefore : m.pc.refreshing = true := h.refreshing hall
    cases hafter : s'.pc.refreshing with
    | true =>
      left
      refine ⟨fun p m' hp hm' => ?_,
        (hseeded.mono hearlier).trans ((hlaw.seeded (hafter.trans hbefore.symm)).mono hlast)⟩
      rcases hprefix p hp with hp | rfl
      · exact hall p m' hp hm'
      · rwa [← Option.some.inj (hreached.symm.trans hm')]
    | false =>
      -- the tick leaves `refresh_snapshot` with this command
      right
      refine ⟨rfl, cmds ++ [c], s', List.prefix_refl _, ⟨hreached, hafter, ?_⟩, seeded_refl rfl⟩
      intro p m' hp hne hm'
      rcases hprefix p hp with hp | heq
      · exact hall p m' hp hm'
      · exact absurd heq hne
  · right
    have hafter := hlaw.left hover
    exact ⟨hafter, done, d, hdone.trans (List.prefix_append _ _), hd,
      (hseeded.mono hearlier).trans ((hlaw.seeded (hafter.trans hover.symm)).mono hlast)⟩

theorem tickInv_of_commands {now : ℚ} {cmds : List CommandAt}
    (h : task.commands s now cmds = some m) : TickInv task s now cmds m := by
  obtain ⟨hidle, hrun⟩ := commands_eq_some_iff.mp h
  refine Runs.invariant (fun cmds m => TickInv task s now cmds m) ?_
    (fun _ _ _ _ hinv hstep => hinv.command hstep) hrun
  refine ⟨commands_eq_some_iff.mpr ⟨hidle, rfl⟩, fun _ => rfl, Or.inl ⟨?_, seeded_refl rfl⟩⟩
  intro p m' hp hm'
  obtain rfl := List.prefix_nil.mp hp
  obtain rfl := Option.some.inj (commands_eq_some_iff.mp hm').2
  rfl

/-- What a tick leaves that fails with the state at `m`, after these commands. -/
structure FailedTick (task : RefreshTask) (s : RefreshState) (now : ℚ) (cmds : List CommandAt)
    (found : List String) (m s' : RefreshState) : Prop where
  cache : s'.cache = s.cache
  /-- in `refresh_snapshot`: the snapshot is seeded, and all states are as before -/
  unchanged : m.pc.refreshing = true → s.snapshot.SameStates s'.snapshot ∧
    Seeded (fun key => key ∈ found ∨ ∃ c ∈ cmds, c.Scans key) s s'
  /-- later: all states are those that the refresh has computed -/
  refreshed : m.pc.refreshing = false → ∃ done d, done <+: cmds ∧ task.Refreshed s now done d ∧
    d.snapshot.SameStates s'.snapshot

/-- **A tick that fails**, at any of its commands: the cache is as before, and the states are all as
before, or all as the refresh has computed them. -/
theorem failedTick {now : ℚ} {cmds : List CommandAt} {found : List String}
    (h : task.commands s now cmds = some m) (hraise : raise m found = some s') :
    FailedTick task s now cmds found m s' := by
  have hinv := tickInv_of_commands h
  obtain ⟨hcache, hbusy, hraised⟩ := raise_eq hraise
  refine ⟨hcache.trans (hinv.cache hbusy), fun hpc => ?_, fun hpc => ?_⟩
  · rcases hinv.stages with ⟨hall, hseeded⟩ | ⟨hover, -⟩
    · have htotal := (hseeded.mono fun key hkey => Or.inr hkey).trans
        (hraised.mono fun key hkey => Or.inl hkey)
      exact ⟨Snapshot.sameStates_of_stage fun cand => (htotal.stage cand).symm, htotal⟩
    · rw [hover] at hpc
      cases hpc
  · rcases hinv.stages with ⟨hall, -⟩ | ⟨-, done, d, hdone, hd, hseeded⟩
    · rw [hinv.refreshing hall] at hpc
      cases hpc
    · refine ⟨done, d, hdone, hd, Snapshot.sameStates_of_stage fun cand => ?_⟩
      rw [hraised.stage, hseeded.stage]

end RefreshTask

/-! ## 4. Runs with failed refreshes -/

/-- A call, or what a replica does besides. -/
inductive ReplicaEvent
  /-- `record_success`, `record_failure` or `refresh_snapshot` -/
  | call (e : BreakerEvent)
  /-- `state`, for any candidate; its `SCAN` returns `found` -/
  | state (time : ℚ) (found : List String)
  /-- a command writes another key than a sample hash -/
  | write (key : String) (entry : RedisEntry)
  /-- `refresh_snapshot` raises after its `SCAN` has returned `found` -/
  | raised (time : ℚ) (found : List String)

namespace ReplicaEvent

/-- Everything but a refresh that raises. -/
def succeeds : ReplicaEvent → Bool
  | raised _ _ => false
  | _ => true

/-- What is recorded has names without the marker. -/
def MarkerFree : ReplicaEvent → Prop
  | call e => e.Over Librouter.MarkerFree
  | _ => True

end ReplicaEvent

namespace BreakerSystem

/-- A `SCAN` returns these keys. -/
def scanned (s : BreakerSystem) (time : ℚ) (found : List String) : Option BreakerSystem :=
  if s.clock ≤ time ∧ ∀ key ∈ found, key ∈ s.redis.scan (time * 1000) isSampleKey then
    some { s with snapshot := s.snapshot.seedFrom found, clock := time }
  else none

/-- One event. -/
def replicaStep (b : BreakerSet) (writer reader : ℚ) (s : BreakerSystem) :
    ReplicaEvent → Option BreakerSystem
  | .call e => s.step b writer reader e
  | .state time found => s.scanned time found
  | .write key entry =>
    if isSampleKey key then none else some { s with redis := s.redis.set key entry }
  | .raised time found => s.scanned time found

end BreakerSystem

/-- Every sample hash is of a candidate whose names are free of the marker. -/
def Redis.MarkerFree (r : Redis) : Prop :=
  ∀ key ∈ r.keys, isSampleKey key = true →
    ∃ (cand : String × String) (n : ℤ), Librouter.MarkerFree cand ∧
      key = sampleKey cand.1 cand.2 n

/-- What a `SCAN` finds becomes an addressable candidate, if it becomes one. -/
theorem Redis.MarkerFree.addressable {r : Redis} (h : r.MarkerFree) {t : ℚ} {key : String}
    {cand : String × String} (hkey : key ∈ r.scan t isSampleKey)
    (hread : sampleKeyCandidate key = some cand) : Addressable cand := by
  obtain ⟨hmem, hmatch⟩ := Redis.mem_keys_of_mem_scan hkey
  obtain ⟨named, n, hnamed, rfl⟩ := h key hmem hmatch
  rcases hnamed.read n with hnone | hsome
  · rw [hnone] at hread
    cases hread
  · obtain rfl := Option.some.inj (hsome.symm.trans hread)
    exact addressable_of hsome

namespace BreakerSet

variable {b : BreakerSet}

/-- What a refresh makes of a candidate depends on its own entry alone. -/
theorem get?_refreshSnapshot_congr {snapshot snapshot' : Snapshot} {cand : String × String}
    (h : snapshot.get? cand = snapshot'.get? cand) (r : Redis) (t now : ℚ) :
    (b.refreshSnapshot r t now snapshot).get? cand =
      (b.refreshSnapshot r t now snapshot').get? cand := by
  have hseed : (snapshot.seed r t).get? cand = (snapshot'.seed r t).get? cand := by
    rw [Snapshot.get?_seed, Snapshot.get?_seed, h]
  have hnext : ∀ keys, b.nextEntry r t (snapshot.seed r t) now cand keys =
      b.nextEntry r t (snapshot'.seed r t) now cand keys := by
    intro keys
    simp only [nextEntry, hseed]
  rw [refreshSnapshot, refreshSnapshot, transitionAfterWindow, transitionAfterWindow,
    Dict.get?_foldl_items (fun e : (String × String) × SnapshotEntry =>
      e.2.state = .opened ∧ b.openDurationS ≤ now - e.2.openedAtS),
    Dict.get?_foldl_items (fun e : (String × String) × SnapshotEntry =>
      e.2.state = .opened ∧ b.openDurationS ≤ now - e.2.openedAtS),
    get?_aggregateInto, get?_aggregateInto, hseed, hnext]

/-- And of an addressable one, on its stage. -/
theorem stage_refreshSnapshot_congr {snapshot snapshot' : Snapshot} {cand : String × String}
    (hcand : Addressable cand) (h : snapshot.stage cand = snapshot'.stage cand) (r : Redis)
    (t now : ℚ) : (b.refreshSnapshot r t now snapshot).stage cand =
      (b.refreshSnapshot r t now snapshot').stage cand := by
  rw [stage_refreshSnapshot, stage_refreshSnapshot, decidedStage_eq fun _ => hcand,
    decidedStage_eq fun _ => hcand, h]

/-- A record writes a sample hash of its candidate. -/
theorem markerFree_record {r : Redis} (h : r.MarkerFree) {x : Sample} (hx : MarkerFree x.cand) :
    (b.record r x).MarkerFree := by
  intro key hmem hmatch
  rcases Dict.mem_keys_set.mp hmem with rfl | hmem
  · exact ⟨x.cand, x.second, hx, rfl⟩
  · exact h key hmem hmatch

end BreakerSet

/-- The same replica with its failed refreshes, and without them. -/
structure SameButFailed (s s' : BreakerSystem) : Prop where
  redis : s'.redis = s.redis
  clock : s'.clock ≤ s.clock
  named : s.redis.MarkerFree
  /-- a failed refresh may have added a fresh entry -/
  entries : ∀ cand, s.snapshot.get? cand = s'.snapshot.get? cand ∨
    Addressable cand ∧ s.snapshot.stage cand = s'.snapshot.stage cand

namespace SameButFailed

variable {s s' t : BreakerSystem} {b : BreakerSet} {writer reader : ℚ}

theorem stage (h : SameButFailed s s') (cand : String × String) :
    s.snapshot.stage cand = s'.snapshot.stage cand := by
  rcases h.entries cand with heq | ⟨-, heq⟩
  · rw [Snapshot.stage, Snapshot.stage, heq]
  · exact heq

/-- A failed refresh adds only candidates that are addressable. -/
theorem raised (h : SameButFailed s s') {time : ℚ} {found : List String}
    (hstep : s.scanned time found = some t) : SameButFailed t s' := by
  obtain ⟨⟨hle, hfound⟩, ht⟩ := Option.ite_none_right_eq_some.mp hstep
  obtain rfl := Option.some.inj ht
  refine ⟨h.redis, h.clock.trans hle, h.named, fun cand => ?_⟩
  rw [Snapshot.get?_seedFrom]
  split
  · rename_i hmem
    obtain ⟨key, hkey, hread⟩ := List.mem_filterMap.mp hmem
    refine Or.inr ⟨h.named.addressable (hfound key hkey) hread, ?_⟩
    rw [Snapshot.stage_seedFrom, h.stage]
  · rw [Option.or_none]
    rcases h.entries cand with heq | ⟨haddr, heq⟩
    · exact Or.inl heq
    · exact Or.inr ⟨haddr, (Snapshot.stage_seedFrom _ _ _).trans heq⟩

theorem scanned (h : SameButFailed s s') {time : ℚ} {found : List String}
    (hstep : s.scanned time found = some t) :
    ∃ t', s'.scanned time found = some t' ∧ SameButFailed t t' := by
  obtain ⟨⟨hle, hfound⟩, ht⟩ := Option.ite_none_right_eq_some.mp hstep
  obtain rfl := Option.some.inj ht
  rw [← h.redis] at hfound
  refine ⟨_, if_pos ⟨h.clock.trans hle, hfound⟩, h.redis, le_refl _, h.named, fun cand => ?_⟩
  rcases h.entries cand with heq | ⟨haddr, heq⟩
  · exact Or.inl (by rw [Snapshot.get?_seedFrom, Snapshot.get?_seedFrom, heq])
  · exact Or.inr ⟨haddr, by rw [Snapshot.stage_seedFrom, Snapshot.stage_seedFrom, heq]⟩

theorem call (h : SameButFailed s s') {e : BreakerEvent} (he : e.Over MarkerFree)
    (hstep : s.step b writer reader e = some t) :
    ∃ t', s'.step b writer reader e = some t' ∧ SameButFailed t t' := by
  obtain ⟨hle, rfl⟩ := BreakerSystem.step_eq_some_iff.mp hstep
  refine ⟨_, BreakerSystem.step_eq_some_iff.mpr ⟨h.clock.trans hle, rfl⟩, ?_⟩
  obtain ⟨time, call⟩ := e
  cases call with
  | record cand failed =>
    refine ⟨?_, le_refl _, BreakerSet.markerFree_record h.named he, h.entries⟩
    simp only [BreakerSystem.act, h.redis]
  | refresh =>
    refine ⟨h.redis, le_refl _, h.named, fun cand => ?_⟩
    simp only [BreakerSystem.act, h.redis]
    rcases h.entries cand with heq | ⟨haddr, heq⟩
    · exact Or.inl (BreakerSet.get?_refreshSnapshot_congr heq _ _ _)
    · exact Or.inr ⟨haddr, BreakerSet.stage_refreshSnapshot_congr haddr heq _ _ _⟩

theorem write (h : SameButFailed s s') {key : String} (hkey : isSampleKey key = false)
    (entry : RedisEntry) : SameButFailed { s with redis := s.redis.set key entry }
      { s' with redis := s'.redis.set key entry } := by
  refine ⟨by simp only [h.redis], h.clock, fun k hmem hmatch => ?_, h.entries⟩
  rcases Dict.mem_keys_set.mp hmem with rfl | hmem
  · rw [hkey] at hmatch
    cases hmatch
  · exact h.named k hmem hmatch

/-- **Every other event is the same for both.** -/
theorem step (h : SameButFailed s s') {e : ReplicaEvent} (he : e.MarkerFree)
    (hsucceeds : e.succeeds = true) (hstep : s.replicaStep b writer reader e = some t) :
    ∃ t', s'.replicaStep b writer reader e = some t' ∧ SameButFailed t t' := by
  cases e with
  | call e => exact h.call he hstep
  | state time found => exact h.scanned hstep
  | write key entry =>
    obtain ⟨hkey, ht⟩ := Option.ite_none_left_eq_some.mp hstep
    obtain rfl := Option.some.inj ht
    exact ⟨_, if_neg hkey, h.write (Bool.eq_false_iff.mpr hkey) entry⟩
  | raised time found => cases hsucceeds

end SameButFailed

/-- **The run without the refreshes that raise** is possible as well, and at its end all states are
the same. -/
theorem stage_without_raised {b : BreakerSet} {writer reader : ℚ} {s t : BreakerSystem}
    {es : List ReplicaEvent} (hredis : s.redis.MarkerFree) (hes : ∀ e ∈ es, e.MarkerFree)
    (hrun : Runs.run (BreakerSystem.replicaStep b writer reader) s es = some t) :
    ∃ t', Runs.run (BreakerSystem.replicaStep b writer reader) s
        (es.filter ReplicaEvent.succeeds) = some t' ∧
      ∀ cand, t.snapshot.stage cand = t'.snapshot.stage cand := by
  have hself : SameButFailed s s := ⟨rfl, le_refl _, hredis, fun _ => Or.inl rfl⟩
  obtain ⟨t', ht', hsame⟩ := Runs.run_filter
    (fun _ _ _ _ h he hs hstep => h.step he hs hstep)
    (fun _ _ e _ h _ hs hstep => by
      cases e with
      | raised time found => exact h.raised hstep
      | call | state | write => cases hs) hself hes hrun
  exact ⟨t', ht', hsame.stage⟩

/-! ## 5. Failed ticks -/

/-- **A failed tick leaves nothing half done.**  For a tick with any commands, on a Redis that
changes in any way between them: it leaves the cache, and the states are all as before or all as
refreshed (and if Redis did not change, that is what one whole refresh computes).  And a run goes
through the states of the run without its failed refreshes. -/
theorem failedTick_harmless (task : RefreshTask) :
    (∀ (s : RefreshState) (now : ℚ) (cmds : List CommandAt) (found : List String)
      (m s' : RefreshState), task.commands s now cmds = some m →
        RefreshTask.raise m found = some s' →
          RefreshTask.FailedTick task s now cmds found m s' ∧
            ∀ (r : Redis) (t : ℚ) (done : List CommandAt) (d : RefreshState),
              task.Refreshed s now done d → (∀ c ∈ done, c = ⟨r, t⟩) →
                d.snapshot = task.breakers.refreshSnapshot r t now s.snapshot) ∧
      ∀ (writer reader : ℚ) (s t : BreakerSystem) (es : List ReplicaEvent),
        s.redis.MarkerFree → (∀ e ∈ es, e.MarkerFree) →
          Runs.run (BreakerSystem.replicaStep task.breakers writer reader) s es = some t →
            ∃ t', Runs.run (BreakerSystem.replicaStep task.breakers writer reader) s
                (es.filter ReplicaEvent.succeeds) = some t' ∧
              t.snapshot.SameStates t'.snapshot := by
  refine ⟨fun s now cmds found m s' h hraise => ⟨RefreshTask.failedTick h hraise,
    fun r t done d hd hall => hd.snapshot_eq hall⟩, fun writer reader s t es hredis hes hrun => ?_⟩
  obtain ⟨t', ht', hstages⟩ := stage_without_raised hredis hes hrun
  exact ⟨t', ht', Snapshot.sameStates_of_stage hstages⟩

/-- One candidate has been sampled, and there are no tiers. -/
def outageTask : RefreshTask where
  cfg := { providerMode := .mock, secretsMode := .env, tiers := Dict.empty, routing := .default }
  observer := {}
  bucket := ⟨Dict.empty⟩
  breakers := briefBreaker
  availableProviders := []

/-- One sample of `openai:gpt-4o`. -/
def sampledRedis : Redis := Dict.empty.set (sampleKey "openai" "gpt-4o" 7) {}

theorem markerFree_sampledRedis : sampledRedis.MarkerFree := by
  intro key hkey _
  obtain rfl := List.mem_singleton.mp hkey
  exact ⟨("openai", "gpt-4o"), 7, ⟨by decide, by decide⟩, rfl⟩

/-- A `SCAN` raises after it has found the hash; the next refresh goes through. -/
theorem failedTick_harmless_outage :
    (({} : RefreshState).snapshot.SameStates
        (Snapshot.seedFrom Dict.empty [sampleKey "openai" "gpt-4o" 7])) ∧
      ∃ t t', Runs.run (BreakerSystem.replicaStep outageTask.breakers 0 0) (.boot sampledRedis 8)
          [.raised 9 [sampleKey "openai" "gpt-4o" 7], .call ⟨10, .refresh⟩] = some t ∧
        Runs.run (BreakerSystem.replicaStep outageTask.breakers 0 0) (.boot sampledRedis 8)
          [.call ⟨10, .refresh⟩] = some t' ∧ t.snapshot.SameStates t'.snapshot := by
  obtain ⟨htick, hrun⟩ := failedTick_harmless outageTask
  have hscan : ∀ key ∈ [sampleKey "openai" "gpt-4o" 7],
      key ∈ sampledRedis.scan (9 * 1000) isSampleKey := by
    intro key hkey
    obtain rfl := List.mem_singleton.mp hkey
    refine List.mem_map.mpr ⟨_, List.mem_filter.mpr ⟨List.mem_singleton.mpr rfl, ?_⟩, rfl⟩
    exact isSampleKey_sampleKey ("openai", "gpt-4o") 7
  have hraised : (BreakerSystem.boot sampledRedis 8).scanned 9 [sampleKey "openai" "gpt-4o" 7] =
      some { redis := sampledRedis, clock := 9
             snapshot := Snapshot.seedFrom Dict.empty [sampleKey "openai" "gpt-4o" 7] } :=
    if_pos ⟨by norm_num [BreakerSystem.boot], hscan⟩
  refine ⟨((htick {} 9 [] [sampleKey "openai" "gpt-4o" 7] _ _ rfl rfl).1.unchanged rfl).1, ?_⟩
  have hreached : Runs.run (BreakerSystem.replicaStep outageTask.breakers 0 0)
      (.boot sampledRedis 8)
      [.raised 9 [sampleKey "openai" "gpt-4o" 7], .call ⟨10, .refresh⟩] = some _ :=
    Runs.run_cons_iff.mpr ⟨_, hraised, Runs.run_cons_iff.mpr ⟨_,
      BreakerSystem.step_eq_some_iff.mpr ⟨by norm_num, rfl⟩, rfl⟩⟩
  obtain ⟨t', ht', hsame⟩ := hrun 0 0 _ _ _ markerFree_sampledRedis (by simp [
    ReplicaEvent.MarkerFree, BreakerEvent.Over]) hreached
  exact ⟨_, t', hreached, ht', hsame⟩

end Librouter
