/-
# A breaker that a probe has closed

A success recorded while a breaker is half open closes it.  The entry is reset, the sample window is
not: the next refresh of a closed breaker sums the whole window again, with what was recorded while
the breaker was open by requests still in flight, and with the failures that had opened it if they
are still in the window.  So it can trip once more although nothing has failed since.

It does so exactly at a refresh whose window holds enough outcomes, old failures included
(`movesToOpen_iff`).  `reallyCloses_iff` is the law for whole runs: a probe really closes a breaker
iff the windows of the refreshes that follow are harmless.
-/
import Librouter.Breaker.HalfOpen

namespace Librouter

/-! ## 1. Closed by a probe -/

/-- The event records a failure under the names of the candidate. -/
def BreakerEvent.Fails (cand : String × String) (e : BreakerEvent) : Prop :=
  match e.call with
  | .record cand' failed => failed = true ∧ sampleStem cand' = sampleStem cand
  | .refresh => False

section Defs

variable (b : BreakerSet) (offset : ℚ)

/-- One of the refreshes has moved the candidate from half open to closed, and no failure of it was
recorded since. -/
def ClosedByProbe (start : BreakerSystem) (cand : String × String) (past : List BreakerEvent) :
    Prop :=
  ∃ before t quiet s s' since, past = before ++ ⟨t, .refresh⟩ :: quiet ∧
    Runs.run (BreakerSystem.step b offset offset) start before = some s ∧
    s.stage cand = .halfOpen since ∧
    s.step b offset offset ⟨t, .refresh⟩ = some s' ∧ s'.stage cand = .closed ∧
    ∀ e ∈ quiet, ¬ e.Fails cand

/-- The refresh at `t` moves the candidate to open. -/
def MovesToOpen (s : BreakerSystem) (t : ℚ) (cand : String × String) : Prop :=
  (∀ u, s.stage cand ≠ .opened u) ∧
    ∃ u, b.decidedStage s.redis t (t + offset) s.snapshot cand = .opened u

/-- No refresh opens a breaker that a probe has closed and that has not failed since. -/
def ReallyCloses (start : BreakerSystem) (es : List BreakerEvent) : Prop :=
  ∀ cand past t rest s, es = past ++ ⟨t, .refresh⟩ :: rest →
    Runs.run (BreakerSystem.step b offset offset) start past = some s →
      ClosedByProbe b offset start cand past → ¬ MovesToOpen b offset s t cand

/-- At such a breaker no refresh finds in its window `min_samples` outcomes, those from before the
close included, of which the share of the threshold are failures. -/
def WindowsHarmless (start : BreakerSystem) (es : List BreakerEvent) : Prop :=
  ∀ cand past t rest s, es = past ++ ⟨t, .refresh⟩ :: rest →
    Runs.run (BreakerSystem.step b offset offset) start past = some s →
      ClosedByProbe b offset start cand past →
        ¬ b.Trips (BreakerSet.tally (s.inWindow b offset t cand))

end Defs

/-! ## 2. A candidate of the snapshot stays in it -/

theorem Snapshot.isSome_get?_of_halfOpen {snapshot : Snapshot} {cand : String × String} {since : ℚ}
    (h : snapshot.stage cand = .halfOpen since) : (snapshot.get? cand).isSome = true := by
  cases hget : snapshot.get? cand with
  | some entry => rfl
  | none =>
    rw [stage, hget] at h
    cases h

theorem BreakerSet.isSome_refreshSnapshot (b : BreakerSet) (r : Redis) (atS now : ℚ)
    {snapshot : Snapshot} {cand : String × String} (h : (snapshot.get? cand).isSome = true) :
    ((b.refreshSnapshot r atS now snapshot).get? cand).isSome = true := by
  obtain ⟨entry, hentry⟩ := Option.isSome_iff_exists.mp h
  have hseed : (snapshot.seed r atS).get? cand = some entry := by
    rw [Snapshot.get?_seed, hentry, Option.some_or]
  rw [refreshSnapshot, transitionAfterWindow, Dict.get?_foldl_items
    (fun e : (String × String) × SnapshotEntry =>
      e.2.state = .opened ∧ b.openDurationS ≤ now - e.2.openedAtS), get?_aggregateInto, hseed]
  rfl

/-! ## 3. One refresh of a closed breaker -/

section Steps

variable {b : BreakerSet} {offset : ℚ} {s s' : BreakerSystem} {t : ℚ} {cand : String × String}

/-- What the induction below carries: the candidate has an entry, and it is closed. -/
structure ClosedEntry (s : BreakerSystem) (cand : String × String) : Prop where
  known : (s.snapshot.get? cand).isSome = true
  closed : s.stage cand = .closed

/-- What the loop of a refresh makes of it. -/
theorem BreakerInv.decided_closed (h : BreakerInv b offset s) (ht : s.clock ≤ t)
    (hcand : ClosedEntry s cand) :
    b.decidedStage s.redis t (t + offset) s.snapshot cand =
      if b.Trips (BreakerSet.tally (s.inWindow b offset t cand)) then .opened (t + offset)
      else .closed := by
  have hthere : s.snapshot.get? cand = none → Addressable cand := by
    intro hnone
    have hknown := hcand.known
    rw [hnone] at hknown
    cases hknown
  rw [h.decidedStage_stored ht hthere, hcand.closed]
  rfl

/-- **When a refresh opens a closed breaker.** -/
theorem BreakerInv.movesToOpen_iff (h : BreakerInv b offset s) (ht : s.clock ≤ t)
    (hcand : ClosedEntry s cand) :
    MovesToOpen b offset s t cand ↔ b.Trips (BreakerSet.tally (s.inWindow b offset t cand)) := by
  have hnot : ∀ u, s.stage cand ≠ .opened u := by
    intro u hopened
    rw [hcand.closed] at hopened
    cases hopened
  rw [MovesToOpen, h.decided_closed ht hcand]
  by_cases htrips : b.Trips (BreakerSet.tally (s.inWindow b offset t cand))
  · rw [if_pos htrips]
    exact iff_of_true ⟨hnot, _, rfl⟩ htrips
  · rw [if_neg htrips]
    refine iff_of_false ?_ htrips
    rintro ⟨-, u, hu⟩
    cases hu

/-- A step that does not trip it leaves it closed. -/
theorem ClosedEntry.step (h : ClosedEntry s cand) (hinv : BreakerInv b offset s) {e : BreakerEvent}
    (hstep : s.step b offset offset e = some s')
    (hquiet : e.call = .refresh →
      ¬ b.Trips (BreakerSet.tally (s.inWindow b offset e.time cand))) :
    ClosedEntry s' cand := by
  obtain ⟨time, call⟩ := e
  obtain ⟨hle, rfl⟩ := BreakerSystem.step_eq_some_iff.mp hstep
  cases call with
  | record cand' failed => exact ⟨h.known, h.closed⟩
  | refresh =>
    refine ⟨b.isSome_refreshSnapshot _ _ _ h.known, ?_⟩
    have hdecided := hinv.decided_closed hle h
    rw [if_neg (hquiet rfl)] at hdecided
    refine (BreakerSet.stage_refreshSnapshot _ _ _ _ _).trans ?_
    rw [hdecided]
    rfl

/-! ## 4. Whole runs -/

/-- The refresh that closed it, and each one since that did not open it or did not trip it. -/
theorem closedEntry_of_probe {redis : Redis} {start : ℚ} (hredis : redis.NoSamples)
    {es past rest : List BreakerEvent}
    (hcalm : ∀ past t rest s, es = past ++ ⟨t, .refresh⟩ :: rest →
      Runs.run (BreakerSystem.step b offset offset) (.boot redis start) past = some s →
        ClosedByProbe b offset (.boot redis start) cand past → ¬ MovesToOpen b offset s t cand ∨
          ¬ b.Trips (BreakerSet.tally (s.inWindow b offset t cand)))
    (hes : es = past ++ rest)
    (hrun : Runs.run (BreakerSystem.step b offset offset) (.boot redis start) past = some s)
    (hprobe : ClosedByProbe b offset (.boot redis start) cand past) : ClosedEntry s cand := by
  obtain ⟨before, t, quiet, s₀, s₁, since, rfl, hs₀, hhalf, hs₁, hclosed, hquiet⟩ := hprobe
  -- the induction is on what came after the refresh that closed it
  induction quiet using List.reverseRecOn generalizing s rest with
  | nil =>
    obtain ⟨m, hm, hlast⟩ := Runs.run_concat_iff.mp hrun
    obtain rfl := Option.some.inj (hs₀.symm.trans hm)
    obtain rfl := Option.some.inj (hs₁.symm.trans hlast)
    refine ⟨?_, hclosed⟩
    obtain ⟨-, rfl⟩ := BreakerSystem.step_eq_some_iff.mp hs₁
    exact b.isSome_refreshSnapshot _ _ _ (Snapshot.isSome_get?_of_halfOpen hhalf)
  | append_singleton quiet e ih =>
    have hquiet' : ∀ e ∈ quiet, ¬ e.Fails cand :=
      fun e' he' => hquiet e' (List.mem_append_left _ he')
    rw [← List.cons_append, ← List.append_assoc] at hrun
    obtain ⟨m, hm, hlast⟩ := Runs.run_concat_iff.mp hrun
    have hes' : es = (before ++ ⟨t, .refresh⟩ :: quiet) ++ e :: rest := by
      rw [hes]
      simp
    have hentry : ClosedEntry m cand := ih hes' hm hquiet'
    have hinv := breakerInv_of_run hredis hm
    refine hentry.step hinv hlast fun hrefresh => ?_
    obtain ⟨time, call⟩ := e
    obtain rfl : call = .refresh := hrefresh
    have hle := (BreakerSystem.step_eq_some_iff.mp hlast).1
    have hprobe' : ClosedByProbe b offset (.boot redis start) cand
        (before ++ ⟨t, .refresh⟩ :: quiet) :=
      ⟨before, t, quiet, s₀, s₁, since, rfl, hs₀, hhalf, hs₁, hclosed, hquiet'⟩
    rcases hcalm _ time rest m hes' hm hprobe' with hcalm | hcalm
    · exact mt (hinv.movesToOpen_iff hle hentry).mpr hcalm
    · exact hcalm

/-- **In which runs a probe really closes a breaker**: those in which the old outcomes in the windows
of the refreshes that follow do not trip it again. -/
theorem reallyCloses_iff (b : BreakerSet) (offset : ℚ) (redis : Redis) (start : ℚ)
    (es : List BreakerEvent) (s : BreakerSystem) (hredis : redis.NoSamples)
    (hrun : Runs.run (BreakerSystem.step b offset offset) (.boot redis start) es = some s) :
    ReallyCloses b offset (.boot redis start) es ↔
      WindowsHarmless b offset (.boot redis start) es := by
  have hone : ∀ cand past t rest m, es = past ++ ⟨t, .refresh⟩ :: rest →
      Runs.run (BreakerSystem.step b offset offset) (.boot redis start) past = some m →
      ClosedEntry m cand → (MovesToOpen b offset m t cand ↔
        b.Trips (BreakerSet.tally (m.inWindow b offset t cand))) := by
    rintro cand past t rest m rfl hm hentry
    obtain ⟨m', hm', hrest⟩ := Runs.run_append_iff.mp hrun
    obtain rfl := Option.some.inj (hm.symm.trans hm')
    obtain ⟨m'', hstep, -⟩ := Runs.run_cons_iff.mp hrest
    exact (breakerInv_of_run hredis hm).movesToOpen_iff
      (BreakerSystem.step_eq_some_iff.mp hstep).1 hentry
  constructor
  · intro h cand past t rest m hes hm hprobe
    have hentry := closedEntry_of_probe hredis
      (fun past t rest s hes hs hprobe => Or.inl (h cand past t rest s hes hs hprobe)) hes hm hprobe
    exact mt (hone cand past t rest m hes hm hentry).mpr (h cand past t rest m hes hm hprobe)
  · intro h cand past t rest m hes hm hprobe
    have hentry := closedEntry_of_probe hredis
      (fun past t rest s hes hs hprobe => Or.inr (h cand past t rest s hes hs hprobe)) hes hm hprobe
    exact mt (hone cand past t rest m hes hm hentry).mp (h cand past t rest m hes hm hprobe)

end Steps

/-! ## 5. Late failures open it again -/

/-- The breaker opens at 1/2.  A request in flight since then fails at 20, the breaker goes half open
at 153/5, a probe succeeds at 158/5, and the refresh at 32 closes the breaker. -/
def lateFailure : List BreakerEvent :=
  [⟨0, .record ("openai", "gpt-4o-mini") true⟩, ⟨1 / 2, .refresh⟩,
    ⟨20, .record ("openai", "gpt-4o-mini") true⟩, ⟨153 / 5, .refresh⟩,
    ⟨158 / 5, .record ("openai", "gpt-4o-mini") false⟩]

/-- The law, on that run and the next refresh. -/
theorem reallyCloses_iff_lateFailure : ∃ s,
    Runs.run (BreakerSystem.step promptBreaker 0 0) (.boot Dict.empty 0)
        (lateFailure ++ [⟨32, .refresh⟩, ⟨33, .refresh⟩]) = some s ∧
      (ReallyCloses promptBreaker 0 (.boot Dict.empty 0)
          (lateFailure ++ [⟨32, .refresh⟩, ⟨33, .refresh⟩]) ↔
        WindowsHarmless promptBreaker 0 (.boot Dict.empty 0)
          (lateFailure ++ [⟨32, .refresh⟩, ⟨33, .refresh⟩])) := by
  have hsome : (Runs.run (BreakerSystem.step promptBreaker 0 0) (.boot Dict.empty 0)
      (lateFailure ++ [⟨32, .refresh⟩, ⟨33, .refresh⟩])).isSome := by decide +kernel
  obtain ⟨s, hs⟩ := Option.isSome_iff_exists.mp hsome
  exact ⟨s, hs, reallyCloses_iff promptBreaker 0 Dict.empty 0 _ s Redis.noSamples_empty hs⟩

/-- **The refresh at 33 opens it again**, for the failure at 20. -/
theorem lateFailure_reopens : ¬ ∀ (b : BreakerSet) (offset : ℚ) (redis : Redis) (start : ℚ)
    (es : List BreakerEvent) (s : BreakerSystem), redis.NoSamples →
    Runs.run (BreakerSystem.step b offset offset) (.boot redis start) es = some s →
      ReallyCloses b offset (.boot redis start) es := by
  intro h
  have hrun : (Runs.run (BreakerSystem.step promptBreaker 0 0) (.boot Dict.empty 0)
      lateFailure).any (fun s => s.stage ("openai", "gpt-4o-mini") = .halfOpen (153 / 5) ∧
        ((s.step promptBreaker 0 0 ⟨32, .refresh⟩).any fun s' =>
          s'.stage ("openai", "gpt-4o-mini") = .closed ∧
          promptBreaker.decidedStage s'.redis 33 (33 + 0) s'.snapshot
            ("openai", "gpt-4o-mini") = .opened (33 + 0) ∧
          (s'.step promptBreaker 0 0 ⟨33, .refresh⟩).isSome) = true) = true := by
    decide +kernel
  obtain ⟨s, hs, hend⟩ := (Option.any_eq_true _ _).mp hrun
  obtain ⟨hhalf, hnext⟩ := of_decide_eq_true hend
  obtain ⟨s', hs', hlast⟩ := (Option.any_eq_true _ _).mp hnext
  obtain ⟨hclosed, hopened, hover⟩ := of_decide_eq_true hlast
  obtain ⟨s'', hs''⟩ := Option.isSome_iff_exists.mp hover
  have hrun' : Runs.run (BreakerSystem.step promptBreaker 0 0) (.boot Dict.empty 0)
      (lateFailure ++ [⟨32, .refresh⟩]) = some s' := Runs.run_concat_iff.mpr ⟨s, hs, hs'⟩
  have hprobe : ClosedByProbe promptBreaker 0 (.boot Dict.empty 0) ("openai", "gpt-4o-mini")
      (lateFailure ++ [⟨32, .refresh⟩]) :=
    ⟨lateFailure, 32, [], s, s', 153 / 5, rfl, hs, hhalf, hs', hclosed, by simp⟩
  have hcalm := h promptBreaker 0 Dict.empty 0 (lateFailure ++ [⟨32, .refresh⟩] ++ [⟨33, .refresh⟩])
    s'' Redis.noSamples_empty (Runs.run_concat_iff.mpr ⟨s', hrun', hs''⟩)
    ("openai", "gpt-4o-mini") (lateFailure ++ [⟨32, .refresh⟩]) 33 [] s' rfl hrun' hprobe
  refine hcalm ⟨fun u hu => ?_, _, hopened⟩
  rw [hclosed] at hu
  cases hu

end Librouter
