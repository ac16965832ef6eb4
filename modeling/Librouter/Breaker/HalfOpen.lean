/-
# What decides about a half-open breaker

A breaker that has gone half open at `half_opened_at_s` is decided by the samples recorded "strictly
after" that time: a failure opens it again, a success closes it.  The samples are counted by whole
seconds, and the sum begins with the second `int(half_opened_at_s)` itself.  What was recorded in
that second before the transition, by requests still in flight, is counted as well.

So the decision rests on the later samples exactly when the earlier ones of that second do not
matter (`BoundaryClear`): a later failure is there, or no earlier sample is a failure and either a
later one is there or none at all.  `decidedByLater_iff` is the law for whole runs.
-/
import Librouter.Breaker.Machine

namespace Librouter

/-! ## 1. The decision -/

/-- What the outcomes `xs` decide, at `now`, about a breaker half open since `since`. -/
def probeVerdict (now since : ℚ) (xs : List Sample) : Stage :=
  if xs.any Sample.failed then .opened now else if xs.isEmpty then .halfOpen since else .closed

section Verdict

variable {now since : ℚ} {xs : List Sample}

theorem probeVerdict_nil : probeVerdict now since [] = .halfOpen since := rfl

theorem probeVerdict_of_failed (h : ∃ x ∈ xs, x.failed = true) :
    probeVerdict now since xs = .opened now :=
  if_pos (List.any_eq_true.mpr h)

theorem probeVerdict_of_not_failed (h : ¬ ∃ x ∈ xs, x.failed = true) (hne : xs ≠ []) :
    probeVerdict now since xs = .closed := by
  have hany : ¬ xs.any Sample.failed = true := fun hany => h (List.any_eq_true.mp hany)
  have hempty : ¬ xs.isEmpty = true := fun hempty => hne (List.isEmpty_iff.mp hempty)
  rw [probeVerdict, if_neg hany, if_neg hempty]

/-- The loop of a refresh decides by the counts, which is by the outcomes. -/
theorem BreakerSet.decideStage_halfOpen (b : BreakerSet) (window : ℤ × ℤ)
    (probes : ℚ → List Sample) :
    b.decideStage window (fun t => tally (probes t)) now (.halfOpen since) =
      probeVerdict now since (probes since) := by
  by_cases hex : ∃ x ∈ probes since, x.failed = true
  · rw [decideStage, if_pos (tally_snd_pos_iff.mpr hex), probeVerdict_of_failed hex]
  · rw [decideStage, if_neg (mt tally_snd_pos_iff.mp hex)]
    cases hxs : probes since with
    | nil => rfl
    | cons x xs =>
      rw [hxs] at hex
      have hx : ¬ x.failed = true := fun hx => hex ⟨x, List.mem_cons_self, hx⟩
      have hsucc : 0 < (tally (x :: xs)).1 :=
        tally_fst_pos_iff.mpr ⟨x, List.mem_cons_self, Bool.eq_false_of_not_eq_true hx⟩
      rw [if_pos hsucc, probeVerdict_of_not_failed hex (List.cons_ne_nil _ _)]

/-- Nothing decides nothing. -/
theorem BreakerSet.decideStage_nothing (b : BreakerSet) (stage : Stage) :
    b.decideStage (tally []) (fun _ => tally []) now stage = stage := by
  cases stage with
  | opened t => rfl
  | halfOpen t => rfl
  | closed =>
    refine if_neg fun htrips => ?_
    have hmin : (b.minSamples : ℤ) ≤ 0 := htrips.1
    have hpos := b.minSamples_pos
    omega

/-- The earlier outcomes do not matter. -/
def LaterDecide (since : ℚ) (xs : List Sample) : Prop :=
  (∃ x ∈ xs, x.failed = true ∧ since < x.clock) ∨
    (∀ x ∈ xs, x.failed = true → since < x.clock) ∧ ((∃ x ∈ xs, since < x.clock) ∨ xs = [])

/-- **A breaker that leaves the half-open stage does so by the later outcomes exactly then.** -/
theorem probeVerdict_later_iff :
    (probeVerdict now since xs ≠ .halfOpen since →
      probeVerdict now since xs = probeVerdict now since (xs.filter fun x => since < x.clock)) ↔
        LaterDecide since xs := by
  have hlater : (∃ x ∈ xs.filter (fun x => since < x.clock), x.failed = true) ↔
      ∃ x ∈ xs, x.failed = true ∧ since < x.clock := by
    simp only [List.mem_filter, decide_eq_true_eq, and_assoc, and_comm (a := since < _)]
  have hnonempty : xs.filter (fun x => since < x.clock) ≠ [] ↔ ∃ x ∈ xs, since < x.clock := by
    rw [ne_eq, List.filter_eq_nil_iff]
    simp
  by_cases hfail : ∃ x ∈ xs, x.failed = true
  · rw [probeVerdict_of_failed hfail]
    by_cases hl : ∃ x ∈ xs, x.failed = true ∧ since < x.clock
    · rw [probeVerdict_of_failed (hlater.mpr hl)]
      exact iff_of_true (fun _ => rfl) (Or.inl hl)
    · -- an earlier failure opens it, and no later one does
      refine iff_of_false (fun h => ?_) ?_
      · have hopen := (h nofun).symm
        by_cases hnil : xs.filter (fun x => since < x.clock) = []
        · rw [hnil, probeVerdict_nil] at hopen
          cases hopen
        · rw [probeVerdict_of_not_failed (mt hlater.mp hl) hnil] at hopen
          cases hopen
      · rintro (hex | ⟨hall, -⟩)
        · exact hl hex
        · obtain ⟨x, hx, hxf⟩ := hfail
          exact hl ⟨x, hx, hxf, hall x hx hxf⟩
  · have hall : ∀ x ∈ xs, x.failed = true → since < x.clock :=
      fun x hx hxf => absurd ⟨x, hx, hxf⟩ hfail
    have hnot : ¬ ∃ x ∈ xs.filter (fun x => since < x.clock), x.failed = true := by
      rintro ⟨x, hx, hxf⟩
      exact hfail ⟨x, List.mem_of_mem_filter hx, hxf⟩
    by_cases hnil : xs = []
    · subst hnil
      exact iff_of_true (fun _ => rfl) (Or.inr ⟨hall, Or.inr rfl⟩)
    · rw [probeVerdict_of_not_failed hfail hnil]
      by_cases hl : ∃ x ∈ xs, since < x.clock
      · rw [probeVerdict_of_not_failed hnot (hnonempty.mpr hl)]
        exact iff_of_true (fun _ => rfl) (Or.inr ⟨hall, Or.inl hl⟩)
      · -- earlier successes close it, and nothing came later
        refine iff_of_false (fun h => ?_) ?_
        · have hclosed := h nofun
          rw [not_not.mp (mt hnonempty.mp hl), probeVerdict_nil] at hclosed
          cases hclosed
        · rintro (⟨x, hx, -, hlt⟩ | ⟨-, hex | hnil'⟩)
          · exact hl ⟨x, hx, hlt⟩
          · exact hl hex
          · exact hnil hnil'

end Verdict

/-! ## 2. Runs -/

section Runs

variable (b : BreakerSet) (offset : ℚ)

/-- The outcomes that a refresh at `t` goes by for a breaker half open since `since`. -/
def BreakerSystem.probes (s : BreakerSystem) (t : ℚ) (cand : String × String) (since : ℚ) :
    List Sample :=
  b.storedIn s.history t cand (toInt since) (toInt (t + offset))

/-- The outcomes in the window of a refresh at `t`. -/
def BreakerSystem.inWindow (s : BreakerSystem) (t : ℚ) (cand : String × String) : List Sample :=
  b.storedIn s.history t cand (toInt (t + offset - b.windowS)) (toInt (t + offset))

/-- If the refresh moves a half-open candidate, then as the outcomes recorded after it went half
open decide. -/
def DecidedByLater (s : BreakerSystem) (e : BreakerEvent) : Prop :=
  match e.call with
  | .record _ _ => True
  | .refresh => ∀ cand since, s.stage cand = .halfOpen since →
    let now := e.time + offset
    let outcome := b.decidedStage s.redis e.time now s.snapshot cand
    outcome ≠ .halfOpen since → outcome = probeVerdict now since
      ((s.probes b offset e.time cand since).filter fun x => since < x.clock)

/-- At every half-open candidate the refresh finds a later failure; or no earlier failure, and a
later outcome or none at all. -/
def BoundaryClear (s : BreakerSystem) (e : BreakerEvent) : Prop :=
  match e.call with
  | .record _ _ => True
  | .refresh => ∀ cand since, s.stage cand = .halfOpen since →
    LaterDecide since (s.probes b offset e.time cand since)

variable {b offset} {s : BreakerSystem}

/-- **What the loop of a refresh goes by are the stored outcomes**, whatever the window and the
names. -/
theorem BreakerInv.decidedStage_stored (h : BreakerInv b offset s) {t : ℚ}
    {cand : String × String} (ht : s.clock ≤ t)
    (hthere : s.snapshot.get? cand = none → Addressable cand) :
    b.decidedStage s.redis t (t + offset) s.snapshot cand =
      b.decideStage (BreakerSet.tally (s.inWindow b offset t cand))
        (fun since => BreakerSet.tally (s.probes b offset t cand since)) (t + offset)
        (s.stage cand) := by
  have htimes : ∀ x ∈ s.history, x.time ≤ t := fun x hx => (h.times x hx).trans ht
  have hsum := BreakerSet.sumSamples_eq h.counted h.sorted htimes cand
  rw [BreakerSet.decidedStage_eq hthere]
  simp only [hsum]
  split
  · rename_i hkeys
    -- the window has no second, so nothing is stored
    have hneg : b.windowS < 0 := by
      by_contra hle
      refine BreakerSet.sampleKeys_ne_nil cand (toInt_mono ?_) hkeys
      linarith
    have httl := b.ttlS_nonpos (hneg.trans one_pos)
    have hnone : ∀ lo hi, b.storedIn s.history t cand lo hi = [] := by
      intro lo hi
      refine List.filter_eq_nil_iff.mpr fun x _ => ?_
      rw [decide_eq_true_eq]
      rintro ⟨-, -, y, hy, -, hlt⟩
      have hle := htimes y hy
      linarith
    simp only [BreakerSystem.inWindow, BreakerSystem.probes, hnone]
    exact (BreakerSet.decideStage_nothing _ _).symm
  · rfl

/-- What the loop of a refresh makes of a half-open candidate. -/
theorem BreakerInv.decided_halfOpen (h : BreakerInv b offset s) {t since : ℚ}
    {cand : String × String} (ht : s.clock ≤ t) (hstage : s.stage cand = .halfOpen since) :
    b.decidedStage s.redis t (t + offset) s.snapshot cand =
      probeVerdict (t + offset) since (s.probes b offset t cand since) := by
  have hthere : s.snapshot.get? cand = none → Addressable cand := by
    intro hnone
    rw [BreakerSystem.stage, Snapshot.stage, hnone] at hstage
    cases hstage
  rw [h.decidedStage_stored ht hthere, hstage, BreakerSet.decideStage_halfOpen]

/-- One refresh. -/
theorem BreakerInv.decided_step_iff (h : BreakerInv b offset s) {e : BreakerEvent}
    (ht : s.clock ≤ e.time) : DecidedByLater b offset s e ↔ BoundaryClear b offset s e := by
  obtain ⟨time, call⟩ := e
  cases call with
  | record cand failed => exact Iff.rfl
  | refresh =>
    refine forall_congr' fun cand => forall_congr' fun since => forall_congr' fun hstage => ?_
    simp only [h.decided_halfOpen ht hstage]
    exact probeVerdict_later_iff

/-- **Which runs decide half-open breakers by what was recorded since**: those in which no refresh
meets an earlier outcome of the boundary second that matters. -/
theorem decidedByLater_iff (b : BreakerSet) (offset : ℚ) (redis : Redis) (start : ℚ)
    (es : List BreakerEvent) (s : BreakerSystem) (hredis : redis.NoSamples)
    (hrun : Runs.run (BreakerSystem.step b offset offset) (.boot redis start) es = some s) :
    Runs.Along (BreakerSystem.step b offset offset) (DecidedByLater b offset) (.boot redis start) es ↔
      Runs.Along (BreakerSystem.step b offset offset) (BoundaryClear b offset) (.boot redis start)
        es := by
  have hone : ∀ before e after, es = before ++ e :: after → ∀ m,
      Runs.run (BreakerSystem.step b offset offset) (.boot redis start) before = some m →
        (DecidedByLater b offset m e ↔ BoundaryClear b offset m e) := by
    rintro before e after rfl m hm
    obtain ⟨m', hm', hrest⟩ := Runs.run_append_iff.mp hrun
    obtain rfl := Option.some.inj (hm.symm.trans hm')
    obtain ⟨m'', hstep, -⟩ := Runs.run_cons_iff.mp hrest
    exact (breakerInv_of_run hredis hm).decided_step_iff
      (BreakerSystem.step_eq_some_iff.mp hstep).1
  rw [Runs.along_iff, Runs.along_iff]
  constructor
  · exact fun h before e after hes m hm =>
      (hone before e after hes m hm).mp (h before e after hes m hm)
  · exact fun h before e after hes m hm =>
      (hone before e after hes m hm).mpr (h before e after hes m hm)

/-- The law, on a run that goes through all stages. -/
theorem decidedByLater_iff_roundTrip : ∃ s,
    Runs.run (BreakerSystem.step briefBreaker 0 0) (.boot Dict.empty 0) roundTripEvents = some s ∧
      (Runs.Along (BreakerSystem.step briefBreaker 0 0) (DecidedByLater briefBreaker 0)
          (.boot Dict.empty 0) roundTripEvents ↔
        Runs.Along (BreakerSystem.step briefBreaker 0 0) (BoundaryClear briefBreaker 0)
          (.boot Dict.empty 0) roundTripEvents) := by
  have hsome : (Runs.run (BreakerSystem.step briefBreaker 0 0) (.boot Dict.empty 0)
      roundTripEvents).isSome := by decide +kernel
  obtain ⟨s, hs⟩ := Option.isSome_iff_exists.mp hsome
  exact ⟨s, hs, decidedByLater_iff briefBreaker 0 Dict.empty 0 roundTripEvents s
    Redis.noSamples_empty hs⟩

/-! ## 3. A late success closes the breaker -/

/-- The breaker opens at 1/2 and goes half open at 153/5; a request in flight since then has
succeeded a fifth of a second earlier. -/
def lateSuccess : List BreakerEvent :=
  [⟨0, .record ("openai", "gpt-4o-mini") true⟩, ⟨1 / 2, .refresh⟩,
    ⟨152 / 5, .record ("openai", "gpt-4o-mini") false⟩, ⟨153 / 5, .refresh⟩]

/-- **The next refresh closes the breaker, with nothing recorded since.** -/
theorem lateSuccess_closes : ¬ ∀ (b : BreakerSet) (offset : ℚ) (redis : Redis) (start : ℚ)
    (es : List BreakerEvent) (s : BreakerSystem), redis.NoSamples →
    Runs.run (BreakerSystem.step b offset offset) (.boot redis start) es = some s →
      Runs.Along (BreakerSystem.step b offset offset) (DecidedByLater b offset) (.boot redis start)
        es := by
  intro h
  have hrun : (Runs.run (BreakerSystem.step promptBreaker 0 0) (.boot Dict.empty 0)
      lateSuccess).any (fun s =>
        ((s.step promptBreaker 0 0 ⟨158 / 5, .refresh⟩).isSome ∧
        s.stage ("openai", "gpt-4o-mini") = .halfOpen (153 / 5)) ∧
        promptBreaker.decidedStage s.redis (158 / 5) (158 / 5 + 0) s.snapshot
          ("openai", "gpt-4o-mini") = .closed ∧
        (s.probes promptBreaker 0 (158 / 5) ("openai", "gpt-4o-mini") (153 / 5)).filter
          (fun x => 153 / 5 < x.clock) = []) = true := by
    decide +kernel
  obtain ⟨s, hs, hend⟩ := (Option.any_eq_true _ _).mp hrun
  obtain ⟨⟨hnext, hstage⟩, hclosed, hnone⟩ := of_decide_eq_true hend
  obtain ⟨s', hs'⟩ := Option.isSome_iff_exists.mp hnext
  have hlast := Runs.along_iff.mp (h promptBreaker 0 Dict.empty 0
    (lateSuccess ++ [⟨158 / 5, .refresh⟩]) s' Redis.noSamples_empty
    (Runs.run_concat_iff.mpr ⟨s, hs, hs'⟩)) lateSuccess ⟨158 / 5, .refresh⟩ [] rfl s hs
  have hout := hlast ("openai", "gpt-4o-mini") (153 / 5) hstage
  simp only [hclosed, hnone, probeVerdict_nil] at hout
  cases hout nofun

end Runs

end Librouter
