/-
# The breaker as a state machine

`record_success`, `record_failure` and `refresh_snapshot` are called one after another, on a clock
that does not go backwards, for any number of candidates.  The system has two clocks beside Redis'
own time: that of the process that records and that of the process whose snapshot is refreshed.

Seen from one candidate the system is a small machine: its stage and its own outcomes, moved by its
own records and by the refreshes (`view_of_run`).  So no candidate disturbs another.  What the
machine does at a refresh is `RefreshLaw`, and `breaker_law` puts it together for whole runs.
-/
import Librouter.Breaker.Snapshot
import Librouter.Foundations.Runs

namespace Librouter

/-! ## 1. The system -/

/-- A call. -/
inductive BreakerCall
  /-- `record_success` or `record_failure` -/
  | record (cand : String × String) (failed : Bool)
  /-- `refresh_snapshot` -/
  | refresh

/-- A call and the time at which it is made. -/
structure BreakerEvent where
  time : ℚ
  call : BreakerCall

/-- The candidate that is recorded is one of these. -/
def BreakerEvent.Over (names : String × String → Prop) (e : BreakerEvent) : Prop :=
  match e.call with
  | .record cand _ => names cand
  | .refresh => True

/-- The event is a refresh, or records the candidate. -/
def BreakerEvent.concerns (cand : String × String) (e : BreakerEvent) : Bool :=
  match e.call with
  | .record cand' _ => cand' = cand
  | .refresh => true

/-- Redis, the snapshot of the process that reads, and the time. -/
structure BreakerSystem where
  redis : Redis
  snapshot : Snapshot := Dict.empty
  clock : ℚ
  /-- history: the recorded outcomes -/
  history : List Sample := []

namespace BreakerSystem

/-- No call has been made. -/
def boot (redis : Redis) (start : ℚ) : BreakerSystem where
  redis := redis
  clock := start

section Step

variable (b : BreakerSet) (writer reader : ℚ)

/-- A call; the clock of the process that records is `writer` ahead of Redis' time, that of the
process that refreshes is `reader` ahead. -/
def act (s : BreakerSystem) (time : ℚ) : BreakerCall → BreakerSystem
  | .record cand failed =>
    let x : Sample := ⟨time, time + writer, cand, failed⟩
    { s with redis := b.record s.redis x, history := s.history ++ [x] }
  | .refresh =>
    { s with snapshot := b.refreshSnapshot s.redis time (time + reader) s.snapshot }

/-- One event. -/
def step (s : BreakerSystem) (e : BreakerEvent) : Option BreakerSystem :=
  if s.clock ≤ e.time then some { s.act b writer reader e.time e.call with clock := e.time }
  else none

end Step

/-- The stage of a candidate. -/
def stage (s : BreakerSystem) (cand : String × String) : Stage := s.snapshot.stage cand

end BreakerSystem

/-! ## 2. The history is what Redis counts -/

/-- The invariant: the hashes count the history, which is in order and on one clock. -/
structure BreakerInv (b : BreakerSet) (writer : ℚ) (s : BreakerSystem) : Prop where
  counted : b.Counted s.redis s.history
  times : ∀ x ∈ s.history, x.time ≤ s.clock
  sorted : s.history.Pairwise fun x y => x.time ≤ y.time
  clocks : ∀ x ∈ s.history, x.clock = x.time + writer

section Invariant

variable {b : BreakerSet} {writer reader : ℚ} {s s' : BreakerSystem} {e : BreakerEvent}

theorem BreakerSystem.step_eq_some_iff :
    s.step b writer reader e = some s' ↔
      s.clock ≤ e.time ∧ s' = { s.act b writer reader e.time e.call with clock := e.time } := by
  rw [step, Option.ite_none_right_eq_some, Option.some.injEq, eq_comm]

theorem breakerInv_boot {redis : Redis} (hredis : redis.NoSamples) (start : ℚ) :
    BreakerInv b writer (.boot redis start) :=
  ⟨BreakerSet.counted_of_noSamples hredis, by simp [BreakerSystem.boot],
    by simp [BreakerSystem.boot], by simp [BreakerSystem.boot]⟩

/-- **Every event keeps it.** -/
theorem BreakerInv.step (h : BreakerInv b writer s)
    (hstep : s.step b writer reader e = some s') : BreakerInv b writer s' := by
  obtain ⟨hle, rfl⟩ := BreakerSystem.step_eq_some_iff.mp hstep
  obtain ⟨time, call⟩ := e
  have htimes : ∀ x ∈ s.history, x.time ≤ time := fun x hx => (h.times x hx).trans hle
  cases call with
  | refresh => exact ⟨h.counted, htimes, h.sorted, h.clocks⟩
  | record cand failed =>
    have hord : BreakerSet.Orderly s.history ⟨time, time + writer, cand, failed⟩ := by
      refine ⟨htimes, fun y hy hsec => ?_⟩
      have hlt := lt_add_two_of_toInt_le (le_of_eq hsec.symm)
      rw [h.clocks y hy] at hlt
      simp only at hlt ⊢
      linarith
    refine ⟨h.counted.record hord, ?_, ?_, ?_⟩
    · intro x hx
      rcases List.mem_append.mp hx with hx | hx
      · exact htimes x hx
      · rw [List.mem_singleton.mp hx]
    · refine List.pairwise_append.mpr ⟨h.sorted, List.pairwise_singleton _ _, fun x hx y hy => ?_⟩
      rw [List.mem_singleton.mp hy]
      exact htimes x hx
    · intro x hx
      rcases List.mem_append.mp hx with hx | hx
      · exact h.clocks x hx
      · rw [List.mem_singleton.mp hx]

theorem breakerInv_of_run {redis : Redis} {start : ℚ} {es : List BreakerEvent}
    (hredis : redis.NoSamples)
    (hrun : Runs.run (BreakerSystem.step b writer reader) (.boot redis start) es = some s) :
    BreakerInv b writer s :=
  Runs.invariant_along _ (fun _ s => BreakerInv b writer s) (breakerInv_boot hredis start)
    (fun _ _ _ _ h _ hstep => h.step hstep) hrun (Runs.along_true es _)

/-- Only what is recorded is in the history. -/
theorem BreakerSystem.names_step {names : String × String → Prop}
    (h : ∀ x ∈ s.history, names x.cand) (he : e.Over names)
    (hstep : s.step b writer reader e = some s') : ∀ x ∈ s'.history, names x.cand := by
  obtain ⟨-, rfl⟩ := BreakerSystem.step_eq_some_iff.mp hstep
  obtain ⟨time, call⟩ := e
  cases call with
  | refresh => exact h
  | record cand failed =>
    intro x hx
    rcases List.mem_append.mp hx with hx | hx
    · exact h x hx
    · rw [List.mem_singleton.mp hx]
      exact he

theorem BreakerSystem.names_of_run {names : String × String → Prop} {redis : Redis} {start : ℚ}
    {es : List BreakerEvent} (hes : ∀ e ∈ es, e.Over names)
    (hrun : Runs.run (BreakerSystem.step b writer reader) (.boot redis start) es = some s) :
    ∀ x ∈ s.history, names x.cand :=
  Runs.invariant_along (fun _ e => e.Over names) (fun _ s => ∀ x ∈ s.history, names x.cand)
    (by simp [BreakerSystem.boot]) (fun _ _ _ _ h he hstep => BreakerSystem.names_step h he hstep)
    hrun (Runs.along_of_forall es _ hes)

end Invariant

/-! ## 3. What a refresh goes by -/

namespace BreakerSet

variable (b : BreakerSet)

/-- The outcomes of a candidate in the seconds `int(now - window_s)..int(now)`. -/
def windowSamples (history : List Sample) (cand : String × String) (now : ℚ) : List Sample :=
  history.filter fun x =>
    x.cand = cand ∧ toInt (now - b.windowS) ≤ x.second ∧ x.second ≤ toInt now

/-- The stored outcomes of a candidate in the seconds from `int(since)` on. -/
def samplesSince (history : List Sample) (t : ℚ) (cand : String × String) (since : ℚ) :
    List Sample :=
  history.filter fun x => x.cand = cand ∧ toInt since ≤ x.second ∧ b.Stored history t x

/-- What a refresh makes of a stage, in its loop. -/
def decided (history : List Sample) (t now : ℚ) (cand : String × String) (stage : Stage) : Stage :=
  b.decideStage (tally (b.windowSamples history cand now))
    (fun since => tally (b.samplesSince history t cand since)) now stage

variable {b} {history : List Sample} {t : ℚ} {cand : String × String} {offset : ℚ}

theorem countsFor_iff {x : Sample} (hx : Addressable x.cand) (hcand : Addressable cand) :
    x.CountsFor cand ↔ x.cand = cand :=
  ⟨fun h => hx.eq_of_stem hcand h, fun h => congrArg sampleStem h⟩

/-- In a window of one second or more everything is still stored. -/
theorem storedIn_window (hw : 1 ≤ b.windowS) (hclocks : ∀ x ∈ history, x.clock = x.time + offset)
    (hnames : ∀ x ∈ history, Addressable x.cand) (hcand : Addressable cand) :
    b.storedIn history t cand (toInt (t + offset - b.windowS)) (toInt (t + offset)) =
      b.windowSamples history cand (t + offset) := by
  refine List.filter_congr fun x hx => decide_eq_decide.mpr ?_
  rw [countsFor_iff (hnames x hx) hcand]
  refine and_congr_right fun _ => and_iff_left_of_imp fun hsec => ?_
  have hlt := lt_add_two_of_toInt_le hsec.1
  have hlong := b.window_lt_ttlS hw
  rw [hclocks x hx] at hlt
  exact ⟨x, hx, ⟨rfl, rfl⟩, by linarith⟩

/-- No outcome lies in a second after the present one. -/
theorem second_le (hclocks : ∀ x ∈ history, x.clock = x.time + offset)
    (htimes : ∀ x ∈ history, x.time ≤ t) {x : Sample} (hx : x ∈ history) :
    x.second ≤ toInt (t + offset) := by
  refine toInt_mono ?_
  rw [hclocks x hx]
  have hle := htimes x hx
  linarith

theorem storedIn_since (hclocks : ∀ x ∈ history, x.clock = x.time + offset)
    (htimes : ∀ x ∈ history, x.time ≤ t) (hnames : ∀ x ∈ history, Addressable x.cand)
    (hcand : Addressable cand) (since : ℚ) :
    b.storedIn history t cand (toInt since) (toInt (t + offset)) =
      b.samplesSince history t cand since := by
  refine List.filter_congr fun x hx => decide_eq_decide.mpr ?_
  have hle := second_le hclocks htimes hx
  rw [countsFor_iff (hnames x hx) hcand]
  simp [hle]

theorem sampleKeys_ne_nil (cand : String × String) {lo hi : ℤ} (h : lo ≤ hi) :
    sampleKeys cand lo hi ≠ [] := by
  intro hnil
  have hmem : lo ∈ intRange lo (hi + 1) := mem_intRange.mpr ⟨le_refl _, by omega⟩
  rw [List.map_eq_nil_iff.mp hnil] at hmem
  cases hmem

end BreakerSet

section Decided

variable {b : BreakerSet} {offset : ℚ} {s s' : BreakerSystem} {t : ℚ} {cand : String × String}

/-- **The loop of a refresh goes by the outcomes of the window and by those since the half-open
second.** -/
theorem BreakerInv.decidedStage (h : BreakerInv b offset s)
    (hnames : ∀ x ∈ s.history, Addressable x.cand) (hw : 1 ≤ b.windowS) (ht : s.clock ≤ t)
    (hcand : Addressable cand) :
    b.decidedStage s.redis t (t + offset) s.snapshot cand =
      b.decided s.history t (t + offset) cand (s.stage cand) := by
  have htimes : ∀ x ∈ s.history, x.time ≤ t := fun x hx => (h.times x hx).trans ht
  have hkeys := BreakerSet.sampleKeys_ne_nil cand
    (toInt_mono (show t + offset - b.windowS ≤ t + offset by linarith))
  have hsum := BreakerSet.sumSamples_eq h.counted h.sorted htimes cand
  rw [BreakerSet.decidedStage_eq fun _ => hcand, if_neg hkeys]
  simp only [hsum, BreakerSet.storedIn_window hw h.clocks hnames hcand,
    BreakerSet.storedIn_since h.clocks htimes hnames hcand]
  rfl

/-- A refresh, as the candidate sees it. -/
theorem BreakerInv.stage_refresh (h : BreakerInv b offset s)
    (hnames : ∀ x ∈ s.history, Addressable x.cand) (hw : 1 ≤ b.windowS)
    (hcand : Addressable cand) (hstep : s.step b offset offset ⟨t, .refresh⟩ = some s') :
    s'.stage cand =
      b.wakeStage (t + offset) (b.decided s.history t (t + offset) cand (s.stage cand)) := by
  obtain ⟨hle, rfl⟩ := BreakerSystem.step_eq_some_iff.mp hstep
  rw [← h.decidedStage hnames hw hle hcand]
  exact BreakerSet.stage_refreshSnapshot _ _ _ _ _

/-- A record changes no stage. -/
theorem BreakerSystem.stage_record {writer reader : ℚ} {cand' : String × String} {failed : Bool}
    (hstep : s.step b writer reader ⟨t, .record cand' failed⟩ = some s') :
    s'.stage cand = s.stage cand := by
  obtain ⟨-, rfl⟩ := BreakerSystem.step_eq_some_iff.mp hstep
  rfl

end Decided

/-! ## 4. The machine of one candidate -/

/-- What a candidate sees of the system. -/
@[ext] structure CandidateView where
  stage : Stage
  samples : List Sample

/-- Nothing recorded, and closed. -/
def CandidateView.initial : CandidateView := ⟨.closed, []⟩

/-- An event that concerns the candidate. -/
def BreakerSet.viewNext (b : BreakerSet) (offset : ℚ) (cand : String × String) (v : CandidateView)
    (e : BreakerEvent) : CandidateView :=
  match e.call with
  | .record _ failed =>
    { v with samples := v.samples ++ [⟨e.time, e.time + offset, cand, failed⟩] }
  | .refresh =>
    let now := e.time + offset
    { v with stage := b.wakeStage now (b.decided v.samples e.time now cand v.stage) }

/-- What the candidate sees. -/
def BreakerSystem.view (s : BreakerSystem) (cand : String × String) : CandidateView :=
  ⟨s.stage cand, s.history.filter fun x => x.cand = cand⟩

section View

variable {b : BreakerSet} {offset : ℚ} {s s' : BreakerSystem} {e : BreakerEvent}
  {cand : String × String}

/-- The own outcomes decide. -/
theorem BreakerSet.decided_filter {history : List Sample}
    (hnames : ∀ x ∈ history, Addressable x.cand) (hcand : Addressable cand) (t now : ℚ)
    (stage : Stage) :
    b.decided (history.filter fun x => x.cand = cand) t now cand stage =
      b.decided history t now cand stage := by
  have hwindow : b.windowSamples (history.filter fun x => x.cand = cand) cand now =
      b.windowSamples history cand now := by
    rw [windowSamples, List.filter_filter]
    refine List.filter_congr fun x _ => ?_
    by_cases hx : x.cand = cand <;> simp [hx]
  have hstored : ∀ x : Sample, x.cand = cand →
      (b.Stored (history.filter fun x => x.cand = cand) t x ↔ b.Stored history t x) := by
    intro x hx
    constructor
    · rintro ⟨y, hy, hxy, hlt⟩
      exact ⟨y, List.mem_of_mem_filter hy, hxy, hlt⟩
    · rintro ⟨y, hy, hxy, hlt⟩
      have hyc : y.cand = cand := (countsFor_iff (hnames y hy) hcand).mp (hx ▸ hxy.1)
      exact ⟨y, List.mem_filter.mpr ⟨hy, decide_eq_true hyc⟩, hxy, hlt⟩
  have hsince : ∀ since, b.samplesSince (history.filter fun x => x.cand = cand) t cand since =
      b.samplesSince history t cand since := by
    intro since
    rw [samplesSince, List.filter_filter]
    refine List.filter_congr fun x _ => ?_
    by_cases hx : x.cand = cand
    · simp [hx, hstored x hx]
    · simp [hx]
  simp only [decided, hwindow, hsince]

/-- An event moves the machine of the candidate that it concerns, and no other. -/
theorem BreakerInv.view_step (h : BreakerInv b offset s)
    (hnames : ∀ x ∈ s.history, Addressable x.cand) (hw : 1 ≤ b.windowS)
    (hcand : Addressable cand) (hstep : s.step b offset offset e = some s') :
    s'.view cand =
      if e.concerns cand then b.viewNext offset cand (s.view cand) e else s.view cand := by
  obtain ⟨time, call⟩ := e
  cases call with
  | refresh =>
    have hstage := h.stage_refresh hnames hw hcand hstep
    obtain ⟨-, rfl⟩ := BreakerSystem.step_eq_some_iff.mp hstep
    refine CandidateView.ext ?_ rfl
    rw [BreakerSystem.view, hstage, ← BreakerSet.decided_filter hnames hcand]
    rfl
  | record cand' failed =>
    obtain ⟨-, rfl⟩ := BreakerSystem.step_eq_some_iff.mp hstep
    by_cases hc : cand' = cand
    · subst hc
      simp [BreakerSystem.view, BreakerSystem.stage, BreakerEvent.concerns, BreakerSet.viewNext,
        BreakerSystem.act]
    · simp [BreakerSystem.view, BreakerSystem.stage, BreakerEvent.concerns, BreakerSystem.act, hc]

/-- **The system refines the machines of its candidates**: each of them runs on the events that
concern it. -/
theorem view_of_run {redis : Redis} {start : ℚ} {es : List BreakerEvent}
    (hredis : redis.NoSamples) (hw : 1 ≤ b.windowS) (hes : ∀ e ∈ es, e.Over Addressable)
    (hrun : Runs.run (BreakerSystem.step b offset offset) (.boot redis start) es = some s)
    (hcand : Addressable cand) :
    s.view cand = (es.filter (BreakerEvent.concerns cand)).foldl (b.viewNext offset cand)
      CandidateView.initial := by
  have hall := Runs.invariant_along (fun _ e => e.Over Addressable)
    (fun es s => BreakerInv b offset s ∧ (∀ x ∈ s.history, Addressable x.cand) ∧ s.view cand =
      (es.filter (BreakerEvent.concerns cand)).foldl (b.viewNext offset cand)
        CandidateView.initial)
    ⟨breakerInv_boot hredis start, by simp [BreakerSystem.boot], rfl⟩ ?_ hrun
    (Runs.along_of_forall es _ hes)
  · exact hall.2.2
  · rintro es s e s' ⟨hinv, hnames, hview⟩ he hstep
    refine ⟨hinv.step hstep, BreakerSystem.names_step hnames he hstep, ?_⟩
    rw [hinv.view_step hnames hw hcand hstep, hview, List.filter_append, List.foldl_append]
    cases hc : e.concerns cand <;> simp [hc]

end View

/-! ## 5. What a refresh does to a stage -/

/-- One refresh at `now`, as one candidate sees it: its stage before, after the loop, and after the
time-driven pass. -/
structure RefreshLaw (b : BreakerSet) (now : ℚ) (window : List Sample) (since : ℚ → List Sample)
    (before looped after : Stage) : Prop where
  /-- one of the two passes changes nothing -/
  once : looped = before ∨ after = looped
  closed : before = .closed →
    after = if b.minSamples ≤ window.length ∧
        b.failureThreshold ≤ (window.countP Sample.failed : ℚ) / window.length
      then .opened now else .closed
  opened : ∀ t, before = .opened t →
    after = if b.openDurationS ≤ now - t then .halfOpen now else .opened t
  halfOpen : ∀ t, before = .halfOpen t →
    after = .halfOpen t ∨ (after = .opened now ∨ after = .closed) ∧ since t ≠ []
  reopened : ∀ t, before = .halfOpen t → (∃ x ∈ since t, x.failed = true) → after = .opened now

namespace BreakerSet

variable {b : BreakerSet}

theorem trips_tally_iff {xs : List Sample} :
    b.Trips (tally xs) ↔ b.minSamples ≤ xs.length ∧
      b.failureThreshold ≤ (xs.countP Sample.failed : ℚ) / xs.length := by
  have htotal : (tally xs).1 + (tally xs).2 = (xs.length : ℤ) := by
    have hsplit := List.length_eq_countP_add_countP (p := Sample.failed) (l := xs)
    simp only [tally, hsplit]
    push_cast
    simp [add_comm]
  rw [Trips, htotal]
  simp [tally]

/-- The law, for a candidate that is closed... -/
theorem refreshLaw_closed {now : ℚ} {window : List Sample} {since : ℚ → List Sample}
    {looped after : Stage} (honce : looped = .closed ∨ after = looped)
    (hafter : after = if b.minSamples ≤ window.length ∧
        b.failureThreshold ≤ (window.countP Sample.failed : ℚ) / window.length
      then .opened now else .closed) :
    RefreshLaw b now window since .closed looped after where
  once := honce
  closed _ := hafter
  opened t h := by cases h
  halfOpen t h := by cases h
  reopened t h := by cases h

/-- ...for one that is half open. -/
theorem refreshLaw_halfOpen {now t : ℚ} {window : List Sample} {since : ℚ → List Sample}
    {looped after : Stage} (honce : looped = .halfOpen t ∨ after = looped)
    (hafter : after = .halfOpen t ∨ (after = .opened now ∨ after = .closed) ∧ since t ≠ [])
    (hfailed : (∃ x ∈ since t, x.failed = true) → after = .opened now) :
    RefreshLaw b now window since (.halfOpen t) looped after where
  once := honce
  closed h := by cases h
  opened t h := by cases h
  halfOpen t h := by
    cases h
    exact hafter
  reopened t h := by
    cases h
    exact hfailed

/-- The two passes, on any outcomes. -/
theorem refreshLaw (hopen : 0 < b.openDurationS) (now : ℚ) (window : List Sample)
    (since : ℚ → List Sample) (before : Stage) :
    RefreshLaw b now window since before
      (b.decideStage (tally window) (fun t => tally (since t)) now before)
      (b.wakeStage now (b.decideStage (tally window) (fun t => tally (since t)) now before)) := by
  -- what has just been opened is not due at once
  have hnow : b.wakeStage now (.opened now) = .opened now := by
    refine if_neg ?_
    rw [sub_self]
    exact hopen.not_ge
  cases before with
  | closed =>
    by_cases htrips : b.Trips (tally window)
    · simp only [decideStage, if_pos htrips, hnow]
      exact refreshLaw_closed (Or.inr rfl) (if_pos (trips_tally_iff.mp htrips)).symm
    · simp only [decideStage, if_neg htrips, wakeStage]
      exact refreshLaw_closed (Or.inl rfl) (if_neg (mt trips_tally_iff.mpr htrips)).symm
  | opened t =>
    refine ⟨Or.inl rfl, fun h => ?_, fun t' h => ?_, fun t' h => ?_, fun t' h => ?_⟩
    · cases h
    · cases h
      rfl
    · cases h
    · cases h
  | halfOpen t =>
    by_cases hfail : 0 < (tally (since t)).2
    · obtain ⟨x, hx, -⟩ := tally_snd_pos_iff.mp hfail
      simp only [decideStage, if_pos hfail, hnow]
      exact refreshLaw_halfOpen (Or.inr rfl) (Or.inr ⟨Or.inl rfl, List.ne_nil_of_mem hx⟩)
        fun _ => rfl
    · have hnone : ¬ ∃ x ∈ since t, x.failed = true := mt tally_snd_pos_iff.mpr hfail
      by_cases hsucc : 0 < (tally (since t)).1
      · obtain ⟨x, hx, -⟩ := tally_fst_pos_iff.mp hsucc
        simp only [decideStage, if_neg hfail, if_pos hsucc, wakeStage]
        exact refreshLaw_halfOpen (Or.inr rfl) (Or.inr ⟨Or.inr rfl, List.ne_nil_of_mem hx⟩)
          fun hex => absurd hex hnone
      · simp only [decideStage, if_neg hfail, if_neg hsucc, wakeStage]
        exact refreshLaw_halfOpen (Or.inl rfl) (Or.inl rfl) fun hex => absurd hex hnone

end BreakerSet

/-- A breaker leaves the open stage only when its time is up. -/
theorem open_period {b : BreakerSet} {writer reader : ℚ} {s s' : BreakerSystem}
    {es : List BreakerEvent} {cand : String × String} {openedAt : ℚ} (hcand : Addressable cand)
    (hopened : s.stage cand = .opened openedAt)
    (hrun : Runs.run (BreakerSystem.step b writer reader) s es = some s') :
    s'.stage cand = .opened openedAt ∨ openedAt + b.openDurationS ≤ s'.clock + reader := by
  refine Runs.invariant_along _ (fun _ s' => s'.stage cand = .opened openedAt ∨
    openedAt + b.openDurationS ≤ s'.clock + reader) (Or.inl hopened) ?_ hrun
    (Runs.along_true es _)
  rintro _ s ⟨time, call⟩ s' hstage - hstep
  obtain ⟨hclock, rfl⟩ := BreakerSystem.step_eq_some_iff.mp hstep
  rcases hstage with hstage | hdue
  · cases call with
    | record cand' failed => exact Or.inl hstage
    | refresh =>
      have hnext : (b.refreshSnapshot s.redis time (time + reader) s.snapshot).stage cand =
          b.wakeStage (time + reader) (.opened openedAt) := by
        rw [BreakerSet.stage_refreshSnapshot, BreakerSet.decidedStage_eq fun _ => hcand,
          show s.snapshot.stage cand = .opened openedAt from hstage]
        split <;> rfl
      by_cases hdue : b.openDurationS ≤ time + reader - openedAt
      · right
        simp only
        linarith
      · exact Or.inl (hnext.trans (if_neg hdue))
  · right
    simp only at hclock ⊢
    linarith

/-! ## 6. Whole runs -/

/-- The breaker after a run of plainly named candidates. -/
structure BreakerLaw (b : BreakerSet) (offset : ℚ) (redis : Redis) (start : ℚ)
    (es : List BreakerEvent) (s : BreakerSystem) : Prop where
  /-- what the next refresh does to every candidate -/
  refreshes : ∀ t s', s.step b offset offset ⟨t, .refresh⟩ = some s' → ∀ cand, PlainName cand →
    RefreshLaw b (t + offset) (b.windowSamples s.history cand (t + offset))
      (b.samplesSince s.history t cand) (s.stage cand)
      (b.decidedStage s.redis t (t + offset) s.snapshot cand) (s'.stage cand)
  /-- a record changes no stage -/
  records : ∀ t cand' failed s', s.step b offset offset ⟨t, .record cand' failed⟩ = some s' →
    ∀ cand, s'.stage cand = s.stage cand
  /-- every open period lasts -/
  periods : ∀ es' s' cand openedAt, PlainName cand →
    Runs.run (BreakerSystem.step b offset offset) s es' = some s' →
    s.stage cand = .opened openedAt → s'.stage cand ≠ .opened openedAt →
      openedAt + b.openDurationS ≤ s'.clock + offset
  /-- what does not concern a candidate leaves no trace in its stage -/
  isolated : ∀ es' s' cand, PlainName cand → (∀ e ∈ es', e.Over PlainName) →
    Runs.run (BreakerSystem.step b offset offset) (.boot redis start) es' = some s' →
    es'.filter (BreakerEvent.concerns cand) = es.filter (BreakerEvent.concerns cand) →
      s'.stage cand = s.stage cand

theorem BreakerEvent.Over.addressable {e : BreakerEvent} (h : e.Over PlainName) :
    e.Over Addressable := by
  obtain ⟨time, call⟩ := e
  cases call with
  | record cand failed => exact PlainName.addressable h
  | refresh => trivial

/-- **The breaker state machine.**  After every run of records and refreshes of any plainly named
candidates. -/
theorem breaker_law (b : BreakerSet) (offset : ℚ) (redis : Redis) (start : ℚ)
    (es : List BreakerEvent) (s : BreakerSystem) (hredis : redis.NoSamples)
    (hwindow : 1 ≤ b.windowS) (hopen : 0 < b.openDurationS) (hes : ∀ e ∈ es, e.Over PlainName)
    (hrun : Runs.run (BreakerSystem.step b offset offset) (.boot redis start) es = some s) :
    BreakerLaw b offset redis start es s := by
  have hes' : ∀ e ∈ es, e.Over Addressable := fun e he => (hes e he).addressable
  have hinv := breakerInv_of_run hredis hrun
  have hnames := BreakerSystem.names_of_run hes' hrun
  constructor
  · intro t s' hstep cand hcand
    have hle := (BreakerSystem.step_eq_some_iff.mp hstep).1
    rw [hinv.stage_refresh hnames hwindow hcand.addressable hstep,
      hinv.decidedStage hnames hwindow hle hcand.addressable]
    exact BreakerSet.refreshLaw hopen _ _ _ _
  · exact fun t cand' failed s' hstep cand => BreakerSystem.stage_record hstep
  · intro es₂ s' cand openedAt hcand hrun₂ hopened hleft
    exact (open_period hcand.addressable hopened hrun₂).resolve_left hleft
  · intro es₂ s' cand hcand hes₂ hrun₂ hsame
    have hview := view_of_run hredis hwindow hes' hrun hcand.addressable
    have hview₂ := view_of_run hredis hwindow (fun e he => (hes₂ e he).addressable) hrun₂
      hcand.addressable
    rw [hsame, ← hview] at hview₂
    exact congrArg CandidateView.stage hview₂

/-- A breaker that trips on one failure, stays open for a second and closes on one success. -/
def briefBreaker : BreakerSet where
  windowS := 1
  minSamples := 1
  openDurationS := 1

/-- The knobs of `BreakerSet`, but a single sample is enough. -/
def promptBreaker : BreakerSet where
  minSamples := 1

/-- It opens, goes half open, and closes. -/
def roundTripEvents : List BreakerEvent :=
  [⟨0, .record ("openai", "gpt-4o-mini") true⟩, ⟨1 / 2, .refresh⟩, ⟨3 / 2, .refresh⟩,
    ⟨5 / 2, .record ("openai", "gpt-4o-mini") false⟩, ⟨3, .refresh⟩]

theorem plainName_gpt : PlainName ("openai", "gpt-4o-mini") :=
  ⟨by decide, by decide⟩

/-- The law, on that run. -/
theorem breaker_law_roundTrip : ∃ s,
    Runs.run (BreakerSystem.step briefBreaker 0 0) (.boot Dict.empty 0) roundTripEvents = some s ∧
      s.stage ("openai", "gpt-4o-mini") = .closed ∧
      BreakerLaw briefBreaker 0 Dict.empty 0 roundTripEvents s := by
  have hrun : (Runs.run (BreakerSystem.step briefBreaker 0 0) (.boot Dict.empty 0)
      roundTripEvents).any (fun s => s.stage ("openai", "gpt-4o-mini") = .closed) = true := by
    decide +kernel
  obtain ⟨s, hs, hstage⟩ := (Option.any_eq_true _ _).mp hrun
  refine ⟨s, hs, of_decide_eq_true hstage, breaker_law briefBreaker 0 Dict.empty 0 roundTripEvents s
    Redis.noSamples_empty (by norm_num [briefBreaker]) (by norm_num [briefBreaker]) ?_ hs⟩
  intro e he
  fin_cases he <;> first | exact plainName_gpt | trivial

end Librouter
