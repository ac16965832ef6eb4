/-
# What routed traffic does to the breakers

Nothing.  `Router.route` reports its outcomes to the `Observer`; no one in the wired app calls
`BreakerSet.record_success` or `record_failure`, so the `SCAN` for sample keys never finds one, the
snapshot stays empty and every candidate counts as `CLOSED` at every tick (`untripped_of_run`).  So
the breaker follows the traffic exactly as long as the traffic asks nothing of it
(`breakerFollows_iff`).
-/
import Librouter.App.Wiring
import Librouter.Foundations.Runs

namespace Librouter

/-! ## 1. What the breaker should do -/

/-- A retryable error. -/
def RoutedOutcome.isRetryableFailure (o : RoutedOutcome) : Bool :=
  match o.reply with
  | .ok _ => false
  | .error e => !e.nonRetryable

namespace BreakerSet

variable (b : BreakerSet)

/-- The outcomes of a candidate in the last `window_s` seconds. -/
def inWindow (outcomes : List RoutedOutcome) (cand : CandidateRef) (now : ℚ) : List RoutedOutcome :=
  outcomes.filter fun o => o.cand = cand ∧ now - b.windowS ≤ o.time ∧ o.time ≤ now

/-- There are enough of them, and enough of these are retryable failures. -/
def Tripping (outcomes : List RoutedOutcome) (cand : CandidateRef) (now : ℚ) : Prop :=
  let recent := b.inWindow outcomes cand now
  b.minSamples ≤ recent.length ∧
    b.failureThreshold ≤ (recent.countP RoutedOutcome.isRetryableFailure : ℚ) / recent.length

instance (outcomes : List RoutedOutcome) (cand : CandidateRef) (now : ℚ) :
    Decidable (b.Tripping outcomes cand now) :=
  inferInstanceAs (Decidable (_ ∧ _))

end BreakerSet

namespace App

variable (app : App)

/-- A tick that starts in `s₀`, at `now`, and is over in `s₁`; the next one has not started. -/
def TickOf (now : ℚ) (s₀ s₁ : AppState) : Prop :=
  ∃ es, Runs.run app.step s₀ (⟨now, .tick⟩ :: es) = some s₁ ∧ s₁.refresh.isIdle = true ∧
    ∀ e ∈ es, e.action ≠ .tick ∧ e.action ≠ .tickFails

/-- The breaker of a candidate is open in `s₁`, and the candidate is not picked until
`open_duration_s` after `now`. -/
def Tripped (now : ℚ) (cand : CandidateRef) (s₁ : AppState) : Prop :=
  (s₁.refresh.cache.get? cand).map CandidateSignals.breaker = some .opened ∧
    ∀ es s₂, Runs.run app.step s₁ es = some s₂ → s₂.clock < now + breakers.openDurationS →
      ∀ cands exclude draw, (app.engine s₂).pick cands exclude draw ≠ some cand

/-- At a tick that finds a closed breaker, the breaker follows the outcomes of `route`. -/
def BreakerFollows (now : ℚ) (cand : CandidateRef) (s₀ s₁ : AppState) : Prop :=
  breakers.Tripping s₀.outcomes cand now →
    s₀.refresh.snapshot.state cand.provider cand.model = .closed → app.Tripped now cand s₁

end App

/-! ## 2. The invariant -/

/-- Every breaker of the signals is closed. -/
def AllClosed (signals : Dict CandidateRef CandidateSignals) : Prop :=
  ∀ cand s, signals.get? cand = some s → s.breaker = .closed

theorem allClosed_empty : AllClosed Dict.empty := nofun

theorem AllClosed.set {signals : Dict CandidateRef CandidateSignals} (h : AllClosed signals)
    (cand : CandidateRef) {s : CandidateSignals} (hs : s.breaker = .closed) :
    AllClosed (signals.set cand s) := by
  intro cand' s' hget
  rw [Dict.get?_set] at hget
  split at hget
  · cases hget
    exact hs
  · exact h cand' s' hget

/-- No breaker has ever left `CLOSED`, and the tick in progress will not change that. -/
structure RefreshState.Untripped (s : RefreshState) : Prop where
  snapshot : s.snapshot = Dict.empty
  cache : AllClosed s.cache
  tick : match s.pc with
    | .idle => True
    | .seeding _ => True
    | .sampling .. => False
    | .probing .. => False
    | .aggregating _ _ out => AllClosed out
    | .budgeting _ _ _ out => AllClosed out
    | .stating _ _ _ _ _ out => AllClosed out

namespace RefreshState.Untripped

variable {s s' : RefreshState}

theorem nextCandidate (hsnapshot : s.snapshot = Dict.empty) (hcache : AllClosed s.cache)
    (pending : List RatedCandidate) {out : Dict CandidateRef CandidateSignals}
    (hout : AllClosed out) : (RefreshTask.nextCandidate s pending out).Untripped := by
  cases pending with
  | nil => exact ⟨hsnapshot, hout, trivial⟩
  | cons cand rest => exact ⟨hsnapshot, hcache, hout⟩

theorem start {nowS : ℚ} (h : s.Untripped) (hstart : RefreshTask.start nowS s = some s') :
    s'.Untripped := by
  unfold RefreshTask.start at hstart
  split at hstart <;> cases hstart
  exact ⟨h.snapshot, h.cache, trivial⟩

theorem abort (h : s.Untripped) (habort : RefreshTask.abort s = some s') : s'.Untripped := by
  unfold RefreshTask.abort at habort
  split at habort <;> cases habort
  exact ⟨h.snapshot, h.cache, trivial⟩

/-- **A command of a tick on a Redis without samples.** -/
theorem step {task : RefreshTask} {r r' : Redis} {nowS : ℚ} (h : s.Untripped) (hr : r.NoSamples)
    (hstep : task.step r nowS s = some (r', s')) : s'.Untripped ∧ r'.NoSamples := by
  obtain ⟨hsnapshot, hcache, htick⟩ := h
  unfold RefreshTask.step at hstep
  split at hstep
  · cases hstep
  · -- no candidate has samples: the snapshot is swapped for an empty one
    cases hstep
    simp only [hsnapshot, Snapshot.seed_of_noSamples hr, BreakerSet.enumerateSampleKeys_empty]
    exact ⟨nextCandidate (s := { s with snapshot := Dict.empty }) rfl hcache _ allClosed_empty, hr⟩
  · rename_i hpc
    rw [hpc] at htick
    exact htick.elim
  · rename_i hpc
    rw [hpc] at htick
    exact htick.elim
  · rename_i hpc
    rw [hpc] at htick
    cases hstep
    exact ⟨⟨hsnapshot, hcache, htick⟩, hr⟩
  · rename_i hpc
    rw [hpc] at htick
    split at hstep <;> cases hstep
    obtain ⟨-, -, rfl, -⟩ := RedisTokenBucket.remainingAt_ok ‹_›
    exact ⟨⟨hsnapshot, hcache, htick⟩, hr.set (isSampleKey_bucketKey _ _) _⟩
  · rename_i hpc
    rw [hpc] at htick
    cases hstep
    simp only [hsnapshot, Snapshot.seed_of_noSamples hr, Snapshot.state_empty]
    exact ⟨nextCandidate (s := { s with snapshot := Dict.empty }) rfl hcache _ (htick.set _ rfl), hr⟩

end RefreshState.Untripped

/-- The whole app: Redis has no samples, and the refresh task has seen none. -/
structure AppState.Untripped (s : AppState) : Prop where
  redis : s.redis.NoSamples
  refresh : s.refresh.Untripped

/-- `route` writes to buckets and observations only. -/
theorem App.noSamples_routeAnswer {app : App} {s : AppState} {now : ℚ} {t : RouteTask}
    {answer : Answer} {r : Redis} {event : RouteEvent} (h : s.redis.NoSamples)
    (hanswer : app.routeAnswer s now t answer = some (r, event)) : r.NoSamples := by
  unfold routeAnswer at hanswer
  split at hanswer
  · split at hanswer <;> cases hanswer
    · obtain ⟨-, -, rfl, -⟩ := RedisTokenBucket.acquireAt_ok ‹_›
      exact h.set (isSampleKey_bucketKey _ _) _
    · exact h
  · cases hanswer
    exact h
  · cases hanswer
    exact h.set (isSampleKey_observeKey _ _ _) _
  · cases hanswer
    exact h.set (isSampleKey_observeKey _ _ _) _
  · cases hanswer
    exact h
  · cases hanswer

theorem App.noSamples_chatAnswer {app : App} {s : AppState} {now : ℚ} {c : ChatTask}
    {answer : Answer} {r : Redis} {event : ChatEvent} (h : s.redis.NoSamples)
    (hanswer : app.chatAnswer s now c answer = some (r, event)) : r.NoSamples := by
  unfold chatAnswer at hanswer
  split at hanswer
  · obtain ⟨⟨r', e⟩, ha, heq⟩ := Option.map_eq_some_iff.mp hanswer
    cases heq
    exact noSamples_routeAnswer h ha
  all_goals cases hanswer
  all_goals exact h

namespace AppState.Untripped

variable {app : App} {s s' : AppState}

theorem stepRequest {now : ℚ} {i : ℕ} {answer : Answer} (h : s.Untripped)
    (hstep : app.stepRequest s now i answer = some s') : s'.Untripped := by
  obtain ⟨c, -, hstep⟩ := Option.bind_eq_some_iff.mp hstep
  obtain ⟨⟨r, event⟩, hanswer, hstep⟩ := Option.bind_eq_some_iff.mp hstep
  obtain ⟨c', -, rfl⟩ := Option.map_eq_some_iff.mp hstep
  exact ⟨App.noSamples_chatAnswer h.redis hanswer, h.refresh⟩

theorem stepTick {now : ℚ} (h : s.Untripped) (hstep : app.stepTick s now = some s') :
    s'.Untripped := by
  obtain ⟨⟨r, refresh⟩, hrefresh, rfl⟩ := Option.map_eq_some_iff.mp hstep
  obtain ⟨hs, hr⟩ := h.refresh.step h.redis hrefresh
  exact ⟨hr, hs⟩

theorem act {e : AppEvent} (h : s.Untripped) (hact : app.act s e = some s') : s'.Untripped := by
  unfold App.act at hact
  split at hact
  · obtain ⟨refresh, hstart, rfl⟩ := Option.map_eq_some_iff.mp hact
    exact ⟨h.redis, h.refresh.start hstart⟩
  · exact h.stepTick hact
  · obtain ⟨-, hact⟩ := Option.ite_none_right_eq_some.mp hact
    obtain ⟨refresh, habort, rfl⟩ := Option.map_eq_some_iff.mp hact
    exact ⟨h.redis, h.refresh.abort habort⟩
  · obtain ⟨-, hact⟩ := Option.ite_none_right_eq_some.mp hact
    cases hact
    exact ⟨h.redis, h.refresh⟩
  · exact h.stepRequest hact

/-- **No event trips a breaker.** -/
theorem step {e : AppEvent} (h : s.Untripped) (hstep : app.step s e = some s') : s'.Untripped := by
  obtain ⟨-, hstep⟩ := Option.ite_none_right_eq_some.mp hstep
  obtain ⟨m, hact, rfl⟩ := Option.map_eq_some_iff.mp hstep
  have hm := h.act hact
  exact ⟨hm.redis, hm.refresh⟩

end AppState.Untripped

/-- **In every run of the app every breaker stays closed.** -/
theorem untripped_of_run {app : App} {redis : Redis} {start : ℚ} {es : List AppEvent} {s : AppState}
    (hredis : redis.NoSamples) (hrun : Runs.run app.step (App.boot redis start) es = some s) :
    s.Untripped := by
  have hboot : (App.boot redis start).Untripped :=
    ⟨hredis, rfl, allClosed_empty, trivial⟩
  exact Runs.invariant_along _ (fun _ s => s.Untripped) hboot (fun _ _ _ _ h _ hstep => h.step hstep)
    hrun (Runs.along_true es _)

/-! ## 3. When the breaker follows the traffic -/

/-- **At every tick of every run, and for every candidate, the breaker follows the outcomes of
`route` exactly when these do not call for it to trip.** -/
theorem breakerFollows_iff (app : App) {redis : Redis} {start now : ℚ} {es : List AppEvent}
    {s₀ s₁ : AppState} (hredis : redis.NoSamples)
    (hrun : Runs.run app.step (App.boot redis start) es = some s₀) (htick : app.TickOf now s₀ s₁)
    (cand : CandidateRef) :
    app.BreakerFollows now cand s₀ s₁ ↔ ¬ App.breakers.Tripping s₀.outcomes cand now := by
  obtain ⟨tickEvents, htick, -, -⟩ := htick
  have hclosed : s₀.refresh.snapshot.state cand.provider cand.model = .closed := by
    rw [(untripped_of_run hredis hrun).refresh.snapshot, Snapshot.state_empty]
  have huntripped := untripped_of_run hredis (Runs.run_append_iff.mpr ⟨s₀, hrun, htick⟩)
  have hnot : ¬ app.Tripped now cand s₁ := by
    rintro ⟨hopen, -⟩
    obtain ⟨s, hs, hbreaker⟩ := Option.map_eq_some_iff.mp hopen
    rw [huntripped.refresh.cache cand s hs] at hbreaker
    cases hbreaker
  constructor
  · exact fun h htripping => hnot (h htripping hclosed)
  · exact fun h htripping => absurd htripping h

/-! ## 4. A brownout that trips nothing -/

/-- The app with one tier and one candidate. -/
def soleApp : App where
  cfg := fastConfig
  vendors := ["openai"]
  repr := fun s => "'" ++ s ++ "'"

def soleCand : CandidateRef := ⟨"openai", "gpt-4o-mini"⟩

/-- Request `i`, from its arrival to its end, with one vendor call. -/
def soleRequest (now : ℚ) (reply : Except ProviderError ChatResult) (i : ℕ) : List AppEvent :=
  [⟨now, .arrive hiRequest⟩,
    ⟨now, .request i (.resolved (some webCaller) "r" zeroDraw)⟩,
    ⟨now, .request i (.acquired zeroDraw)⟩, ⟨now, .request i (.replied reply)⟩,
    ⟨now, .request i (.recorded zeroDraw)⟩]

/-- The first tick, then twenty requests within a second; the first six of them time out. -/
def brownout : List AppEvent :=
  soleTick 0 ++
    (List.range 6).flatMap (soleRequest 1 (.error ⟨.timeout, true, "Timeout"⟩)) ++
    (List.range' 6 14).flatMap (soleRequest 1 (.ok ⟨"hello", some "stop", 1, 1, none⟩))

/-- The tick after the brownout starts with twenty outcomes in the window, six of them retryable
failures, and ends with a closed breaker and the candidate still being picked. -/
theorem brownout_run : ∃ s₀ s₁, Runs.run soleApp.step (App.boot Dict.empty 0) brownout = some s₀ ∧
    soleApp.TickOf 2 s₀ s₁ ∧ App.breakers.Tripping s₀.outcomes soleCand 2 ∧
    (s₁.refresh.cache.get? soleCand).map CandidateSignals.breaker = some .closed ∧
    (soleApp.engine s₁).pick (soleApp.router.tierCandidates "fast") [] zeroDraw = some soleCand := by
  have hrun : (Runs.run soleApp.step (App.boot Dict.empty 0) brownout).any (fun s₀ =>
      (Runs.run soleApp.step s₀ (soleTick 2)).any fun s₁ =>
        s₁.refresh.isIdle ∧ App.breakers.Tripping s₀.outcomes soleCand 2 ∧
        (s₁.refresh.cache.get? soleCand).map CandidateSignals.breaker = some .closed ∧
        (soleApp.engine s₁).pick (soleApp.router.tierCandidates "fast") [] zeroDraw =
          some soleCand) = true := by
    decide +kernel
  obtain ⟨s₀, hs₀, hrun⟩ := (Option.any_eq_true _ _).mp hrun
  obtain ⟨s₁, hs₁, hend⟩ := (Option.any_eq_true _ _).mp hrun
  obtain ⟨hidle, hend⟩ := of_decide_eq_true hend
  exact ⟨s₀, s₁, hs₀, ⟨_, hs₁, hidle, by simp⟩, hend⟩

/-- After the brownout the breaker should be open, and is not. -/
theorem brownout_trips_nothing : ¬ ∀ (app : App) (redis : Redis) (start now : ℚ)
    (es : List AppEvent) (s₀ s₁ : AppState) (cand : CandidateRef), redis.NoSamples →
    Runs.run app.step (App.boot redis start) es = some s₀ → app.TickOf now s₀ s₁ →
      app.BreakerFollows now cand s₀ s₁ := by
  intro h
  obtain ⟨s₀, s₁, hrun, htick, htripping, hclosed, -⟩ := brownout_run
  have huntripped := untripped_of_run Redis.noSamples_empty hrun
  have hopen := (h soleApp Dict.empty 0 2 brownout s₀ s₁ soleCand Redis.noSamples_empty hrun htick
    htripping (by rw [huntripped.refresh.snapshot, Snapshot.state_empty])).1
  rw [hclosed] at hopen
  cases hopen

theorem breakerFollows_iff_brownout : ∃ s₀ s₁,
    Runs.run soleApp.step (App.boot Dict.empty 0) brownout = some s₀ ∧ soleApp.TickOf 2 s₀ s₁ ∧
      (soleApp.BreakerFollows 2 soleCand s₀ s₁ ↔ ¬ App.breakers.Tripping s₀.outcomes soleCand 2) := by
  obtain ⟨s₀, s₁, hrun, htick, -⟩ := brownout_run
  exact ⟨s₀, s₁, hrun, htick,
    breakerFollows_iff soleApp Redis.noSamples_empty hrun htick soleCand⟩

end Librouter
