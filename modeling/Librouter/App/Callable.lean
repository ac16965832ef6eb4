/-
# Only candidates that can be called

The candidates come from the tiers of the config, the limits of the bucket are keyed by
`provider/model`, the vendors by provider, and the signals by `CandidateRef`: four maps, built in four
places.  `build_signals` goes through the candidates of the config that have a vendor, so the signals
are theirs only, and `pick` returns nothing without signals.

So in every state of the app, whatever the ticks, the requests and the reloads have done, a candidate
that is picked has limits and a vendor, and so has every candidate whose bucket is asked
(`wiring_safe`).
-/
import Librouter.App.Caps
import Librouter.App.Holder

namespace Librouter

/-! ## 1. Candidates that can be called -/

/-- The candidate has a vendor and a rate-limit entry. -/
structure App.Callable (app : App) (cand : CandidateRef) : Prop where
  vendor : cand.provider ∈ app.vendors
  limits : ∃ limits, app.bucket.entry cand.provider cand.model = .ok limits

/-- The refresh task goes through no others. -/
theorem App.callable_of_mem_candidates {app : App} {c : RatedCandidate}
    (h : c ∈ app.refresh.candidates) : app.Callable c.ref := by
  obtain ⟨hvendor, t, ht, -, -⟩ := mem_candidates_iff.mp h
  have hmem := List.mem_of_find?_eq_some ht
  have href : t.ref = c.ref := by simpa using List.find?_some ht
  -- the entry itself has the key, so the last one with it exists
  have hlast : (app.cfg.lastEntry c.ref).isSome = true := by
    rw [Config.lastEntry, List.find?_isSome]
    refine ⟨t, List.mem_reverse.mpr hmem, decide_eq_true ?_⟩
    rw [← href]
    rfl
  obtain ⟨t', ht'⟩ := Option.isSome_iff_exists.mp hlast
  exact ⟨hvendor, t'.rateLimits, entry_eq_ok_iff.mpr (by rw [ht']; rfl)⟩

section Bucket

variable {app : App} {cand : CandidateRef}

/-- `try_acquire` finds the limits. -/
theorem App.Callable.acquireAt_ok (h : app.Callable cand) (r : Redis) (nowS : ℚ) (n : ℕ) :
    ∃ a, app.bucket.acquireAt r nowS cand n = .ok a := by
  obtain ⟨limits, hlimits⟩ := h.limits
  unfold RedisTokenBucket.acquireAt RedisTokenBucket.tryAcquire
  rw [hlimits]
  exact ⟨_, rfl⟩

/-- `remaining` finds them. -/
theorem App.Callable.remainingAt_ok (h : app.Callable cand) (r : Redis) (nowS : ℚ) :
    ∃ a, app.bucket.remainingAt r nowS cand = .ok a := by
  obtain ⟨limits, hlimits⟩ := h.limits
  unfold RedisTokenBucket.remainingAt RedisTokenBucket.remaining RedisTokenBucket.tryAcquire
  rw [hlimits]
  exact ⟨_, rfl⟩

end Bucket

/-! ## 2. The refresh task -/

/-- There are signals of candidates with `P` only. -/
def SignalsWithin (P : CandidateRef → Prop) (signals : Dict CandidateRef CandidateSignals) : Prop :=
  ∀ cand sig, signals.get? cand = some sig → P cand

theorem signalsWithin_empty {P : CandidateRef → Prop} : SignalsWithin P Dict.empty := nofun

theorem SignalsWithin.set {P : CandidateRef → Prop} {signals : Dict CandidateRef CandidateSignals}
    (h : SignalsWithin P signals) {cand : CandidateRef} (hcand : P cand) (sig : CandidateSignals) :
    SignalsWithin P (signals.set cand sig) := by
  intro cand' sig' hget
  rw [Dict.get?_set] at hget
  split at hget
  · rename_i hsame
    exact hsame ▸ hcand
  · exact h cand' sig' hget

/-- The candidates a tick is at, has ahead and has done all have `P`. -/
def TickPc.Within (P : CandidateRef → Prop) : TickPc → Prop
  | .idle => True
  | .seeding _ => True
  | .sampling .. => True
  | .probing .. => True
  | .aggregating c pending out => P c.ref ∧ (∀ c' ∈ pending, P c'.ref) ∧ SignalsWithin P out
  | .budgeting c _ pending out => P c.ref ∧ (∀ c' ∈ pending, P c'.ref) ∧ SignalsWithin P out
  | .stating c _ _ _ pending out => P c.ref ∧ (∀ c' ∈ pending, P c'.ref) ∧ SignalsWithin P out

structure RefreshState.Within (P : CandidateRef → Prop) (s : RefreshState) : Prop where
  cache : SignalsWithin P s.cache
  tick : s.pc.Within P

namespace RefreshState.Within

variable {P : CandidateRef → Prop} {task : RefreshTask} {s s' : RefreshState}

theorem nextCandidate (hcache : SignalsWithin P s.cache) {pending : List RatedCandidate}
    (hpending : ∀ c ∈ pending, P c.ref) {out : Dict CandidateRef CandidateSignals}
    (hout : SignalsWithin P out) : (RefreshTask.nextCandidate s pending out).Within P := by
  cases pending with
  | nil => exact ⟨hout, trivial⟩
  | cons c rest =>
    obtain ⟨hc, hrest⟩ := List.forall_mem_cons.mp hpending
    exact ⟨hcache, hc, hrest, hout⟩

theorem nextSample (hall : ∀ c ∈ task.candidates, P c.ref) (hcache : SignalsWithin P s.cache)
    (now : ℚ) (pending : List ((String × String) × List String)) (fresh : Snapshot) :
    (task.nextSample s now pending fresh).Within P := by
  cases pending with
  | nil =>
    exact nextCandidate (s := { s with snapshot := task.breakers.transitionAfterWindow fresh now })
      hcache hall signalsWithin_empty
  | cons x rest => exact ⟨hcache, trivial⟩

theorem start {nowS : ℚ} (h : s.Within P) (hstart : RefreshTask.start nowS s = some s') :
    s'.Within P := by
  unfold RefreshTask.start at hstart
  split at hstart <;> cases hstart
  exact ⟨h.cache, trivial⟩

theorem abort (h : s.Within P) (habort : RefreshTask.abort s = some s') : s'.Within P := by
  unfold RefreshTask.abort at habort
  split at habort <;> cases habort
  exact ⟨h.cache, trivial⟩

/-- **A command of a tick** stays within the candidates of the task. -/
theorem step {r r' : Redis} {nowS : ℚ} (hall : ∀ c ∈ task.candidates, P c.ref) (h : s.Within P)
    (hstep : task.step r nowS s = some (r', s')) : s'.Within P := by
  obtain ⟨hcache, htick⟩ := h
  unfold RefreshTask.step at hstep
  split at hstep
  · cases hstep
  · cases hstep
    exact nextSample (s := { s with snapshot := s.snapshot.seed r nowS }) hall hcache _ _ _
  · dsimp only at hstep
    split at hstep
    · split at hstep <;> cases hstep
      · exact ⟨hcache, trivial⟩
      · exact nextSample hall hcache _ _ _
    · cases hstep
      exact nextSample hall hcache _ _ _
  · cases hstep
    exact nextSample hall hcache _ _ _
  · rename_i hpc
    rw [hpc] at htick
    cases hstep
    exact ⟨hcache, htick⟩
  · rename_i hpc
    rw [hpc] at htick
    split at hstep <;> cases hstep
    exact ⟨hcache, htick⟩
  · rename_i hpc
    rw [hpc] at htick
    cases hstep
    obtain ⟨hc, hpending, hout⟩ := htick
    exact nextCandidate (s := { s with snapshot := s.snapshot.seed r nowS }) hcache hpending
      (hout.set hc _)

/-- Nothing else in the app touches what the refresh task keeps. -/
theorem act {app : App} {a a' : AppState} {e : AppEvent}
    (hall : ∀ c ∈ app.refresh.candidates, P c.ref) (h : a.refresh.Within P)
    (hact : app.act a e = some a') : a'.refresh.Within P := by
  unfold App.act at hact
  split at hact
  · obtain ⟨refresh, hstart, rfl⟩ := Option.map_eq_some_iff.mp hact
    exact h.start hstart
  · obtain ⟨⟨r, refresh⟩, hrefresh, rfl⟩ := Option.map_eq_some_iff.mp hact
    exact h.step hall hrefresh
  · obtain ⟨-, hact⟩ := Option.ite_none_right_eq_some.mp hact
    obtain ⟨refresh, habort, rfl⟩ := Option.map_eq_some_iff.mp hact
    exact h.abort habort
  · obtain ⟨-, hact⟩ := Option.ite_none_right_eq_some.mp hact
    cases hact
    exact h
  · obtain ⟨c, -, hact⟩ := Option.bind_eq_some_iff.mp hact
    obtain ⟨⟨r, event⟩, -, hact⟩ := Option.bind_eq_some_iff.mp hact
    obtain ⟨c', -, rfl⟩ := Option.map_eq_some_iff.mp hact
    exact h

end RefreshState.Within

/-- **In every run of the app**, the signals are of candidates of the refresh task. -/
theorem App.within_of_run {app : App} {P : CandidateRef → Prop}
    (hall : ∀ c ∈ app.refresh.candidates, P c.ref) {redis : Redis} {start : ℚ}
    {es : List WiredEvent} {s : WiredState}
    (hrun : Runs.run app.wiredStep (app.wiredBoot redis start) es = some s) :
    s.app.refresh.Within P := by
  have hboot : (app.wiredBoot redis start).app.refresh.Within P := ⟨signalsWithin_empty, trivial⟩
  refine Runs.invariant_along _ (fun _ s => s.app.refresh.Within P) hboot
    (fun _ m e m' h _ hstep => ?_) hrun (Runs.along_true es _)
  cases e with
  | app event =>
    obtain ⟨a, ha, rfl⟩ := Option.map_eq_some_iff.mp hstep
    obtain ⟨-, ha⟩ := Option.ite_none_right_eq_some.mp ha
    obtain ⟨b, hact, rfl⟩ := Option.map_eq_some_iff.mp ha
    have hb : b.refresh.Within P := h.act hall hact
    exact hb
  | reloaded cfg =>
    cases hstep
    exact h
  | reloadFails =>
    cases hstep
    exact h

/-! ## 3. The requests -/

/-- The pick of the loop has `P`. -/
def LoopInput.Within (P : CandidateRef → Prop) (input : LoopInput) : Prop :=
  ∀ cands exclude cand, input.pick cands exclude = some cand → P cand

def RouteEvent.Within (P : CandidateRef → Prop) : RouteEvent → Prop
  | .acquired _ _ next => next.Within P
  | .replied _ _ => True
  | .recorded next => next.Within P
  | .failed => True

def ChatEvent.Within (P : CandidateRef → Prop) : ChatEvent → Prop
  | .resolved _ input => input.next.Within P
  | .tokensUsed _ input => input.next.Within P
  | .route event => event.Within P
  | .failed => True

/-- The bucket is asked for a candidate with `P` only. -/
def RouteTask.Within (P : CandidateRef → Prop) (t : RouteTask) : Prop :=
  ∀ remaining cand, t.pc = .acquiring remaining cand → P cand

def ChatTask.Within (P : CandidateRef → Prop) (c : ChatTask) : Prop :=
  ∀ t, c.pc = .routing t → t.Within P

section Requests

variable {P : CandidateRef → Prop} {router : Router}

theorem RouteTask.within_loopTop {t : RouteTask} {input : LoopInput} (h : input.Within P) :
    (router.loopTop t input).Within P := by
  intro remaining cand hpc
  rcases router.loopTop_cases t input with ⟨error, -, heq⟩ | ⟨picked, hpick, -, heq⟩
  · rw [heq] at hpc
    cases hpc
  · rw [heq] at hpc
    cases hpc
    exact h _ _ _ hpick

theorem RouteTask.within_begin (req : ChatCompletionRequest) (caller : Caller) (requestId : String)
    (now : ℚ) {input : LoopInput} (h : input.Within P) :
    (router.begin req caller requestId now input).Within P := by
  unfold Router.begin
  split
  · exact within_loopTop h
  · intro remaining cand hpc
    cases hpc

/-- **`route` asks the bucket** for candidates that were picked. -/
theorem RouteTask.within_step {t t' : RouteTask} {event : RouteEvent} (h : event.Within P)
    (hstep : t.step router event = some t') : t'.Within P := by
  cases moves_of_step hstep with
  | bucketEmpty | vendorMissing | retry => exact within_loopTop h
  | crash | call | callFailed | callUnrecorded | callOk | giveUp | recordFails | answer
    | noMessage => exact nofun

theorem ChatTask.within_proceed {c : ChatTask} {task : RouteTask} (h : task.Within P) :
    (c.proceed task).Within P := by
  unfold proceed
  split
  · exact fun _ ht => ChatPc.noConfusion ht
  · intro t ht
    obtain rfl := ChatPc.routing.inj ht
    exact h

theorem ChatTask.within_step {c c' : ChatTask} {event : ChatEvent} (h : event.Within P)
    (hstep : c.step router event = some c') : c'.Within P := by
  cases moves_of_step hstep with
  | noCaller | capped | exhausted | resolveFails | usageFails =>
    exact fun _ ht => ChatPc.noConfusion ht
  | uncapped | underCap => exact within_proceed (RouteTask.within_begin _ _ _ _ h)
  | route hpc htask => exact within_proceed (RouteTask.within_step h htask)

end Requests

/-! ## 4. The app -/

namespace App

variable {app : App} {s s' : AppState}

/-- Signals and requests are of candidates that can be called. -/
structure Wired (app : App) (s : AppState) : Prop where
  refresh : s.refresh.Within app.Callable
  requests : ∀ c ∈ s.requests, c.Within app.Callable

/-- `pick` returns nothing without signals. -/
theorem callable_of_pick (h : SignalsWithin app.Callable s.refresh.cache) {cands : List TierEntry}
    {exclude : List CandidateRef} {draw : UnitDraw} {cand : CandidateRef}
    (hpick : (app.engine s).pick cands exclude draw = some cand) : app.Callable cand := by
  obtain ⟨-, -, hweight⟩ := (app.engine s).pick_spec hpick
  unfold WeightEngine.weight at hweight
  split at hweight
  · exact absurd hweight (lt_irrefl 0)
  · rename_i sig hsig
    exact h cand sig hsig

theorem within_loopInput (h : SignalsWithin app.Callable s.refresh.cache) (now : ℚ)
    (draw : UnitDraw) : (app.loopInput s now draw).Within app.Callable :=
  fun _ _ _ hpick => callable_of_pick h hpick

theorem within_routeAnswer (h : SignalsWithin app.Callable s.refresh.cache) {now : ℚ}
    {t : RouteTask} {answer : Answer} {r : Redis} {event : RouteEvent}
    (hanswer : app.routeAnswer s now t answer = some (r, event)) : event.Within app.Callable := by
  unfold routeAnswer at hanswer
  split at hanswer
  · split at hanswer <;> cases hanswer
    · exact within_loopInput h _ _
    · trivial
  · cases hanswer
    trivial
  · cases hanswer
    exact within_loopInput h _ _
  · cases hanswer
    exact within_loopInput h _ _
  · cases hanswer
    trivial
  · cases hanswer

theorem within_chatAnswer (h : SignalsWithin app.Callable s.refresh.cache) {now : ℚ}
    {c : ChatTask} {answer : Answer} {r : Redis} {event : ChatEvent}
    (hanswer : app.chatAnswer s now c answer = some (r, event)) : event.Within app.Callable := by
  unfold chatAnswer at hanswer
  split at hanswer
  · obtain ⟨⟨r', e⟩, ha, heq⟩ := Option.map_eq_some_iff.mp hanswer
    cases heq
    exact within_routeAnswer h ha
  · cases hanswer
    exact within_loopInput h _ _
  · cases hanswer
    exact within_loopInput h _ _
  · cases hanswer
    trivial
  · cases hanswer

namespace Wired

theorem stepRequest {now : ℚ} {i : ℕ} {answer : Answer} (h : app.Wired s)
    (hstep : app.stepRequest s now i answer = some s') : app.Wired s' := by
  obtain ⟨c, -, hstep⟩ := Option.bind_eq_some_iff.mp hstep
  obtain ⟨⟨r, event⟩, hanswer, hstep⟩ := Option.bind_eq_some_iff.mp hstep
  obtain ⟨c', hchat, rfl⟩ := Option.map_eq_some_iff.mp hstep
  refine ⟨h.refresh, fun d hd => ?_⟩
  rcases List.mem_or_eq_of_mem_set hd with hd | rfl
  · exact h.requests d hd
  · exact ChatTask.within_step (within_chatAnswer h.refresh.cache hanswer) hchat

theorem act {e : AppEvent} (h : app.Wired s) (hact : app.act s e = some s') : app.Wired s' := by
  refine ⟨h.refresh.act (fun _ => callable_of_mem_candidates) hact, ?_⟩
  unfold App.act at hact
  split at hact
  · obtain ⟨refresh, -, rfl⟩ := Option.map_eq_some_iff.mp hact
    exact h.requests
  · obtain ⟨⟨r, refresh⟩, -, rfl⟩ := Option.map_eq_some_iff.mp hact
    exact h.requests
  · obtain ⟨-, hact⟩ := Option.ite_none_right_eq_some.mp hact
    obtain ⟨refresh, -, rfl⟩ := Option.map_eq_some_iff.mp hact
    exact h.requests
  · obtain ⟨-, hact⟩ := Option.ite_none_right_eq_some.mp hact
    cases hact
    rw [List.forall_mem_append, List.forall_mem_singleton]
    exact ⟨h.requests, fun _ ht => ChatPc.noConfusion ht⟩
  · exact (h.stepRequest hact).requests

theorem step {e : AppEvent} (h : app.Wired s) (hstep : app.step s e = some s') : app.Wired s' := by
  obtain ⟨-, hstep⟩ := Option.ite_none_right_eq_some.mp hstep
  obtain ⟨m, hact, rfl⟩ := Option.map_eq_some_iff.mp hstep
  have hm := h.act hact
  exact ⟨hm.refresh, hm.requests⟩

end Wired

theorem wired_of_run {redis : Redis} {start : ℚ} {es : List WiredEvent} {s : WiredState}
    (hrun : Runs.run app.wiredStep (app.wiredBoot redis start) es = some s) : app.Wired s.app := by
  have hboot : app.Wired (app.wiredBoot redis start).app :=
    ⟨⟨signalsWithin_empty, trivial⟩, fun c hc => absurd hc List.not_mem_nil⟩
  refine Runs.invariant_along _ (fun _ s => app.Wired s.app) hboot
    (fun _ m e m' h _ hstep => ?_) hrun (Runs.along_true es _)
  cases e with
  | app event =>
    obtain ⟨a, ha, rfl⟩ := Option.map_eq_some_iff.mp hstep
    exact h.step ha
  | reloaded cfg =>
    cases hstep
    exact h
  | reloadFails =>
    cases hstep
    exact h

/-! ## 5. What is safe -/

/-- The wiring is safe: what is picked can be called, and so can be what a token is taken for. -/
structure WiringSafe (app : App) (s : AppState) : Prop where
  pick : ∀ cands exclude draw cand, (app.engine s).pick cands exclude draw = some cand →
    app.Callable cand
  /-- a request that asks the bucket -/
  acquiring : ∀ c ∈ s.requests, ∀ t remaining cand, c.pc = .routing t →
    t.pc = .acquiring remaining cand → app.Callable cand ∧
      -- finds the limits, not a `KeyError`
      (∀ r nowS n, ∃ a, app.bucket.acquireAt r nowS cand n = .ok a) ∧
      -- and then the vendor, not `vendor_missing`
      ∀ t0 next, t.step app.router (.acquired true t0 next)
        = some { t with pc := .chatting cand t0 (app.router.attemptTimeout remaining) }
  /-- a tick that asks the bucket finds the limits -/
  budgeting : ∀ c agg pending out, s.refresh.pc = .budgeting c agg pending out →
    app.Callable c.ref ∧ ∀ r nowS, ∃ a, app.bucket.remainingAt r nowS c.ref = .ok a

/-- **Wiring safety.**  For every config and every set of vendors, in every state of the app that
ticks, requests and reloads lead to. -/
theorem wiring_safe (app : App) {redis : Redis} {start : ℚ} {es : List WiredEvent} {s : WiredState}
    (hrun : Runs.run app.wiredStep (app.wiredBoot redis start) es = some s) :
    app.WiringSafe s.app := by
  have hwired := wired_of_run hrun
  refine ⟨fun _ _ _ _ hpick => callable_of_pick hwired.refresh.cache hpick, ?_, ?_⟩
  · intro c hc t remaining cand hrouting hacquiring
    have hcallable := hwired.requests c hc t hrouting remaining cand hacquiring
    refine ⟨hcallable, hcallable.acquireAt_ok, fun t0 next => ?_⟩
    have hvendor : cand.provider ∈ app.router.vendors := hcallable.vendor
    simp [RouteTask.step, hacquiring, hvendor]
  · intro c agg pending out hpc
    have htick := hwired.refresh.tick
    rw [hpc] at htick
    exact ⟨htick.1, htick.1.remainingAt_ok⟩

/-- `wiring_safe` after the first tick and a reload. -/
theorem wiring_safe_tick : ∃ s, Runs.run soleApp.wiredStep (soleApp.wiredBoot Dict.empty 0)
    (tickAndReload highFloorConfig) = some s ∧ soleApp.WiringSafe s.app := by
  obtain ⟨s, hrun, -⟩ := run_tickAndReload highFloorConfig
  exact ⟨s, hrun, soleApp.wiring_safe hrun⟩

end App

end Librouter
