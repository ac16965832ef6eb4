/-
# The discipline of the failover loop

`RouteLog` is a call of `route` with the acquires it made and the times it came round its loop; the
weight engine's cache may be another one each time.  `route` keeps four accumulators, and they tell
one story: `Rounds` says it of the rounds that are over (each acquired a candidate of the tier, once,
and gave it up for a reason that is in `tried`), and `Current` of the round it is in.
-/
import Librouter.Router.Attempts
import Librouter.Routing.Weights

namespace Librouter

/-! ## 1. A call of `route` and its history -/

/-- What is read at the top of the loop: the clock, the weight engine as it is then, and
`rng.random()`. -/
structure Reading where
  now : ℚ
  engine : WeightEngine
  draw : UnitDraw

def Reading.loopInput (reading : Reading) : LoopInput :=
  ⟨reading.now, fun cands exclude => reading.engine.pick cands exclude reading.draw⟩

/-- What an await of `route` comes back with, when Redis does not raise. -/
inductive FailoverEvent
  | acquired (ok : Bool) (t0 : ℚ) (next : Reading)
  | replied (reply : Except ProviderError ChatResult) (now : ℚ)
  | recorded (next : Reading)

def FailoverEvent.event : FailoverEvent → RouteEvent
  | .acquired ok t0 next => .acquired ok t0 next.loopInput
  | .replied reply now => .replied reply now
  | .recorded next => .recorded next.loopInput

/-- A call of `bucket.try_acquire` that has come back. -/
structure Acquire where
  cand : CandidateRef
  requestTokens : ℕ
  ok : Bool
deriving DecidableEq

/-- A call of `route`, with its acquires and the number of its iterations. -/
structure RouteLog where
  task : RouteTask
  acquires : List Acquire := []
  iterations : ℕ

/-- The acquire that comes back with the event. -/
def RouteTask.acquire? (t : RouteTask) (event : FailoverEvent) : Option Acquire :=
  match t.pc, event with
  | .acquiring _ cand, .acquired ok _ _ => some ⟨cand, t.req.est, ok⟩
  | _, _ => none

/-- The event brings the loop round: a `continue`. -/
def RouteTask.comesRound (router : Router) (t : RouteTask) (event : FailoverEvent) : Bool :=
  match t.pc, event with
  | .acquiring _ cand, .acquired ok _ _ => !ok || decide (cand.provider ∉ router.vendors)
  | .recordingFailure _ e, .recorded _ => !e.nonRetryable
  | _, _ => false

namespace RouteLog

/-- `route(req, caller)`, up to its first await. -/
def begin (router : Router) (req : ChatCompletionRequest) (caller : Caller) (requestId : String)
    (now : ℚ) (first : Reading) : RouteLog where
  task := router.begin req caller requestId now first.loopInput
  iterations := if router.cfg.tiers.contains req.model then 1 else 0

/-- The event has brought `route` to `task`. -/
def after (router : Router) (s : RouteLog) (event : FailoverEvent) (task : RouteTask) : RouteLog where
  task := task
  acquires := s.acquires ++ (s.task.acquire? event).toList
  iterations := s.iterations + if s.task.comesRound router event then 1 else 0

def step (router : Router) (s : RouteLog) (event : FailoverEvent) : Option RouteLog :=
  (s.task.step router event.event).map (s.after router event)

end RouteLog

/-- The candidate that is being called. -/
def RoutePc.called? : RoutePc → Option CandidateRef
  | .chatting cand _ _ => some cand
  | _ => none

/-- The candidate that is being acquired. -/
def RoutePc.acquiring? : RoutePc → Option CandidateRef
  | .acquiring _ cand => some cand
  | _ => none

/-- The candidates of the calls of `vendor.chat`. -/
def RouteTask.started (t : RouteTask) : List CandidateRef :=
  t.calls.map VendorCall.cand ++ t.pc.called?.toList

/-- The candidates of the calls of `try_acquire`. -/
def RouteLog.tries (s : RouteLog) : List CandidateRef :=
  s.acquires.map Acquire.cand ++ s.task.pc.acquiring?.toList

/-- The (provider, model) pairs of a tier, as they are listed. -/
def Router.tierRefs (router : Router) (tier : String) : List CandidateRef :=
  (router.tierCandidates tier).map TierEntry.ref

/-! ## 2. Rounds -/

/-- The candidate of an acquire was given up, for the reason that is on record. -/
def GivenUp (router : Router) (est : ℕ) (calls : List VendorCall) (a : Acquire)
    (t : CandidateRef × String) : Prop :=
  t.1 = a.cand ∧ a.requestTokens = est ∧
    (a.ok = false ∧ t.2 = "bucket_empty" ∨
      a.ok = true ∧ a.cand.provider ∉ router.vendors ∧ t.2 = "vendor_missing" ∨
      a.ok = true ∧ ∃ call ∈ calls, ∃ e, call.cand = a.cand ∧ call.reply = .error e ∧
        t.2 = e.status)

/-- The rounds that are over. -/
structure Rounds (router : Router) (req : ChatCompletionRequest) (acquires : List Acquire)
    (calls : List VendorCall) (tried : List (CandidateRef × String))
    (exclude : List CandidateRef) : Prop where
  givenUp : List.Forall₂ (GivenUp router req.est calls) acquires tried
  exclude_eq : tried.map Prod.fst = exclude
  nodup : exclude.Nodup
  tier : ∀ cand ∈ exclude, cand ∈ router.tierRefs req.model
  failed : ∀ call ∈ calls, ∃ e, call.reply = .error e ∧ e.nonRetryable = false
  accepted : ∀ call ∈ calls, ⟨call.cand, req.est, true⟩ ∈ acquires
  called : (calls.map VendorCall.cand).Nodup

theorem GivenUp.mono {router : Router} {est : ℕ} {calls more : List VendorCall} {a : Acquire}
    {t : CandidateRef × String} (h : GivenUp router est calls a t) :
    GivenUp router est (calls ++ more) a t := by
  obtain ⟨hcand, htokens, hempty | hmissing | ⟨hok, call, hcall, hfailed⟩⟩ := h
  · exact ⟨hcand, htokens, Or.inl hempty⟩
  · exact ⟨hcand, htokens, Or.inr (Or.inl hmissing)⟩
  · exact ⟨hcand, htokens, Or.inr (Or.inr ⟨hok, call, List.mem_append_left _ hcall, hfailed⟩)⟩

theorem map_cand_of_givenUp {router : Router} {est : ℕ} {calls : List VendorCall}
    {acquires : List Acquire} {tried : List (CandidateRef × String)}
    (h : List.Forall₂ (GivenUp router est calls) acquires tried) :
    acquires.map Acquire.cand = tried.map Prod.fst := by
  induction h with
  | nil => rfl
  | cons hgiven _ ih => rw [List.map_cons, List.map_cons, ih, hgiven.1]

namespace Rounds

variable {router : Router} {req : ChatCompletionRequest} {acquires : List Acquire}
  {calls : List VendorCall} {tried : List (CandidateRef × String)} {exclude : List CandidateRef}

theorem nil : Rounds router req [] [] [] [] :=
  ⟨.nil, rfl, List.nodup_nil, nofun, nofun, nofun, List.nodup_nil⟩

theorem map_cand (h : Rounds router req acquires calls tried exclude) :
    acquires.map Acquire.cand = exclude :=
  (map_cand_of_givenUp h.givenUp).trans h.exclude_eq

/-- A candidate that is called was acquired. -/
theorem cand_mem (h : Rounds router req acquires calls tried exclude) {call : VendorCall}
    (hcall : call ∈ calls) : call.cand ∈ exclude := by
  rw [← h.map_cand]
  exact List.mem_map_of_mem (h.accepted call hcall)

/-- There are no more rounds than candidates. -/
theorem length_le (h : Rounds router req acquires calls tried exclude) :
    exclude.length ≤ (router.tierRefs req.model).dedup.length :=
  (h.nodup.subperm fun cand hcand => List.mem_dedup.mpr (h.tier cand hcand)).length_le

/-- **One more round is over**, with a call that failed or without one. -/
theorem concat (h : Rounds router req acquires calls tried exclude) {cand : CandidateRef}
    (hnew : cand ∉ exclude) (htier : cand ∈ router.tierRefs req.model) {ok : Bool}
    {more : List VendorCall} (hmore : (more.map VendorCall.cand).Nodup)
    (hfailed : ∀ call ∈ more, call.cand = cand ∧ ok = true ∧
      ∃ e, call.reply = .error e ∧ e.nonRetryable = false)
    {why : String} (hwhy : GivenUp router req.est (calls ++ more) ⟨cand, req.est, ok⟩ (cand, why)) :
    Rounds router req (acquires ++ [⟨cand, req.est, ok⟩]) (calls ++ more) (tried ++ [(cand, why)])
      (exclude ++ [cand]) where
  givenUp := List.rel_append (h.givenUp.imp fun _ _ hgiven => hgiven.mono) (.cons hwhy .nil)
  exclude_eq := by rw [List.map_append, h.exclude_eq, List.map_singleton]
  nodup := List.nodup_append'.mpr ⟨h.nodup, List.nodup_singleton _,
    List.disjoint_singleton.mpr hnew⟩
  tier := List.forall_mem_append.mpr ⟨h.tier, List.forall_mem_singleton.mpr htier⟩
  failed := by
    intro call hcall
    rcases List.mem_append.mp hcall with hcall | hcall
    · exact h.failed call hcall
    · exact (hfailed call hcall).2.2
  accepted := by
    intro call hcall
    rcases List.mem_append.mp hcall with hcall | hcall
    · exact List.mem_append_left _ (h.accepted call hcall)
    · obtain ⟨rfl, rfl, -⟩ := hfailed call hcall
      exact List.mem_append_right _ (List.mem_singleton_self _)
  called := by
    rw [List.map_append]
    refine List.nodup_append'.mpr ⟨h.called, hmore, fun c hold hc => ?_⟩
    obtain ⟨call, hcall, rfl⟩ := List.mem_map.mp hc
    obtain ⟨old, hmem, hsame⟩ := List.mem_map.mp hold
    rw [← (hfailed call hcall).1, ← hsame] at hnew
    exact hnew (h.cand_mem hmem)

/-- One more round is over, without a call. -/
theorem concat_idle (h : Rounds router req acquires calls tried exclude) {cand : CandidateRef}
    (hnew : cand ∉ exclude) (htier : cand ∈ router.tierRefs req.model) {ok : Bool} {why : String}
    (hwhy : ok = false ∧ why = "bucket_empty" ∨
      ok = true ∧ cand.provider ∉ router.vendors ∧ why = "vendor_missing") :
    Rounds router req (acquires ++ [⟨cand, req.est, ok⟩]) calls (tried ++ [(cand, why)])
      (exclude ++ [cand]) := by
  have hnone : (([] : List VendorCall).map VendorCall.cand).Nodup := List.nodup_nil
  have hgiven : GivenUp router req.est (calls ++ []) ⟨cand, req.est, ok⟩ (cand, why) :=
    ⟨rfl, rfl, hwhy.imp_right Or.inl⟩
  have hover := h.concat hnew htier hnone (List.forall_mem_nil _) hgiven
  rwa [List.append_nil] at hover

/-- One more round is over, with a call that failed. -/
theorem concat_failed (h : Rounds router req acquires calls tried exclude) {call : VendorCall}
    (hnew : call.cand ∉ exclude) (htier : call.cand ∈ router.tierRefs req.model)
    {e : ProviderError} (hreply : call.reply = .error e) (he : e.nonRetryable = false) :
    Rounds router req (acquires ++ [⟨call.cand, req.est, true⟩]) (calls ++ [call])
      (tried ++ [(call.cand, e.status)]) (exclude ++ [call.cand]) := by
  have hone : ([call].map VendorCall.cand).Nodup := List.nodup_singleton _
  refine h.concat hnew htier hone (fun other hother => ?_) ⟨rfl, rfl, ?_⟩
  · rw [List.mem_singleton.mp hother]
    exact ⟨rfl, rfl, e, hreply, he⟩
  · exact Or.inr (Or.inr ⟨rfl, call, List.mem_concat_self, e, rfl, hreply, rfl⟩)

end Rounds

/-! ## 3. The current round -/

/-- A candidate of the tier that is not excluded. -/
def Fresh (router : Router) (t : RouteTask) (cand : CandidateRef) : Prop :=
  cand ∉ t.exclude ∧ cand ∈ router.tierRefs t.req.model

/-- The round that `route` is in or was left in: where it stands, and the acquire and the call that
it has added. -/
inductive Current (router : Router) (t : RouteTask) :
    RoutePc → List Acquire → List VendorCall → Prop
  | acquires {remaining : ℚ} {cand : CandidateRef} (hfresh : Fresh router t cand) :
      Current router t (.acquiring remaining cand) [] []
  | calls {cand : CandidateRef} {t0 attemptTimeout : ℚ} (hfresh : Fresh router t cand)
      (hvendor : cand.provider ∈ router.vendors) :
      Current router t (.chatting cand t0 attemptTimeout) [⟨cand, t.req.est, true⟩] []
  | fails {cand : CandidateRef} {e : ProviderError} {call : VendorCall}
      (hfresh : Fresh router t cand) (hcand : call.cand = cand) (hreply : call.reply = .error e) :
      Current router t (.recordingFailure cand e) [⟨cand, t.req.est, true⟩] [call]
  | succeeds {cand : CandidateRef} {elapsed : ℚ} {result : ChatResult} {call : VendorCall}
      (hfresh : Fresh router t cand) (hcand : call.cand = cand) (hreply : call.reply = .ok result) :
      Current router t (.recordingSuccess cand elapsed result) [⟨cand, t.req.est, true⟩] [call]
  /-- out of the loop, from its top -/
  | leaves {error : RouterError} (htried : error.tried = t.tried) :
      Current router t (.finished (.raised error)) [] []
  | givesUp {cand : CandidateRef} {e : ProviderError} {call : VendorCall}
      (hfresh : Fresh router t cand) (hcand : call.cand = cand) (hreply : call.reply = .error e) :
      Current router t (.finished (.raised (Router.callerError t.tried cand e)))
        [⟨cand, t.req.est, true⟩] [call]
  | answers {cand : CandidateRef} {result : ChatResult} {call : VendorCall}
      {response : ChatCompletionResponse} {earlier : List AttemptRecord} {final : AttemptRecord}
      (hfresh : Fresh router t cand) (hcand : call.cand = cand) (hreply : call.reply = .ok result)
      (hattempts : t.attempts = earlier ++ [final])
      (htokens : final.inputTokens = response.usage.promptTokens ∧
        final.outputTokens = response.usage.completionTokens) :
      Current router t (.finished (.returned response (earlier ++ [final])))
        [⟨cand, t.req.est, true⟩] [call]
  /-- without a record of the call, or without a message -/
  | breaksOff {cand : CandidateRef} {call : VendorCall}
      (hfresh : Fresh router t cand) (hcand : call.cand = cand) :
      Current router t (.finished .crashed) [⟨cand, t.req.est, true⟩] [call]

/-- How many awaits of its round have come back. -/
def RoutePc.awaits : RoutePc → ℕ
  | .acquiring _ _ => 0
  | .chatting _ _ _ => 1
  | .recordingFailure _ _ => 2
  | .recordingSuccess _ _ _ => 2
  | .finished _ => 3

/-- The accumulators of `route` tell one story. -/
structure Disciplined (router : Router) (es : List FailoverEvent) (s : RouteLog) : Prop where
  rounds : ∃ acquires acquires' calls calls', s.acquires = acquires ++ acquires' ∧
    s.task.calls = calls ++ calls' ∧
    Rounds router s.task.req acquires calls s.task.tried s.task.exclude ∧
    Current router s.task s.task.pc acquires' calls'
  iterations : s.iterations ≤ s.task.exclude.length + 1
  length : es.length ≤ 3 * s.task.exclude.length + s.task.pc.awaits

/-- At the top of the loop, between two rounds. -/
theorem current_loopTop {router : Router} (t : RouteTask) (reading : Reading) :
    Current router (router.loopTop t reading.loopInput)
      (router.loopTop t reading.loopInput).pc [] [] := by
  rcases router.loopTop_cases t reading.loopInput with ⟨error, htried, heq⟩ | ⟨cand, hpick, -, heq⟩
  · rw [heq]
    exact .leaves htried
  · rw [heq]
    obtain ⟨htier, hnew, -⟩ := reading.engine.pick_spec hpick
    exact .acquires ⟨hnew, htier⟩

theorem disciplined_begin (router : Router) (req : ChatCompletionRequest) (caller : Caller)
    (requestId : String) (now : ℚ) (first : Reading) :
    Disciplined router [] (RouteLog.begin router req caller requestId now first) := by
  unfold RouteLog.begin Router.begin
  split
  · exact ⟨⟨[], [], [], [], rfl, rfl, .nil, current_loopTop _ first⟩, le_rfl, Nat.zero_le _⟩
  · exact ⟨⟨[], [], [], [], rfl, rfl, .nil, .leaves rfl⟩, Nat.zero_le _, Nat.zero_le _⟩

theorem response_usage {t : RouteTask} {result : ChatResult} {response : ChatCompletionResponse}
    (h : t.response result = some response) : response.usage.promptTokens = result.inputTokens ∧
      response.usage.completionTokens = result.outputTokens := by
  obtain ⟨message, -, rfl⟩ := Option.map_eq_some_iff.mp h
  exact ⟨rfl, rfl⟩

/-- The loop comes round: the round is over, and the next one begins. -/
theorem Disciplined.comeRound {router : Router} {es : List FailoverEvent} {t : RouteTask}
    {acquires : List Acquire} {iterations awaits : ℕ} {cand : CandidateRef} {ok : Bool}
    {why : String} (reading : Reading)
    (hrounds : Rounds router t.req (acquires ++ [⟨cand, t.req.est, ok⟩]) t.calls
      (t.tried ++ [(cand, why)]) (t.exclude ++ [cand]))
    (hiterations : iterations ≤ t.exclude.length + 1)
    (hlength : es.length ≤ 3 * t.exclude.length + awaits) (hawaits : awaits ≤ 2)
    (event : FailoverEvent) :
    Disciplined router (es ++ [event])
      ⟨router.failover t cand why reading.loopInput, acquires ++ [⟨cand, t.req.est, ok⟩],
        iterations + 1⟩ := by
  refine ⟨⟨_, [], _, [], (List.append_nil _).symm, (List.append_nil _).symm, hrounds,
    current_loopTop _ reading⟩, ?_, ?_⟩
  · show iterations + 1 ≤ (t.exclude ++ [cand]).length + 1
    rw [List.length_append, List.length_singleton]
    omega
  · show (es ++ [event]).length ≤ 3 * (t.exclude ++ [cand]).length + _
    rw [List.length_append, List.length_append, List.length_singleton, List.length_singleton]
    omega

section Step

variable {router : Router} {es : List FailoverEvent} {s : RouteLog} {task : RouteTask}

theorem Disciplined.acquired (h : Disciplined router es s) {ok : Bool} {t0 : ℚ} {next : Reading}
    (hmoves : s.task.Moves router (.acquired ok t0 next.loopInput) task) :
    Disciplined router (es ++ [.acquired ok t0 next])
      (s.after router (.acquired ok t0 next) task) := by
  obtain ⟨⟨acquires, acquires', calls, calls', hacquires, hcalls, hrounds, hcurrent⟩, hiterations,
    hlength⟩ := h
  have hacquire : ∀ {remaining cand}, s.task.pc = .acquiring remaining cand →
      s.task.acquire? (.acquired ok t0 next) = some ⟨cand, s.task.req.est, ok⟩ := fun hpc => by
    simp only [RouteTask.acquire?, hpc]
  unfold RouteLog.after
  cases hmoves with
  | @bucketEmpty remaining t0 cand _ hpc =>
    have hround : s.task.comesRound router (.acquired false t0 next) = true := by
      simp [RouteTask.comesRound, hpc]
    rw [hacquire hpc, hround]
    rw [hpc] at hcurrent hlength
    cases hcurrent with
    | acquires hfresh =>
      rw [List.append_nil] at hacquires hcalls
      have hover := hrounds.concat_idle hfresh.1 hfresh.2 (Or.inl ⟨rfl, rfl⟩)
      rw [← hacquires, ← hcalls] at hover
      exact .comeRound next hover hiterations hlength (Nat.zero_le 2) _
  | @vendorMissing remaining t0 cand _ hpc hvendor =>
    have hround : s.task.comesRound router (.acquired true t0 next) = true := by
      simp [RouteTask.comesRound, hpc, hvendor]
    rw [hacquire hpc, hround]
    rw [hpc] at hcurrent hlength
    cases hcurrent with
    | acquires hfresh =>
      rw [List.append_nil] at hacquires hcalls
      have hover := hrounds.concat_idle hfresh.1 hfresh.2 (Or.inr ⟨rfl, hvendor, rfl⟩)
      rw [← hacquires, ← hcalls] at hover
      exact .comeRound next hover hiterations hlength (Nat.zero_le 2) _
  | @call remaining t0 cand _ hpc hvendor =>
    have hround : s.task.comesRound router (.acquired true t0 next) = false := by
      simp [RouteTask.comesRound, hpc, hvendor]
    rw [hacquire hpc, hround]
    rw [hpc] at hcurrent hlength
    cases hcurrent with
    | acquires hfresh =>
      rw [List.append_nil] at hacquires
      refine ⟨⟨acquires, _, calls, [], by rw [hacquires]; rfl, hcalls, hrounds,
        .calls hfresh hvendor⟩, hiterations, ?_⟩
      rw [List.length_append]
      exact Nat.succ_le_succ hlength

theorem Disciplined.replied (h : Disciplined router es s) {reply : Except ProviderError ChatResult}
    {now : ℚ} (hmoves : s.task.Moves router (.replied reply now) task) :
    Disciplined router (es ++ [.replied reply now]) (s.after router (.replied reply now) task) := by
  obtain ⟨⟨acquires, acquires', calls, calls', hacquires, hcalls, hrounds, hcurrent⟩, hiterations,
    hlength⟩ := h
  have hacquire : s.task.acquire? (.replied reply now) = none := by
    unfold RouteTask.acquire?
    split <;> trivial
  have hround : s.task.comesRound router (.replied reply now) = false := by
    unfold RouteTask.comesRound
    split <;> trivial
  rw [RouteLog.after, hacquire, hround, Option.toList_none, List.append_nil]
  cases hmoves with
  | callFailed hpc =>
    rw [hpc] at hcurrent hlength
    cases hcurrent with
    | calls hfresh hvendor =>
      rw [List.append_nil] at hcalls
      refine ⟨⟨acquires, _, calls, _, hacquires, by rw [← hcalls], hrounds,
        .fails hfresh rfl rfl⟩, hiterations, ?_⟩
      rw [List.length_append]
      exact Nat.succ_le_succ hlength
  | callUnrecorded hpc =>
    rw [hpc] at hcurrent hlength
    cases hcurrent with
    | calls hfresh hvendor =>
      rw [List.append_nil] at hcalls
      refine ⟨⟨acquires, _, calls, _, hacquires, by rw [← hcalls], hrounds,
        .breaksOff hfresh rfl⟩, hiterations, ?_⟩
      rw [List.length_append]
      exact Nat.le_succ_of_le (Nat.succ_le_succ hlength)
  | callOk hpc =>
    rw [hpc] at hcurrent hlength
    cases hcurrent with
    | calls hfresh hvendor =>
      rw [List.append_nil] at hcalls
      refine ⟨⟨acquires, _, calls, _, hacquires, by rw [← hcalls], hrounds,
        .succeeds hfresh rfl rfl⟩, hiterations, ?_⟩
      rw [List.length_append]
      exact Nat.succ_le_succ hlength

theorem Disciplined.recorded (h : Disciplined router es s) {next : Reading}
    (hmoves : s.task.Moves router (.recorded next.loopInput) task) :
    Disciplined router (es ++ [.recorded next]) (s.after router (.recorded next) task) := by
  obtain ⟨⟨acquires, acquires', calls, calls', hacquires, hcalls, hrounds, hcurrent⟩, hiterations,
    hlength⟩ := h
  have hacquire : s.task.acquire? (.recorded next) = none := by
    unfold RouteTask.acquire?
    split <;> trivial
  rw [RouteLog.after, hacquire, Option.toList_none, List.append_nil]
  cases hmoves with
  | giveUp hpc he =>
    have hround : s.task.comesRound router (.recorded next) = false := by
      simp [RouteTask.comesRound, hpc, he]
    rw [hround]
    rw [hpc] at hcurrent hlength
    cases hcurrent with
    | fails hfresh hcand hreply =>
      refine ⟨⟨acquires, _, calls, _, hacquires, hcalls, hrounds,
        .givesUp hfresh hcand hreply⟩, hiterations, ?_⟩
      rw [List.length_append]
      exact Nat.succ_le_succ hlength
  | retry hpc he =>
    have hround : s.task.comesRound router (.recorded next) = true := by
      simp [RouteTask.comesRound, hpc, he]
    rw [hround]
    rw [hpc] at hcurrent hlength
    cases hcurrent with
    | fails hfresh hcand hreply =>
      subst hcand
      have hover := hrounds.concat_failed hfresh.1 hfresh.2 hreply he
      rw [← hcalls] at hover
      rw [hacquires]
      exact .comeRound next hover hiterations hlength le_rfl _
  | answer hpc hresponse hattempts =>
    have hround : s.task.comesRound router (.recorded next) = false := by
      simp [RouteTask.comesRound, hpc]
    rw [hround]
    rw [hpc] at hcurrent hlength
    cases hcurrent with
    | succeeds hfresh hcand hreply =>
      subst hattempts
      obtain ⟨hprompt, hcompletion⟩ := response_usage hresponse
      refine ⟨⟨acquires, _, calls, _, hacquires, hcalls, hrounds,
        .answers hfresh hcand hreply rfl ⟨hprompt.symm, hcompletion.symm⟩⟩, hiterations, ?_⟩
      rw [List.length_append]
      exact Nat.succ_le_succ hlength
  | recordFails hpc | noMessage hpc =>
    have hround : s.task.comesRound router (.recorded next) = false := by
      simp [RouteTask.comesRound, hpc]
    rw [hround]
    rw [hpc] at hcurrent hlength
    cases hcurrent with
    | succeeds hfresh hcand hreply =>
      refine ⟨⟨acquires, _, calls, _, hacquires, hcalls, hrounds,
        .breaksOff hfresh hcand⟩, hiterations, ?_⟩
      rw [List.length_append]
      exact Nat.succ_le_succ hlength

/-- **Every step keeps the discipline.** -/
theorem Disciplined.step (h : Disciplined router es s) {event : FailoverEvent} {s' : RouteLog}
    (hstep : s.step router event = some s') : Disciplined router (es ++ [event]) s' := by
  obtain ⟨task, htask, rfl⟩ := Option.map_eq_some_iff.mp hstep
  have hmoves := RouteTask.moves_of_step htask
  cases event with
  | acquired ok t0 next => exact h.acquired hmoves
  | replied reply now => exact h.replied hmoves
  | recorded next => exact h.recorded hmoves

end Step

/-! ## 4. What the discipline says -/

/-- Only one acquire has the candidate. -/
theorem filter_cand_eq {a : Acquire} : ∀ {acquires : List Acquire},
    (acquires.map Acquire.cand).Nodup → a ∈ acquires →
      acquires.filter (fun b => b.cand = a.cand) = [a]
  | [], _, ha => by cases ha
  | b :: rest, hnodup, ha => by
    rw [List.map_cons, List.nodup_cons] at hnodup
    rcases List.mem_cons.mp ha with rfl | ha
    · rw [List.filter_cons_of_pos (by simp), List.filter_eq_nil_iff.mpr]
      intro c hc hsame
      rw [← of_decide_eq_true hsame] at hnodup
      exact hnodup.1 (List.mem_map_of_mem hc)
    · have hne : b.cand ≠ a.cand := fun hsame =>
        hnodup.1 (hsame ▸ List.mem_map_of_mem ha)
      rw [List.filter_cons_of_neg (by simpa using hne), filter_cand_eq hnodup.2 ha]

/-- The round has acquired at most one candidate, a fresh one. -/
theorem Current.tries {router : Router} {t : RouteTask} {pc : RoutePc} {acquires : List Acquire}
    {calls : List VendorCall} (h : Current router t pc acquires calls) :
    acquires.map Acquire.cand ++ pc.acquiring?.toList = [] ∨
      ∃ cand, Fresh router t cand ∧ acquires.map Acquire.cand ++ pc.acquiring?.toList = [cand] := by
  cases h with
  | leaves htried => exact Or.inl rfl
  | acquires hfresh | calls hfresh | fails hfresh | succeeds hfresh | givesUp hfresh
    | answers hfresh | breaksOff hfresh => exact Or.inr ⟨_, hfresh, rfl⟩

/-- It has called at most that one, after its acquire was accepted. -/
theorem Current.started {router : Router} {t : RouteTask} {pc : RoutePc} {acquires : List Acquire}
    {calls : List VendorCall} (h : Current router t pc acquires calls) :
    calls.map VendorCall.cand ++ pc.called?.toList = [] ∨
      ∃ cand, Fresh router t cand ∧ calls.map VendorCall.cand ++ pc.called?.toList = [cand] ∧
        acquires = [⟨cand, t.req.est, true⟩] := by
  cases h with
  | acquires hfresh => exact Or.inl rfl
  | leaves htried => exact Or.inl rfl
  | calls hfresh hvendor => exact Or.inr ⟨_, hfresh, rfl, rfl⟩
  | fails hfresh hcand | succeeds hfresh hcand | givesUp hfresh hcand | answers hfresh hcand
    | breaksOff hfresh hcand => exact Or.inr ⟨_, hfresh, by rw [← hcand]; rfl, rfl⟩

section Consequences

variable {router : Router} {es : List FailoverEvent} {s : RouteLog}

theorem Disciplined.bounded (h : Disciplined router es s) :
    s.iterations ≤ (router.tierRefs s.task.req.model).dedup.length + 1 ∧
      es.length ≤ 3 * ((router.tierRefs s.task.req.model).dedup.length + 1) := by
  obtain ⟨⟨_, _, _, _, -, -, hrounds, -⟩, hiterations, hlength⟩ := h
  have hrange := hrounds.length_le
  have hawaits : s.task.pc.awaits ≤ 3 := by
    cases s.task.pc <;> simp [RoutePc.awaits]
  omega

/-- No candidate is acquired twice. -/
theorem Disciplined.tries_nodup (h : Disciplined router es s) : s.tries.Nodup := by
  obtain ⟨⟨acquires, acquires', _, _, hacquires, -, hrounds, hcurrent⟩, -, -⟩ := h
  rw [RouteLog.tries, hacquires, List.map_append, List.append_assoc, hrounds.map_cand]
  rcases hcurrent.tries with hnone | ⟨cand, hfresh, hone⟩
  · rw [hnone, List.append_nil]
    exact hrounds.nodup
  · rw [hone]
    exact List.nodup_append'.mpr ⟨hrounds.nodup, List.nodup_singleton _,
      List.disjoint_singleton.mpr hfresh.1⟩

/-- No candidate is called twice. -/
theorem Disciplined.started_nodup (h : Disciplined router es s) : s.task.started.Nodup := by
  obtain ⟨⟨_, _, calls, calls', -, hcalls, hrounds, hcurrent⟩, -, -⟩ := h
  rw [RouteTask.started, hcalls, List.map_append, List.append_assoc]
  rcases hcurrent.started with hnone | ⟨cand, hfresh, hone, -⟩
  · rw [hnone, List.append_nil]
    exact hrounds.called
  · rw [hone]
    refine List.nodup_append'.mpr ⟨hrounds.called, List.nodup_singleton _,
      List.disjoint_singleton.mpr fun hmem => ?_⟩
    obtain ⟨call, hcall, rfl⟩ := List.mem_map.mp hmem
    exact hfresh.1 (hrounds.cand_mem hcall)

/-- What is called was acquired once before, with the tokens of the request. -/
theorem Disciplined.acquired_of_started (h : Disciplined router es s) {cand : CandidateRef}
    (hcand : cand ∈ s.task.started) :
    s.acquires.filter (fun a => a.cand = cand) = [⟨cand, s.task.req.est, true⟩] := by
  have hnodup : (s.acquires.map Acquire.cand).Nodup := (List.nodup_append.mp h.tries_nodup).1
  obtain ⟨⟨acquires, acquires', calls, calls', hacquires, hcalls, hrounds, hcurrent⟩, -, -⟩ := h
  refine filter_cand_eq (a := ⟨cand, s.task.req.est, true⟩) hnodup ?_
  rw [RouteTask.started, hcalls, List.map_append, List.append_assoc] at hcand
  rw [hacquires]
  rcases List.mem_append.mp hcand with hold | hnew
  · obtain ⟨call, hcall, rfl⟩ := List.mem_map.mp hold
    exact List.mem_append_left _ (hrounds.accepted call hcall)
  · rcases hcurrent.started with hnone | ⟨c, -, hone, rfl⟩
    · rw [hnone] at hnew
      cases hnew
    · rw [hone, List.mem_singleton] at hnew
      rw [hnew]
      exact List.mem_append_right _ (List.mem_singleton_self _)

/-- After an error that is no matter of the provider, nothing more is called. -/
theorem Disciplined.last_of_nonRetryable (h : Disciplined router es s)
    {before after : List VendorCall}
    {call : VendorCall} {e : ProviderError} (hsplit : s.task.calls = before ++ call :: after)
    (hreply : call.reply = .error e) (he : e.nonRetryable = true) :
    after = [] ∧ s.task.pc.called? = none := by
  obtain ⟨⟨_, _, calls, calls', -, hcalls, hrounds, hcurrent⟩, -, -⟩ := h
  -- it was not in a round that is over
  have hnew : call ∉ calls := by
    intro hmem
    obtain ⟨e', hreply', he'⟩ := hrounds.failed call hmem
    rw [hreply] at hreply'
    cases hreply'
    rw [he] at he'
    cases he'
  have hne : calls' ≠ [] := by
    rintro rfl
    rw [List.append_nil, hsplit] at hcalls
    exact hnew (hcalls ▸ List.mem_append_right _ List.mem_cons_self)
  have hsingle : ∃ other, calls' = [other] ∧ s.task.pc.called? = none := by
    generalize s.task.pc = pc at hcurrent ⊢
    cases hcurrent with
    | acquires | leaves | calls => exact absurd rfl hne
    | fails | succeeds | givesUp | answers | breaksOff => exact ⟨_, rfl, rfl⟩
  obtain ⟨other, rfl, hcalled⟩ := hsingle
  refine ⟨?_, hcalled⟩
  rcases List.eq_nil_or_concat after with rfl | ⟨front, last, rfl⟩
  · rfl
  · -- otherwise it would have been
    have hshift : (before ++ call :: front) ++ [last] = calls ++ [other] := by
      rw [← hcalls, hsplit]
      simp
    obtain ⟨hfront, -⟩ := List.append_inj' hshift rfl
    exact absurd (hfront ▸ List.mem_append_right _ List.mem_cons_self) hnew

/-- **A `RouterError` tells** which candidates were acquired, and why each was given up. -/
theorem Disciplined.tried_of_raised (h : Disciplined router es s) {error : RouterError}
    (hpc : s.task.pc = .finished (.raised error)) : (error.tried.map Prod.fst).Nodup ∧
      List.Forall₂ (GivenUp router s.task.req.est s.task.calls) s.acquires error.tried := by
  obtain ⟨⟨acquires, acquires', calls, calls', hacquires, hcalls, hrounds, hcurrent⟩, -, -⟩ := h
  rw [hacquires, hcalls]
  rw [hpc] at hcurrent
  cases hcurrent with
  | leaves htried =>
    rw [htried, List.append_nil, List.append_nil, hrounds.exclude_eq]
    exact ⟨hrounds.nodup, hrounds.givenUp⟩
  | @givesUp cand e call hfresh hcand hreply =>
    have hgiven : GivenUp router s.task.req.est (calls ++ [call]) ⟨cand, s.task.req.est, true⟩
        (cand, e.status) :=
      ⟨rfl, rfl, Or.inr (Or.inr ⟨rfl, call, List.mem_concat_self, e, hcand, hreply, rfl⟩)⟩
    refine ⟨?_, List.rel_append (hrounds.givenUp.imp fun _ _ h => h.mono) (.cons hgiven .nil)⟩
    show ((s.task.tried ++ [(cand, e.status)]).map Prod.fst).Nodup
    rw [List.map_append, hrounds.exclude_eq]
    exact List.nodup_append'.mpr ⟨hrounds.nodup, List.nodup_singleton _,
      List.disjoint_singleton.mpr hfresh.1⟩

end Consequences

/-! ## 5. The attempts of an answer -/

/-- The statuses of the errors after which the next candidate gets a try. -/
def retryableStatuses : List String := ["rate_limited", "transient_5xx", "timeout"]

theorem status_of_retryable {e : ProviderError} (he : e.nonRetryable = false) :
    e.status ∈ retryableStatuses := by
  obtain ⟨cls, exact, typeName⟩ := e
  cases cls with
  | badRequest | authError | contentFiltered => cases he
  | providerError | rateLimited | transient5xx | timeout =>
    cases exact <;> simp [ProviderError.status, statusForErrorKind, retryableStatuses]

/-- The attempts of a `RouterResult`. -/
structure AttemptsInOrder (req : ChatCompletionRequest) (caller : Caller) (requestId : String)
    (response : ChatCompletionResponse) (attempts : List AttemptRecord) : Prop where
  indices : attempts.map AttemptRecord.attemptIdx = List.range attempts.length
  shared : ∀ a ∈ attempts,
    a.requestId = requestId ∧ a.caller = caller.name ∧ a.tier = req.model
  distinct : (attempts.map fun a => (a.provider, a.model)).Nodup
  last : ∃ earlier final, attempts = earlier ++ [final] ∧
    (∀ a ∈ earlier, a.status ∈ retryableStatuses) ∧ final.status = "ok" ∧
    final.inputTokens = response.usage.promptTokens ∧
    final.outputTokens = response.usage.completionTokens

/-- What the records of one call of `route` have in common. -/
def RouteTask.Stamped (t : RouteTask) : Prop :=
  ∀ a ∈ t.attempts, a.requestId = t.requestId ∧ a.caller = t.caller.name ∧ a.tier = t.req.model

theorem RouteTask.Stamped.step {router : Router} {t t' : RouteTask} {event : RouteEvent}
    (h : t.Stamped) (hstep : t.step router event = some t') : t'.Stamped := by
  cases moves_of_step hstep with
  | crash | bucketEmpty | vendorMissing | call | callUnrecorded | callOk | giveUp | retry
    | recordFails => exact h
  | callFailed hpc =>
    exact List.forall_mem_append.mpr ⟨h, List.forall_mem_singleton.mpr ⟨rfl, rfl, rfl⟩⟩
  | answer hpc hresponse hattempts | noMessage hpc hresponse hattempts =>
    subst hattempts
    exact List.forall_mem_append.mpr ⟨h, List.forall_mem_singleton.mpr ⟨rfl, rfl, rfl⟩⟩

/-- The index of a record is its place. -/
theorem Accounted.indices {calls : List VendorCall} {attempts : List AttemptRecord}
    (h : Accounted calls attempts) :
    attempts.map AttemptRecord.attemptIdx = List.range attempts.length := by
  rw [h.length_eq, List.range_eq_range', ← List.zipIdx_map_snd]
  rw [Accounted, List.mapIdx_eq_zipIdx_map] at h
  have hfirst := congrArg (List.map Prod.fst) h
  rwa [List.map_map, List.map_map] at hfirst

/-- The candidate of a record is that of its call, and so is the status. -/
theorem Accounted.cands {calls : List VendorCall} {attempts : List AttemptRecord}
    (h : Accounted calls attempts) : attempts.map (fun a => ((a.provider, a.model), a.status)) =
      calls.map fun c => ((c.cand.provider, c.cand.model), c.status) := by
  rw [Accounted, List.mapIdx_eq_zipIdx_map] at h
  have hrest := congrArg (List.map fun t => ((t.2.1, t.2.2.1), t.2.2.2)) h
  rw [List.map_map, List.map_map] at hrest
  have hcalls : calls.map (fun c => ((c.cand.provider, c.cand.model), c.status)) =
      (calls.zipIdx.map Prod.fst).map fun c => ((c.cand.provider, c.cand.model), c.status) := by
    rw [List.zipIdx_map_fst]
  rw [hcalls, List.map_map]
  exact hrest

/-- **An answer** comes with its attempts in order. -/
theorem Disciplined.attempts_of_returned {router : Router} {es : List FailoverEvent} {s : RouteLog}
    (h : Disciplined router es s) (hrecorded : s.task.Recorded) (hstamped : s.task.Stamped)
    {response : ChatCompletionResponse} {attempts : List AttemptRecord}
    (hpc : s.task.pc = .finished (.returned response attempts)) :
    AttemptsInOrder s.task.req s.task.caller s.task.requestId response attempts := by
  have hstarted := h.started_nodup
  obtain ⟨⟨_, _, calls, calls', -, hcalls, hrounds, hcurrent⟩, -, -⟩ := h
  simp only [RouteTask.Recorded, hpc] at hrecorded
  rw [hpc] at hcurrent
  obtain ⟨haccounted, -⟩ := hrecorded
  have hcands := haccounted.cands
  cases hcurrent with
  | @answers cand result call _ earlier final hfresh hcand hreply hattempts htokens =>
    have hdistinct : ((earlier ++ [final]).map fun a => (a.provider, a.model)).Nodup := by
      have hpairs := congrArg (List.map Prod.fst) hcands
      rw [List.map_map, List.map_map] at hpairs
      have hsame : (earlier ++ [final]).map (fun a => (a.provider, a.model)) =
          (s.task.calls.map VendorCall.cand).map fun c => (c.provider, c.model) := by
        rw [List.map_map]
        exact hpairs
      rw [hsame]
      refine ((List.nodup_append.mp hstarted).1).map fun c c' heq => ?_
      obtain ⟨hprovider, hmodel⟩ := Prod.mk.inj heq
      cases c
      cases c'
      simp_all
    -- the records of the rounds that are over, and the last one
    rw [hcalls, List.map_append, List.map_append] at hcands
    obtain ⟨hearlier, hfinal⟩ := List.append_inj' hcands rfl
    have hok : final.status = "ok" := by
      have hstatus : final.status = call.status := (Prod.mk.inj (List.cons.inj hfinal).1).2
      rw [hstatus, VendorCall.status, hreply]
    refine ⟨haccounted.indices, fun a ha => hstamped a (hattempts ▸ ha), hdistinct, earlier, final,
      rfl, fun a ha => ?_, hok, htokens⟩
    have hmem : ((a.provider, a.model), a.status) ∈
        calls.map fun c => ((c.cand.provider, c.cand.model), c.status) := by
      rw [← hearlier]
      exact List.mem_map_of_mem ha
    obtain ⟨old, hold, heq⟩ := List.mem_map.mp hmem
    obtain ⟨e, hfailed, he⟩ := hrounds.failed old hold
    rw [← (Prod.mk.inj heq).2, VendorCall.status, hfailed]
    exact status_of_retryable he

/-! ## 6. Every run -/

/-- What holds of a call of `route` in every run. -/
structure LogInv (router : Router) (req : ChatCompletionRequest) (caller : Caller)
    (requestId : String) (es : List FailoverEvent) (s : RouteLog) : Prop where
  disciplined : Disciplined router es s
  recorded : s.task.Recorded
  stamped : s.task.Stamped
  frame : s.task.req = req ∧ s.task.caller = caller ∧ s.task.requestId = requestId

theorem logInv_of_run {router : Router} {req : ChatCompletionRequest} {caller : Caller}
    {requestId : String} {now : ℚ} {first : Reading} {es : List FailoverEvent} {s : RouteLog}
    (hrun : Runs.run (RouteLog.step router)
      (RouteLog.begin router req caller requestId now first) es = some s) :
    LogInv router req caller requestId es s := by
  have hbegin : LogInv router req caller requestId []
      (RouteLog.begin router req caller requestId now first) := by
    refine ⟨disciplined_begin _ _ _ _ _ _, router.recorded_begin _ _ _ _ _, ?_, ?_⟩
    · unfold RouteLog.begin Router.begin
      split <;> exact List.forall_mem_nil _
    · unfold RouteLog.begin Router.begin
      split <;> exact ⟨rfl, rfl, rfl⟩
  refine Runs.invariant _ hbegin (fun es s event s' h hstep => ?_) hrun
  obtain ⟨task, htask, rfl⟩ := Option.map_eq_some_iff.mp hstep
  obtain ⟨hreq, hcaller, hrequestId, -⟩ := RouteTask.frame_step htask
  exact ⟨h.disciplined.step hstep, h.recorded.step htask, h.stamped.step htask,
    hreq.trans h.frame.1, hcaller.trans h.frame.2.1, hrequestId.trans h.frame.2.2⟩

/-- **The failover loop is disciplined.**  It comes round at most once more than the tier has
candidates; what is called was acquired once, with the tokens of the request; nothing is acquired or
called twice; nothing is called after an error that is no matter of the provider; an answer comes
with its attempts in order; and a `RouterError` tells why each candidate was given up. -/
theorem failover_disciplined (router : Router) (req : ChatCompletionRequest) (caller : Caller)
    (requestId : String) (now : ℚ) (first : Reading) {es : List FailoverEvent} {s : RouteLog}
    (hrun : Runs.run (RouteLog.step router)
      (RouteLog.begin router req caller requestId now first) es = some s) :
    (s.iterations ≤ (router.tierRefs req.model).dedup.length + 1 ∧
      es.length ≤ 3 * ((router.tierRefs req.model).dedup.length + 1)) ∧
    (∀ cand ∈ s.task.started,
      s.acquires.filter (fun a => a.cand = cand) = [⟨cand, req.est, true⟩]) ∧
    (s.tries.Nodup ∧ s.task.started.Nodup) ∧
    (∀ before call after e, s.task.calls = before ++ call :: after → call.reply = .error e →
      e.nonRetryable = true → after = [] ∧ s.task.pc.called? = none) ∧
    (∀ response attempts, s.task.pc = .finished (.returned response attempts) →
      AttemptsInOrder req caller requestId response attempts) ∧
    ∀ error, s.task.pc = .finished (.raised error) → (error.tried.map Prod.fst).Nodup ∧
      List.Forall₂ (GivenUp router req.est s.task.calls) s.acquires error.tried := by
  obtain ⟨h, hrecorded, hstamped, rfl, rfl, rfl⟩ := logInv_of_run hrun
  refine ⟨h.bounded, fun cand hcand => h.acquired_of_started hcand,
    ⟨h.tries_nodup, h.started_nodup⟩, ?_, ?_, ?_⟩
  · intro before call after e hsplit hreply he
    exact h.last_of_nonRetryable hsplit hreply he
  · intro response attempts hpc
    exact h.attempts_of_returned hrecorded hstamped hpc
  · intro error hpc
    exact h.tried_of_raised hpc

/-- Time 0, with the only candidate healthy and its bucket full. -/
def healthyReading : Reading where
  now := 0
  engine := ⟨RoutingConfig.default, Dict.ofList [(⟨"openai", "gpt-4o-mini"⟩,
    ⟨1, 0, 0, 1000, 1000, 100000, 100000, .closed⟩)]⟩
  draw := zeroDraw

/-- The candidate answers. -/
def answeredEvents : List FailoverEvent :=
  [.acquired true 0 healthyReading,
    .replied (.ok { text := "hello", inputTokens := 1, outputTokens := 2 }) 1,
    .recorded healthyReading]

/-- The call has returned a response. -/
def RoutePc.isReturned : RoutePc → Bool
  | .finished (.returned _ _) => true
  | _ => false

theorem RoutePc.exists_of_isReturned {pc : RoutePc} (h : pc.isReturned = true) :
    ∃ response attempts, pc = .finished (.returned response attempts) := by
  cases pc with
  | finished outcome =>
    cases outcome with
    | returned response attempts => exact ⟨response, attempts, rfl⟩
    | _ => cases h
  | _ => cases h

theorem failover_disciplined_answered : ∃ s response attempts, Runs.run (RouteLog.step soleRouter)
    (RouteLog.begin soleRouter hiRequest webCaller "r1" 0 healthyReading) answeredEvents = some s ∧
    s.task.pc = .finished (.returned response attempts) ∧
    AttemptsInOrder hiRequest webCaller "r1" response attempts := by
  have hend : (Runs.run (RouteLog.step soleRouter)
      (RouteLog.begin soleRouter hiRequest webCaller "r1" 0 healthyReading) answeredEvents).any
      (fun s => s.task.pc.isReturned) = true := by
    decide +kernel
  obtain ⟨s, hrun, hend⟩ := (Option.any_eq_true _ _).mp hend
  obtain ⟨response, attempts, hpc⟩ := RoutePc.exists_of_isReturned hend
  obtain ⟨-, -, -, -, hreturned, -⟩ :=
    failover_disciplined soleRouter hiRequest webCaller "r1" 0 healthyReading hrun
  exact ⟨s, response, attempts, hrun, hpc, hreturned response attempts hpc⟩

end Librouter
