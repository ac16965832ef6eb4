/-
# `REQUESTS_TOTAL`, `ATTEMPTS_TOTAL` and `COST_USD_TOTAL`

`chat_completions` increments them when `route` has ended, before it enqueues the records.  An `inc`
of a Prometheus counter with a negative amount raises, so a cost below zero would turn an answer
into a 500 with some of its records not enqueued.

`counters_reconcile` says that this does not happen in any run of the ledger, and what a scrape
shows: the counters are sums over the records that were enqueued.  Together with the records that
are not in the table they are what the table has gained.
-/
import Librouter.App.Usage

namespace Librouter

/-! ## 1. Counters -/

/-- The three counters, by their labels. -/
structure GatewayCounters where
  /-- `caller`, `tier`, `outcome` -/
  requestsTotal : String × String × String → ℕ := fun _ => 0
  /-- `provider`, `model`, `status` -/
  attemptsTotal : String × String × String → ℕ := fun _ => 0
  /-- `caller`, `tier`, `provider` -/
  costUsdTotal : String × String × String → ℚ := fun _ => 0

/-- `RouterErrorKind.value`. -/
def RouterErrorKind.value : RouterErrorKind → String
  | .invalidRequest => "invalid_request"
  | .auth => "auth"
  | .upstreamUnavailable => "upstream_unavailable"
  | .deadlineExceeded => "deadline_exceeded"

namespace GatewayCounters

/-- `REQUESTS_TOTAL.labels(...).inc()`. -/
def request (c : GatewayCounters) (caller tier outcome : String) : GatewayCounters :=
  let labels := (caller, tier, outcome)
  { c with requestsTotal := Function.update c.requestsTotal labels (c.requestsTotal labels + 1) }

/-- What is counted for one of the records of a result; `inc` raises for a negative amount. -/
def attempt (caller tier : String) (c : GatewayCounters) (a : AttemptRecord) :
    Option GatewayCounters :=
  let labels := (a.provider, a.model, a.status)
  let spender := (caller, tier, a.provider)
  let counted : GatewayCounters :=
    { c with attemptsTotal := Function.update c.attemptsTotal labels (c.attemptsTotal labels + 1) }
  if a.status = "ok" then
    if a.costUsd < 0 then none
    else some { counted with
      costUsdTotal := Function.update c.costUsdTotal spender (c.costUsdTotal spender + a.costUsd) }
  else some counted

/-- What `chat_completions` counts when `route` has ended: `none` when an `inc` raises. -/
def routeEnded (c : GatewayCounters) (caller tier : String) : RouteOutcome → Option GatewayCounters
  | .returned _ attempts => attempts.foldlM (attempt caller tier) (c.request caller tier "ok")
  | .raised error => some (c.request caller tier error.kind.value)
  | .crashed => some c

end GatewayCounters

/-- How `route` ended, if it has. -/
def RouteTask.outcome? (t : RouteTask) : Option RouteOutcome :=
  match t.pc with
  | .finished outcome => some outcome
  | _ => none

/-- For whom `route` ends in an event, and how. -/
def ChatTask.routeEnd (router : Router) (c : ChatTask) (event : ChatEvent) :
    Option (Caller × RouteOutcome) :=
  match c.pc, event with
  | .resolving, .resolved (some caller) input =>
    if caller.dailyTokenCap = none then
      (router.begin c.body caller input.requestId input.now input.next).outcome?.map (caller, ·)
    else none
  | .checkingCap caller cap, .tokensUsed used input =>
    if cap ≤ used then none
    else (router.begin c.body caller input.requestId input.now input.next).outcome?.map (caller, ·)
  | .routing task, .route event =>
    (task.step router event).bind fun task' => task'.outcome?.map (task.caller, ·)
  | _, _ => none

/-- The ledger, and the counters: `none` once an `inc` has raised. -/
structure CountedLedger where
  ledger : LedgerState
  counters : Option GatewayCounters := some {}

namespace Ledger

variable (ledger : Ledger)

/-- The request that goes on, and how its `route` ends in the event. -/
def routeEnd (s : LedgerState) (e : LedgerEvent) : Option (ChatTask × Caller × RouteOutcome) :=
  match e.action with
  | .chat i event => (s.requests[i]?).bind fun r =>
    (r.chat.routeEnd ledger.router event).map fun ended => (r.chat, ended)
  | _ => none

/-- One event, with what is counted. -/
def stepCounted (s : CountedLedger) (e : LedgerEvent) : Option CountedLedger :=
  (ledger.step s.ledger e).map fun l =>
    { ledger := l
      counters := match ledger.routeEnd s.ledger e with
        | some (chat, caller, outcome) =>
          s.counters.bind fun c => c.routeEnded caller.name chat.body.model outcome
        | none => s.counters }

/-- The process starts: all counters are zero. -/
def bootCounted (now : ℚ) (rows : List RequestRow) : CountedLedger := { ledger := boot now rows }

end Ledger

/-! ## 2. The records of a result -/

/-- A record of a failed attempt for this caller and tier: it cost nothing. -/
structure AttemptRecord.Failed (caller tier : String) (rec : AttemptRecord) : Prop where
  caller_eq : rec.caller = caller
  tier_eq : rec.tier = tier
  status_ne : rec.status ≠ "ok"
  cost_eq : rec.costUsd = 0

/-- The record of the attempt that was answered. -/
structure AttemptRecord.Answered (caller tier : String) (rec : AttemptRecord) : Prop where
  caller_eq : rec.caller = caller
  tier_eq : rec.tier = tier
  status_eq : rec.status = "ok"
  cost_nonneg : 0 ≤ rec.costUsd

/-- The records of a result: failed attempts, and the one that was answered. -/
def RouteOutcome.Itemized (caller tier : String) : RouteOutcome → Prop
  | .returned _ attempts => ∃ failed last, attempts = failed ++ [last] ∧
      (∀ rec ∈ failed, rec.Failed caller tier) ∧ last.Answered caller tier
  | .raised _ => True
  | .crashed => True

/-- The records of the call so far. -/
def RouteTask.Itemized (t : RouteTask) : Prop :=
  match t.pc with
  | .finished outcome => outcome.Itemized t.caller.name t.req.model
  | _ => ∀ rec ∈ t.attempts, rec.Failed t.caller.name t.req.model

theorem ProviderError.status_ne_ok (e : ProviderError) : e.status ≠ "ok" := by
  unfold status
  split
  · cases e.cls <;> decide
  · decide

/-- A record that is not refused has no negative cost. -/
theorem Router.costUsd_nonneg {router : Router} {provider model : String}
    {inputTokens outputTokens : ℕ} {req : ChatCompletionRequest}
    (h : router.recordRaises req provider model inputTokens outputTokens = false) :
    0 ≤ router.costUsd provider model inputTokens outputTokens := by
  obtain ⟨h, -⟩ := Bool.or_eq_false_iff.mp h
  cases hprice : router.pricing.contains (provider, model) with
  | true =>
    rw [hprice] at h
    simp only [Bool.true_and, Bool.or_eq_false_iff, decide_eq_false_iff_not, not_lt] at h
    exact h.2
  | false =>
    unfold costUsd
    have hnone : router.pricing.get? (provider, model) = none :=
      Dict.get?_eq_none_iff.mpr fun hkey => by simp [Dict.contains_iff.mpr hkey] at hprice
    rw [hnone]

theorem RouteTask.itemized_loopTop (router : Router) {t : RouteTask} (input : LoopInput)
    (h : ∀ rec ∈ t.attempts, rec.Failed t.caller.name t.req.model) :
    (router.loopTop t input).Itemized := by
  rcases router.loopTop_cases t input with ⟨error, -, heq⟩ | ⟨cand, -, -, heq⟩
  · rw [heq]
    trivial
  · rw [heq]
    exact h

theorem RouteTask.itemized_begin (router : Router) (req : ChatCompletionRequest) (caller : Caller)
    (requestId : String) (now : ℚ) (input : LoopInput) :
    (router.begin req caller requestId now input).Itemized := by
  unfold Router.begin
  dsimp only
  split
  · exact itemized_loopTop router input fun rec hrec => absurd hrec List.not_mem_nil
  · trivial

/-- **Every step of `route` keeps the records itemized.** -/
theorem RouteTask.Itemized.step {router : Router} {t t' : RouteTask} {event : RouteEvent}
    (h : t.Itemized) (hstep : t.step router event = some t') : t'.Itemized := by
  cases moves_of_step hstep with
  | crash | giveUp | callUnrecorded | recordFails | noMessage => trivial
  | bucketEmpty hpc | vendorMissing hpc | retry hpc =>
    simp only [Itemized, hpc] at h
    exact itemized_loopTop router _ h
  | call hpc | callOk hpc =>
    simp only [Itemized, hpc] at h
    exact h
  | @callFailed t0 attemptTimeout now cand e hpc htrace =>
    simp only [Itemized, hpc] at h
    refine List.forall_mem_append.mpr ⟨h, List.forall_mem_singleton.mpr ?_⟩
    exact ⟨rfl, rfl, e.status_ne_ok, router.costUsd_zero _ _⟩
  | @answer cand elapsed result next response attempts hpc hresponse hattempts hrecord =>
    simp only [Itemized, hpc] at h
    exact ⟨t.attempts, _, hattempts, h, rfl, rfl, rfl, Router.costUsd_nonneg hrecord⟩

/-! ## 3. A request -/

/-- The request in `route` runs with its body. -/
def ChatTask.Itemized (c : ChatTask) : Prop :=
  match c.pc with
  | .routing t => t.req = c.body ∧ t.Itemized
  | _ => True

/-- What an event enqueues is what the end of `route` carries. -/
structure ChatTask.Ends (router : Router) (c : ChatTask) (event : ChatEvent) (c' : ChatTask) :
    Prop where
  itemized : c'.Itemized
  enqueued : c'.enqueued =
    c.enqueued ++ ((c.routeEnd router event).map fun ended => ended.2.enqueues).getD []
  outcome : ∀ ended ∈ c.routeEnd router event, ended.2.Itemized ended.1.name c.body.model

/-- `route` goes on, or ends. -/
theorem ChatTask.proceed_ends {c : ChatTask} {task : RouteTask} (hreq : task.req = c.body)
    (h : task.Itemized) :
    (c.proceed task).Itemized ∧
      (c.proceed task).enqueued = c.enqueued ++ (task.outcome?.map RouteOutcome.enqueues).getD [] ∧
      ∀ outcome ∈ task.outcome?, outcome.Itemized task.caller.name c.body.model := by
  unfold proceed RouteTask.outcome?
  unfold RouteTask.Itemized at h
  cases hpc : task.pc with
  | finished outcome =>
    rw [hpc] at h
    refine ⟨trivial, rfl, fun outcome' houtcome => ?_⟩
    obtain rfl := Option.some.inj houtcome
    rwa [← hreq]
  | acquiring | chatting | recordingFailure | recordingSuccess =>
    rw [hpc] at h
    refine ⟨⟨hreq, ?_⟩, (List.append_nil _).symm, nofun⟩
    unfold RouteTask.Itemized
    rw [hpc]
    exact h

theorem Router.begin_req (router : Router) (req : ChatCompletionRequest) (caller : Caller)
    (requestId : String) (now : ℚ) (input : LoopInput) :
    (router.begin req caller requestId now input).req = req := by
  unfold Router.begin
  dsimp only
  split <;> rfl

theorem ChatTask.ends_of_none {router : Router} {c c' : ChatTask} {event : ChatEvent}
    (hend : c.routeEnd router event = none) (hitemized : c'.Itemized)
    (henqueued : c'.enqueued = c.enqueued) : c.Ends router event c' := by
  refine ⟨hitemized, ?_, by simp [hend]⟩
  rw [henqueued, hend]
  exact (List.append_nil _).symm

theorem ChatTask.enter_ends (router : Router) (c : ChatTask) (caller : Caller) (input : RouteInput)
    {event : ChatEvent} (hend : c.routeEnd router event =
      (router.begin c.body caller input.requestId input.now input.next).outcome?.map (caller, ·)) :
    c.Ends router event (c.enter router caller input) := by
  obtain ⟨hitemized, henqueued, houtcome⟩ := proceed_ends
    (router.begin_req c.body caller input.requestId input.now input.next)
    (RouteTask.itemized_begin router c.body caller input.requestId input.now input.next)
  refine ⟨hitemized, henqueued.trans ?_, fun ended hended => ?_⟩
  · rw [hend, Option.map_map]
    rfl
  · rw [hend] at hended
    obtain ⟨outcome, hmem, rfl⟩ := Option.map_eq_some_iff.mp hended
    have hcaller := router.begin_caller c.body caller input.requestId input.now input.next
    exact hcaller ▸ houtcome outcome hmem

/-- **Every step of a request enqueues the records of the `route` that ends in it.** -/
theorem ChatTask.Itemized.step {router : Router} {c c' : ChatTask} {event : ChatEvent}
    (h : c.Itemized) (hstep : c.step router event = some c') : c.Ends router event c' := by
  cases moves_of_step hstep with
  | noCaller hpc | resolveFails hpc | usageFails hpc =>
    exact ends_of_none (by simp only [routeEnd, hpc]) trivial rfl
  | capped hpc hcap =>
    exact ends_of_none (by simp only [routeEnd, hpc, hcap, reduceCtorEq, if_false]) trivial rfl
  | exhausted hpc hused =>
    exact ends_of_none (by simp only [routeEnd, hpc, hused, if_true]) trivial rfl
  | uncapped hpc hcap => exact enter_ends router c _ _ (by simp only [routeEnd, hpc, hcap, if_true])
  | underCap hpc hused =>
    exact enter_ends router c _ _ (by simp only [routeEnd, hpc, not_le.mpr hused, if_false])
  | @route task task' event hpc htask =>
    simp only [Itemized, hpc] at h
    obtain ⟨hreq, hcaller, -, -⟩ := RouteTask.frame_step htask
    obtain ⟨hitemized, henqueued, houtcome⟩ :=
      proceed_ends (hreq.trans h.1) (h.2.step htask)
    have hend : c.routeEnd router (.route event) = task'.outcome?.map (task.caller, ·) := by
      simp only [routeEnd, hpc, htask, Option.bind_some]
    refine ⟨hitemized, henqueued.trans ?_, fun ended hended => ?_⟩
    · rw [hend, Option.map_map]
      rfl
    · rw [hend] at hended
      obtain ⟨outcome, hmem, rfl⟩ := Option.map_eq_some_iff.mp hended
      exact hcaller ▸ houtcome outcome hmem

/-! ## 4. What is counted -/

/-- The record counts for these labels of `ATTEMPTS_TOTAL`. -/
def AttemptRecord.labelled (provider model status : String) (rec : AttemptRecord) : Bool :=
  (rec.provider, rec.model, rec.status) = (provider, model, status)

/-- The record counts for these labels of `COST_USD_TOTAL`. -/
def AttemptRecord.spentBy (caller tier provider : String) (rec : AttemptRecord) : Bool :=
  (rec.caller, rec.tier, rec.provider) = (caller, tier, provider)

/-- The record is the last one of an answer to this caller in this tier. -/
def AttemptRecord.answers (caller tier : String) (rec : AttemptRecord) : Bool :=
  (rec.caller, rec.tier, rec.status) = (caller, tier, "ok")

/-- The cost of the records with these labels. -/
def spent (recs : List AttemptRecord) (caller tier provider : String) : ℚ :=
  ((recs.filter (AttemptRecord.spentBy caller tier provider)).map AttemptRecord.costUsd).sum

theorem spent_append (recs recs' : List AttemptRecord) (caller tier provider : String) :
    spent (recs ++ recs') caller tier provider =
      spent recs caller tier provider + spent recs' caller tier provider := by
  simp [spent]

theorem spent_perm {recs recs' : List AttemptRecord} (h : recs.Perm recs')
    (caller tier provider : String) :
    spent recs caller tier provider = spent recs' caller tier provider :=
  ((h.filter _).map _).sum_eq

/-- The counters of attempts and costs are those of these records. -/
structure GatewayCounters.Tallies (c : GatewayCounters) (recs : List AttemptRecord) : Prop where
  attempts : ∀ provider model status, c.attemptsTotal (provider, model, status) =
    recs.countP (AttemptRecord.labelled provider model status)
  cost : ∀ caller tier provider, c.costUsdTotal (caller, tier, provider) =
    spent recs caller tier provider

namespace GatewayCounters

variable {c c' : GatewayCounters} {recs : List AttemptRecord} {caller tier : String}

theorem request_ok (c : GatewayCounters) (caller tier caller' tier' : String) :
    (c.request caller tier "ok").requestsTotal (caller', tier', "ok") =
      c.requestsTotal (caller', tier', "ok") +
        if (caller, tier) = (caller', tier') then 1 else 0 := by
  unfold request
  by_cases h : (caller, tier) = (caller', tier')
  · obtain ⟨rfl, rfl⟩ := Prod.mk.inj h
    simp
  · have hne : (caller', tier', "ok") ≠ (caller, tier, "ok") := by
      intro heq
      simp only [Prod.mk.injEq, and_true] at heq
      exact h (by rw [heq.1, heq.2])
    simp [Function.update_of_ne hne, h]

theorem request_raised (c : GatewayCounters) (caller tier caller' tier' : String)
    (kind : RouterErrorKind) :
    (c.request caller tier kind.value).requestsTotal (caller', tier', "ok") =
      c.requestsTotal (caller', tier', "ok") := by
  have hne : (caller', tier', "ok") ≠ (caller, tier, kind.value) := by
    intro heq
    have hok : "ok" = kind.value := (Prod.mk.inj (Prod.mk.inj heq).2).2
    cases kind <;> revert hok <;> decide
  exact Function.update_of_ne hne _ _

/-- **One record of a result is counted**, and no `inc` raises. -/
theorem Tallies.attempt (h : c.Tallies recs) {rec : AttemptRecord}
    (hrec : rec.Failed caller tier ∨ rec.Answered caller tier) :
    ∃ c', c.attempt caller tier rec = some c' ∧ c'.requestsTotal = c.requestsTotal ∧
      c'.Tallies (recs ++ [rec]) := by
  have hattempts : ∀ provider model status,
      Function.update c.attemptsTotal (rec.provider, rec.model, rec.status)
        (c.attemptsTotal (rec.provider, rec.model, rec.status) + 1) (provider, model, status) =
      (recs ++ [rec]).countP (AttemptRecord.labelled provider model status) := by
    intro provider model status
    rw [List.countP_append, List.countP_singleton, ← h.attempts]
    by_cases heq : (rec.provider, rec.model, rec.status) = (provider, model, status)
    · rw [heq, Function.update_self, if_pos (by simpa [AttemptRecord.labelled] using heq)]
    · rw [Function.update_of_ne (Ne.symm heq),
        if_neg (by simpa [AttemptRecord.labelled] using heq), Nat.add_zero]
  rcases hrec with hfailed | hanswered
  · refine ⟨_, if_neg hfailed.status_ne, rfl, hattempts, fun caller' tier' provider => ?_⟩
    have hzero : spent [rec] caller' tier' provider = 0 := by
      unfold spent
      rw [List.filter_singleton]
      cases rec.spentBy caller' tier' provider <;> simp [hfailed.cost_eq]
    rw [spent_append, hzero, add_zero]
    exact h.cost caller' tier' provider
  · refine ⟨_, (if_pos hanswered.status_eq).trans (if_neg (not_lt.mpr hanswered.cost_nonneg)), rfl,
      hattempts, fun caller' tier' provider => ?_⟩
    rw [spent_append, ← h.cost]
    by_cases heq : (caller', tier', provider) = (caller, tier, rec.provider)
    · have hspent : rec.spentBy caller' tier' provider = true := by
        rw [AttemptRecord.spentBy, heq, hanswered.caller_eq, hanswered.tier_eq]
        simp
      simp [spent, hspent, heq]
    · have hspent : rec.spentBy caller' tier' provider = false := by
        rw [AttemptRecord.spentBy, hanswered.caller_eq, hanswered.tier_eq]
        exact decide_eq_false (Ne.symm heq)
      simp [spent, hspent, Function.update_of_ne heq]

/-- The records of a result are counted one after another. -/
theorem Tallies.attempts_foldlM {new : List AttemptRecord}
    (hnew : ∀ rec ∈ new, rec.Failed caller tier ∨ rec.Answered caller tier) :
    ∀ {c : GatewayCounters} {recs : List AttemptRecord}, c.Tallies recs →
      ∃ c', new.foldlM (GatewayCounters.attempt caller tier) c = some c' ∧
        c'.requestsTotal = c.requestsTotal ∧ c'.Tallies (recs ++ new) := by
  induction new with
  | nil =>
    intro c recs h
    exact ⟨c, rfl, rfl, (List.append_nil recs).symm ▸ h⟩
  | cons rec new ih =>
    intro c recs h
    obtain ⟨hrec, hrest⟩ := List.forall_mem_cons.mp hnew
    obtain ⟨m, hm, hrequests, htallies⟩ := h.attempt hrec
    obtain ⟨c', hc', hrequests', htallies'⟩ := ih hrest htallies
    refine ⟨c', ?_, hrequests'.trans hrequests, ?_⟩
    · rw [List.foldlM_cons, hm]
      exact hc'
    · rwa [List.append_assoc, List.singleton_append] at htallies'

end GatewayCounters

/-- What the counters have counted: these records. -/
structure GatewayCounters.Truthful (c : GatewayCounters) (recs : List AttemptRecord) : Prop where
  tallies : c.Tallies recs
  answered : ∀ caller tier, c.requestsTotal (caller, tier, "ok") =
    recs.countP (AttemptRecord.answers caller tier)

/-- **The end of `route` is counted**, and no `inc` raises. -/
theorem GatewayCounters.Truthful.routeEnded {c : GatewayCounters} {recs : List AttemptRecord}
    (h : c.Truthful recs) {caller tier : String} {outcome : RouteOutcome}
    (houtcome : outcome.Itemized caller tier) :
    ∃ c', c.routeEnded caller tier outcome = some c' ∧ c'.Truthful (recs ++ outcome.enqueues) := by
  cases outcome with
  | crashed => exact ⟨c, rfl, (List.append_nil recs).symm ▸ h⟩
  | raised error =>
    refine ⟨_, rfl, ⟨?_, ?_⟩, fun caller' tier' => ?_⟩
    · exact (List.append_nil recs).symm ▸ h.tallies.attempts
    · exact (List.append_nil recs).symm ▸ h.tallies.cost
    · rw [RouteOutcome.enqueues, List.append_nil, request_raised]
      exact h.answered caller' tier'
  | returned response attempts =>
    obtain ⟨failed, last, rfl, hfailed, hlast⟩ := houtcome
    have hnew : ∀ rec ∈ failed ++ [last], rec.Failed caller tier ∨ rec.Answered caller tier := by
      rw [List.forall_mem_append, List.forall_mem_singleton]
      exact ⟨fun rec hrec => Or.inl (hfailed rec hrec), Or.inr hlast⟩
    have hbegun : (c.request caller tier "ok").Tallies recs :=
      ⟨h.tallies.attempts, h.tallies.cost⟩
    obtain ⟨c', hc', hrequests, htallies⟩ := Tallies.attempts_foldlM hnew hbegun
    refine ⟨c', hc', htallies, fun caller' tier' => ?_⟩
    have hnone : failed.countP (AttemptRecord.answers caller' tier') = 0 := by
      rw [List.countP_eq_zero]
      intro rec hrec hanswers
      have hok := of_decide_eq_true hanswers
      exact (hfailed rec hrec).status_ne (Prod.mk.inj (Prod.mk.inj hok).2).2
    have hone : [last].countP (AttemptRecord.answers caller' tier') =
        if (caller, tier) = (caller', tier') then 1 else 0 := by
      rw [List.countP_singleton, AttemptRecord.answers, hlast.caller_eq, hlast.tier_eq,
        hlast.status_eq]
      simp
    rw [hrequests, request_ok, h.answered, RouteOutcome.enqueues, List.countP_append,
      List.countP_append, hnone, hone, Nat.zero_add]

/-! ## 5. Every run -/

/-- What holds of the ledger and its counters in every run. -/
structure CountedLedger.Sound (rows₀ : List RequestRow) (s : CountedLedger) : Prop where
  filed : s.ledger.Filed rows₀
  requests : ∀ r ∈ s.ledger.requests, r.chat.Itemized
  counters : ∃ c, s.counters = some c ∧ c.Truthful s.ledger.queue.enqueued

theorem Ledger.sound_bootCounted (start : ℚ) (rows : List RequestRow) :
    (Ledger.bootCounted start rows).Sound rows where
  filed := Ledger.filed_boot start rows
  requests _ hr := absurd hr List.not_mem_nil
  counters := ⟨{}, rfl, ⟨fun _ _ _ => rfl, fun _ _ _ => rfl⟩, fun _ _ => rfl⟩

/-- Only a request enqueues records. -/
theorem LedgerState.Moves.enqueued_of_not_chat {ledger : Ledger} {s s' : LedgerState} {now : ℚ}
    {action : LedgerAction} (hmoves : s.Moves ledger now action s')
    (hnot : ∀ i event, action ≠ .chat i event) :
    s'.queue.enqueued = s.queue.enqueued ∧ ∀ r ∈ s'.requests, r ∈ s.requests ∨
      r.chat.pc = .resolving ∨ ∃ r₀ ∈ s.requests, r.chat = r₀.chat := by
  cases hmoves with
  | arrive body =>
    refine ⟨rfl, List.forall_mem_append.mpr ⟨fun r hr => Or.inl hr, ?_⟩⟩
    exact List.forall_mem_singleton.mpr (Or.inr (Or.inl rfl))
  | @sum i r caller cap hr =>
    refine ⟨rfl, fun r' hr' => ?_⟩
    rcases List.mem_or_eq_of_mem_set hr' with hold | rfl
    · exact Or.inl hold
    · exact Or.inr (Or.inr ⟨r, List.mem_of_getElem? hr, rfl⟩)
  | chat => exact absurd rfl (hnot _ _)
  | @drain event queue henqueue hsettled hstep =>
    exact ⟨(DrainState.history_step henqueue hsettled hstep).1, fun r hr => Or.inl hr⟩
  | write _ hstep | refuse _ hstep =>
    exact ⟨(DrainState.enqueued_step hstep).trans (List.append_nil _), fun r hr => Or.inl hr⟩

/-- **Every event keeps the counters truthful.** -/
theorem CountedLedger.Sound.step {ledger : Ledger} {rows₀ : List RequestRow} {s s' : CountedLedger}
    {e : LedgerEvent} (h : s.Sound rows₀) (hstep : ledger.stepCounted s e = some s') :
    s'.Sound rows₀ := by
  obtain ⟨l, hl, rfl⟩ := Option.map_eq_some_iff.mp hstep
  obtain ⟨now, action⟩ := e
  obtain ⟨-, hmoves⟩ := Ledger.moves_of_step hl
  have hfiled := h.filed.step hmoves
  by_cases hchat : ∃ i event, action = .chat i event
  · obtain ⟨i, event, rfl⟩ := hchat
    cases hmoves with
    | @chat _ r _ chat hr hpermits hchat =>
      have hends := (h.requests r (List.mem_of_getElem? hr)).step hchat
      have hend : ledger.routeEnd s.ledger ⟨now, .chat i event⟩ =
          (r.chat.routeEnd ledger.router event).map fun ended => (r.chat, ended) := by
        simp only [Ledger.routeEnd, hr, Option.bind_some]
      obtain ⟨c, hc, htruthful⟩ := h.counters
      refine ⟨hfiled, fun r' hr' => ?_, ?_⟩
      · rcases List.mem_or_eq_of_mem_set hr' with hold | rfl
        · exact h.requests r' hold
        · exact hends.itemized
      · have henqueued : chat.enqueued.drop r.chat.enqueued.length =
            ((r.chat.routeEnd ledger.router event).map fun ended => ended.2.enqueues).getD [] := by
          rw [hends.enqueued, List.drop_left]
        dsimp only
        rw [hend, (s.ledger.queue.enqueueAll_history _).1, henqueued, hc]
        cases hroute : r.chat.routeEnd ledger.router event with
        | none => exact ⟨c, rfl, (List.append_nil _).symm ▸ htruthful⟩
        | some ended => exact htruthful.routeEnded (hends.outcome ended hroute)
  · have hnot : ∀ i event, action ≠ .chat i event := fun i event heq => hchat ⟨i, event, heq⟩
    obtain ⟨henqueued, hrequests⟩ := hmoves.enqueued_of_not_chat hnot
    have hend : ledger.routeEnd s.ledger ⟨now, action⟩ = none := by
      cases action with
      | chat i event => exact absurd rfl (hnot i event)
      | arrive | sum | drain | write => rfl
    refine ⟨hfiled, fun r hr => ?_, ?_⟩
    · rcases hrequests r hr with hold | hnew | ⟨r₀, hr₀, heq⟩
      · exact h.requests r hold
      · unfold ChatTask.Itemized
        rw [hnew]
        trivial
      · exact heq ▸ h.requests r₀ hr₀
    · dsimp only
      rw [hend, henqueued]
      exact h.counters

/-- **The counters reconcile with the table.**  In every run no `inc` raises, and with the records
that are queued, in flight or dropped the rows of the table are those it began with and what the
counters show: the attempts by provider, model and status, the cost by caller, tier and provider,
and the answers by caller and tier. -/
theorem counters_reconcile (ledger : Ledger) {start : ℚ} {rows₀ : List RequestRow}
    {es : List LedgerEvent} {s : CountedLedger}
    (hrun : Runs.run ledger.stepCounted (Ledger.bootCounted start rows₀) es = some s) :
    ∃ c, s.counters = some c ∧
      (∀ provider model status,
        (s.ledger.rows.map RequestRow.record ++ s.ledger.queue.unwritten).countP
            (AttemptRecord.labelled provider model status) =
          (rows₀.map RequestRow.record).countP (AttemptRecord.labelled provider model status) +
            c.attemptsTotal (provider, model, status)) ∧
      (∀ caller tier provider,
        spent (s.ledger.rows.map RequestRow.record ++ s.ledger.queue.unwritten) caller tier
            provider =
          spent (rows₀.map RequestRow.record) caller tier provider +
            c.costUsdTotal (caller, tier, provider)) ∧
      ∀ caller tier,
        (s.ledger.rows.map RequestRow.record ++ s.ledger.queue.unwritten).countP
            (AttemptRecord.answers caller tier) =
          (rows₀.map RequestRow.record).countP (AttemptRecord.answers caller tier) +
            c.requestsTotal (caller, tier, "ok") := by
  have hsound : s.Sound rows₀ :=
    Runs.invariant (fun _ s => s.Sound rows₀) (Ledger.sound_bootCounted start rows₀)
      (fun _ _ _ _ h hstep => h.step hstep) hrun
  obtain ⟨c, hc, htruthful⟩ := hsound.counters
  have hperm : (s.ledger.rows.map RequestRow.record ++ s.ledger.queue.unwritten).Perm
      (rows₀.map RequestRow.record ++ s.ledger.queue.enqueued) := by
    rw [hsound.filed.map_record, List.append_assoc]
    exact hsound.filed.queue.conserved.perm.symm.append_left _
  refine ⟨c, hc, fun provider model status => ?_, fun caller tier provider => ?_,
    fun caller tier => ?_⟩
  · rw [hperm.countP_eq, List.countP_append, htruthful.tallies.attempts]
  · rw [spent_perm hperm, spent_append, htruthful.tallies.cost]
  · rw [hperm.countP_eq, List.countP_append, htruthful.answered]

/-- The law, on the run with one answer that is written: the counters show one attempt. -/
theorem counters_reconcile_filedEvents :
    ∃ s c, Runs.run cappedLedger.stepCounted (Ledger.bootCounted 0 []) filedEvents = some s ∧
      s.counters = some c ∧ s.ledger.queue.unwritten = [] ∧
      c.attemptsTotal ("openai", "gpt-4o-mini", "ok") = 1 ∧
      (s.ledger.rows.map RequestRow.record).countP
        (AttemptRecord.labelled "openai" "gpt-4o-mini" "ok") = 1 := by
  have hrun : (Runs.run cappedLedger.stepCounted (Ledger.bootCounted 0 [])
      filedEvents).any (fun s =>
      s.ledger.queue.unwritten.length = 0 ∧ (s.ledger.rows.map RequestRow.record).countP
        (AttemptRecord.labelled "openai" "gpt-4o-mini" "ok") = 1) = true := by
    decide +kernel
  obtain ⟨s, hs, hdecided⟩ := (Option.any_eq_true _ _).mp hrun
  obtain ⟨hunwritten, hrows⟩ := of_decide_eq_true hdecided
  obtain ⟨c, hc, hattempts, -⟩ := counters_reconcile cappedLedger hs
  have hnone := List.eq_nil_of_length_eq_zero hunwritten
  have hone := hattempts "openai" "gpt-4o-mini" "ok"
  rw [hnone, List.append_nil, hrows, List.map_nil, List.countP_nil, Nat.zero_add] at hone
  exact ⟨s, c, hs, hc, hnone, hone.symm, hrows⟩

end Librouter
