/-
# In whose name a request is served

`/v1/chat/completions` and `/v1/usage` begin with `resolve_bearer` and go on with what it returned.
`KeyedApp.step` runs any number of both beside the resolver, its cache and the callers table, which
may change at any time.

`requests_authorized` joins the bound on stale callers to what is done for them: a request that gets
any further than a refusal is served in the name of a caller that the table held, enabled, for the
key of its header, less than the time to live before the request came; so a key that was disabled
for good is worth nothing from a time to live later on.
-/
import Librouter.App.Untraced
import Librouter.App.Usage
import Librouter.Auth.Staleness

namespace Librouter

/-! ## 1. Requests with a key -/

/-- What the endpoints share. -/
structure KeyedApp where
  resolver : CallerResolver
  router : Router
  collation : Collation

/-- Where a call of `v1_usage` stands. -/
inductive UsagePc
  /-- in `auth.resolve_bearer(...)` -/
  | resolving
  /-- in `db.usage_summary(...)` -/
  | querying (caller : Caller)
  | done (reply : UsageReply)
  /-- the database raised -/
  | failed

/-- What a request is about. -/
inductive KeyedWork
  /-- `used` is what the daily cap was compared with -/
  | chat (task : ChatTask) (used : Option ℕ)
  /-- `caller` is the query parameter -/
  | usage (caller : Option String) (pc : UsagePc)

/-- A request; `auth` is the number of its call of `resolve_bearer`. -/
structure KeyedRequest where
  auth : ℕ
  work : KeyedWork

/-- The resolver and the callers table, and the requests. -/
structure KeyedState where
  auth : AuthState
  requests : List KeyedRequest := []

/-- What happens. -/
inductive KeyedAction
  | chat (header : Option String) (body : ChatCompletionRequest)
  | usage (header caller : Option String)
  /-- something happens in the resolver or the callers table -/
  | auth (action : AuthAction)
  /-- request `i` goes on with what its call of `resolve_bearer` has come to -/
  | resolved (i : ℕ) (input : RouteInput)
  /-- a later await of the chat request `i` comes back -/
  | chatOn (i : ℕ) (event : ChatEvent)
  /-- the query of request `i` is executed on these rows, or raises -/
  | queried (i : ℕ) (rows : Option (List RequestRow))

/-- What happens, and when. -/
structure KeyedEvent where
  now : ℚ
  action : KeyedAction

/-- How a call of `resolve_bearer` has ended: with a result, or with an exception. -/
def AuthCall.ending? (call : AuthCall) : Option (Option (Option Caller)) :=
  match call.pc with
  | .returned caller _ => some (some caller)
  | .raised => some none
  | _ => none

/-- What the end of `resolve_bearer` is for a chat request. -/
def resolvedEvent (ending : Option (Option Caller)) (input : RouteInput) : ChatEvent :=
  match ending with
  | some caller => .resolved caller input
  | none => .failed

/-- A request waits for `resolve_bearer` first. -/
def ChatTask.isResolving (c : ChatTask) : Bool :=
  match c.pc with
  | .resolving => true
  | _ => false

/-- What the daily cap is compared with. -/
def ChatEvent.used? : ChatEvent → Option ℕ
  | .tokensUsed used _ => some used
  | _ => none

namespace KeyedApp

variable (app : KeyedApp)

/-- A request comes, and calls `resolve_bearer`. -/
def stepArrive (s : KeyedState) (now : ℚ) (header : Option String) (work : KeyedWork) :
    Option KeyedState :=
  (app.resolver.step s.auth ⟨now, .call header⟩).map fun auth =>
    { auth := auth, requests := s.requests ++ [⟨s.auth.calls.length, work⟩] }

/-- The work goes on after `resolve_bearer`. -/
def resolveWork (work : KeyedWork) (ending : Option (Option Caller)) (input : RouteInput) :
    Option KeyedWork :=
  match work with
  | .chat task used =>
    if task.isResolving then
      (task.step app.router (resolvedEvent ending input)).map (.chat · used)
    else none
  | .usage param .resolving =>
    match ending with
    | some (some caller) => some (.usage param (.querying caller))
    | some none => some (.usage param (.done (v1Usage app.collation none param [])))
    | none => some (.usage param .failed)
  | .usage _ _ => none

/-- The work goes on after a later await. -/
def chatWork (work : KeyedWork) (event : ChatEvent) : Option KeyedWork :=
  match work with
  | .chat task used =>
    if task.isResolving then none
    else (task.step app.router event).map fun task => .chat task (event.used?.or used)
  | .usage _ _ => none

end KeyedApp

/-- The query for the report is executed. -/
def KeyedWork.query (collation : Collation) (work : KeyedWork) (rows : Option (List RequestRow)) :
    Option KeyedWork :=
  match work with
  | .usage param (.querying caller) =>
    match rows with
    | some rows => some (.usage param (.done (v1Usage collation (some caller) param rows)))
    | none => some (.usage param .failed)
  | _ => none

/-- The work of request `i` goes on. -/
def KeyedState.stepWork (s : KeyedState) (i : ℕ) (next : KeyedRequest → Option KeyedWork) :
    Option KeyedState :=
  (s.requests[i]?).bind fun req =>
  (next req).map fun work => { s with requests := s.requests.set i { req with work := work } }

/-- One event. -/
def KeyedApp.step (app : KeyedApp) (s : KeyedState) (e : KeyedEvent) : Option KeyedState :=
  match e.action with
  | .chat header body => app.stepArrive s e.now header (.chat (.start body) none)
  | .usage header caller => app.stepArrive s e.now header (.usage caller .resolving)
  -- only requests call `resolve_bearer`
  | .auth (.call _) => none
  | .auth action =>
    (app.resolver.step s.auth ⟨e.now, action⟩).map fun auth => { s with auth := auth }
  | .resolved i input => s.stepWork i fun req =>
    ((s.auth.calls[req.auth]?).bind AuthCall.ending?).bind fun ending =>
      app.resolveWork req.work ending input
  | .chatOn i event => s.stepWork i fun req => app.chatWork req.work event
  | .queried i rows => s.stepWork i fun req => req.work.query app.collation rows

/-- No request yet. -/
def KeyedState.boot (start : ℚ) (rows : List CallerRow) : KeyedState :=
  { auth := AuthState.init start rows }

/-! ## 2. The transitions -/

namespace KeyedApp

variable {app : KeyedApp} {s s' : KeyedState}

/-- The transitions, with everything each of them changes. -/
inductive Moves (app : KeyedApp) (s : KeyedState) (now : ℚ) : KeyedAction → KeyedState → Prop
  | chat {header : Option String} {body : ChatCompletionRequest} {auth : AuthState}
      (hauth : app.resolver.step s.auth ⟨now, .call header⟩ = some auth) :
      Moves app s now (.chat header body)
        ⟨auth, s.requests ++ [⟨s.auth.calls.length, .chat (.start body) none⟩]⟩
  | usage {header caller : Option String} {auth : AuthState}
      (hauth : app.resolver.step s.auth ⟨now, .call header⟩ = some auth) :
      Moves app s now (.usage header caller)
        ⟨auth, s.requests ++ [⟨s.auth.calls.length, .usage caller .resolving⟩]⟩
  | auth {action : AuthAction} {auth : AuthState}
      (hauth : app.resolver.step s.auth ⟨now, action⟩ = some auth) :
      Moves app s now (.auth action) { s with auth := auth }
  | resolved {i : ℕ} {input : RouteInput} {req : KeyedRequest} {call : AuthCall}
      {ending : Option (Option Caller)} {work : KeyedWork} (hreq : s.requests[i]? = some req)
      (hcall : s.auth.calls[req.auth]? = some call) (hending : call.ending? = some ending)
      (hwork : app.resolveWork req.work ending input = some work) :
      Moves app s now (.resolved i input)
        { s with requests := s.requests.set i { req with work := work } }
  | chatOn {i : ℕ} {event : ChatEvent} {req : KeyedRequest} {work : KeyedWork}
      (hreq : s.requests[i]? = some req) (hwork : app.chatWork req.work event = some work) :
      Moves app s now (.chatOn i event)
        { s with requests := s.requests.set i { req with work := work } }
  | queried {i : ℕ} {rows : Option (List RequestRow)} {req : KeyedRequest} {work : KeyedWork}
      (hreq : s.requests[i]? = some req) (hwork : req.work.query app.collation rows = some work) :
      Moves app s now (.queried i rows)
        { s with requests := s.requests.set i { req with work := work } }

theorem stepWork_eq_some {i : ℕ} {next : KeyedRequest → Option KeyedWork}
    (h : s.stepWork i next = some s') :
    ∃ req work, s.requests[i]? = some req ∧ next req = some work ∧
      s' = { s with requests := s.requests.set i { req with work := work } } := by
  obtain ⟨req, hreq, h⟩ := Option.bind_eq_some_iff.mp h
  obtain ⟨work, hwork, rfl⟩ := Option.map_eq_some_iff.mp h
  exact ⟨req, work, hreq, hwork, rfl⟩

/-- A step is one of the transitions. -/
theorem moves_of_step {e : KeyedEvent} (h : app.step s e = some s') :
    app.Moves s e.now e.action s' := by
  obtain ⟨now, action⟩ := e
  cases action with
  | chat header body =>
    obtain ⟨auth, hauth, rfl⟩ := Option.map_eq_some_iff.mp h
    exact .chat hauth
  | usage header caller =>
    obtain ⟨auth, hauth, rfl⟩ := Option.map_eq_some_iff.mp h
    exact .usage hauth
  | auth action =>
    cases action with
    | call header => cases h
    | read | resume | fail | change =>
      obtain ⟨auth, hauth, rfl⟩ := Option.map_eq_some_iff.mp h
      exact .auth hauth
  | resolved i input =>
    obtain ⟨req, work, hreq, hwork, rfl⟩ := stepWork_eq_some h
    obtain ⟨ending, hending, hwork⟩ := Option.bind_eq_some_iff.mp hwork
    obtain ⟨call, hcall, hending⟩ := Option.bind_eq_some_iff.mp hending
    exact .resolved hreq hcall hending hwork
  | chatOn i event =>
    obtain ⟨req, work, hreq, hwork, rfl⟩ := stepWork_eq_some h
    exact .chatOn hreq hwork
  | queried i rows =>
    obtain ⟨req, work, hreq, hwork, rfl⟩ := stepWork_eq_some h
    exact .queried hreq hwork

end KeyedApp

/-! ## 3. The resolver among the requests -/

/-- What an event is for the resolver. -/
def KeyedEvent.auth? (e : KeyedEvent) : Option AuthEvent :=
  match e.action with
  | .chat header _ => some ⟨e.now, .call header⟩
  | .usage header _ => some ⟨e.now, .call header⟩
  | .auth action => some ⟨e.now, action⟩
  | _ => none

namespace KeyedApp

variable {app : KeyedApp} {s s' : KeyedState}

theorem auth_move (s : KeyedState) (e : KeyedEvent) (s' : KeyedState) (e' : AuthEvent)
    (he : e.auth? = some e') (h : app.step s e = some s') :
    app.resolver.step s.auth e' = some s'.auth := by
  have hmoves := moves_of_step h
  obtain ⟨now, action⟩ := e
  cases hmoves with
  | chat hauth | usage hauth | auth hauth =>
    obtain rfl := Option.some.inj he
    exact hauth
  | resolved | chatOn | queried => cases he

theorem auth_stay (s : KeyedState) (e : KeyedEvent) (s' : KeyedState) (he : e.auth? = none)
    (h : app.step s e = some s') : s'.auth = s.auth := by
  have hmoves := moves_of_step h
  obtain ⟨now, action⟩ := e
  cases hmoves with
  | chat | usage | auth => cases he
  | resolved | chatOn | queried => rfl

end KeyedApp

/-- A call of `resolve_bearer` keeps its header and its clock reading, and its result. -/
structure AuthCall.Continues (call call' : AuthCall) : Prop where
  header : call'.header = call.header
  reading : call'.reading = call.reading
  returned : ∀ caller read, call.pc = .returned caller read → call'.pc = .returned caller read

theorem AuthCall.Continues.refl (call : AuthCall) : call.Continues call :=
  ⟨rfl, rfl, fun _ _ h => h⟩

namespace CallerResolver

variable {r : CallerResolver} {s s' : AuthState}

theorem continues_goto {i j : ℕ} {call other : AuthCall} {pc : AuthPc}
    (hcall : s.calls[i]? = some call) (hother : s.calls[j]? = some other)
    (hpc : ∀ caller read, other.pc ≠ .returned caller read) :
    ∃ call', (s.goto j other pc).calls[i]? = some call' ∧ call.Continues call' := by
  by_cases hij : j = i
  · subst hij
    obtain rfl := Option.some.inj (hcall.symm.trans hother)
    have hlt := (List.getElem?_eq_some_iff.mp hcall).1
    exact ⟨_, List.getElem?_set_self hlt, rfl, rfl, fun _ _ h => absurd h (hpc _ _)⟩
  · exact ⟨call, (List.getElem?_set_ne hij).trans hcall, .refl call⟩

/-- The calls go on. -/
theorem continues_step {e : AuthEvent} (hstep : r.step s e = some s') {i : ℕ} {call : AuthCall}
    (hcall : s.calls[i]? = some call) :
    ∃ call', s'.calls[i]? = some call' ∧ call.Continues call' := by
  have append : ∀ other : AuthCall,
      ∃ call', (s.calls ++ [other])[i]? = some call' ∧ call.Continues call' := fun other =>
    ⟨call, by rw [List.getElem?_append_left (List.getElem?_eq_some_iff.mp hcall).1, hcall],
      .refl call⟩
  obtain ⟨-, hmoves⟩ := moves_of_step hstep
  obtain ⟨now, action⟩ := e
  cases hmoves with
  | rejected | hit | miss => exact append _
  | read hother hpc | answered hother hpc | invalid hother hpc =>
    exact continues_goto hcall hother (by simp [hpc])
  | failed hother hpc => exact continues_goto hcall hother hpc
  | change => exact ⟨call, hcall, .refl call⟩

/-- A call begins. -/
theorem call_begins {now : ℚ} {header : Option String}
    (hstep : r.step s ⟨now, .call header⟩ = some s') :
    ∃ call, s'.calls[s.calls.length]? = some call ∧ call.header = header ∧ call.reading = now := by
  obtain ⟨-, hmoves⟩ := moves_of_step hstep
  cases hmoves with
  | rejected | hit | miss => exact ⟨_, List.getElem?_concat_length, rfl, rfl⟩

end CallerResolver

/-! ## 4. Refused, or in the name of a caller -/

/-- The request waits for `resolve_bearer`, or has been refused after it; nothing is done for it. -/
def ChatTask.TurnedAway (c : ChatTask) : Prop :=
  c.calls = [] ∧ c.enqueued = [] ∧
    (c.pc = .resolving ∨ c.pc = .done unauthorized ∨ c.pc = .done .serverError)

/-- Everything that is done for the request is done for `caller`, and within its cap as far as
`used` says. -/
structure ChatTask.InNameOf (c : ChatTask) (used : Option ℕ) (caller : Caller) : Prop where
  resolved : c.isResolving = false
  checking : ∀ other cap, c.pc = .checkingCap other cap →
    other = caller ∧ caller.dailyTokenCap = some cap ∧ c.calls = [] ∧ c.enqueued = []
  routing : ∀ t, c.pc = .routing t → t.caller = caller ∧ t.Attributed ∧ c.enqueued = []
  records : ∀ rec ∈ c.enqueued, rec.caller = caller.name
  capped : ∀ cap ∈ caller.dailyTokenCap, (∃ n ∈ used, n < cap) ∨
    c.calls = [] ∧ c.enqueued = [] ∧ (∀ t, c.pc ≠ .routing t) ∧
      ∀ response, c.pc ≠ .done (.ok response)

namespace ChatTask

variable {router : Router} {c c' : ChatTask} {caller : Caller} {used : Option ℕ}

/-- A request that has been answered. -/
theorem inNameOf_done {reply : ChatReply} (hpc : c.pc = .done reply)
    (hrecords : ∀ rec ∈ c.enqueued, rec.caller = caller.name)
    (hcapped : ∀ cap ∈ caller.dailyTokenCap, (∃ n ∈ used, n < cap) ∨
      c.calls = [] ∧ c.enqueued = [] ∧ ∀ response, reply ≠ .ok response) :
    c.InNameOf used caller where
  resolved := by simp [isResolving, hpc]
  checking other cap h := by
    rw [hpc] at h
    cases h
  routing t h := by
    rw [hpc] at h
    cases h
  records := hrecords
  capped cap hcap := by
    refine (hcapped cap hcap).imp_right fun ⟨hcalls, hnone, hreply⟩ =>
      ⟨hcalls, hnone, fun t h => ?_, fun response h => ?_⟩
    · rw [hpc] at h
      cases h
    · rw [hpc] at h
      exact hreply response (ChatPc.done.inj h)

/-- A request whose cap is looked at. -/
theorem inNameOf_checking {cap : ℕ} (hpc : c.pc = .checkingCap caller cap)
    (hcap : caller.dailyTokenCap = some cap) (hcalls : c.calls = []) (hnone : c.enqueued = []) :
    c.InNameOf used caller where
  resolved := by simp [isResolving, hpc]
  checking other cap' h := by
    rw [hpc] at h
    cases h
    exact ⟨rfl, hcap, hcalls, hnone⟩
  routing t h := by
    rw [hpc] at h
    cases h
  records rec hrec := absurd (hnone ▸ hrec) List.not_mem_nil
  capped _ _ := by
    refine Or.inr ⟨hcalls, hnone, fun t h => ?_, fun response h => ?_⟩ <;>
      · rw [hpc] at h
        cases h

/-- A request in `route`. -/
theorem inNameOf_routing {t : RouteTask} (hpc : c.pc = .routing t) (hcaller : t.caller = caller)
    (ht : t.Attributed) (hnone : c.enqueued = [])
    (hcapped : ∀ cap ∈ caller.dailyTokenCap, ∃ n ∈ used, n < cap) : c.InNameOf used caller where
  resolved := by simp [isResolving, hpc]
  checking other cap h := by
    rw [hpc] at h
    cases h
  routing t' h := by
    rw [hpc] at h
    cases h
    exact ⟨hcaller, ht, hnone⟩
  records rec hrec := absurd (hnone ▸ hrec) List.not_mem_nil
  capped cap hcap := Or.inl (hcapped cap hcap)

/-- `route` goes on, or ends. -/
theorem inNameOf_proceed {task : RouteTask} (hnone : c.enqueued = []) (htask : task.Attributed)
    (hcaller : task.caller = caller)
    (hcapped : ∀ cap ∈ caller.dailyTokenCap, ∃ n ∈ used, n < cap) :
    (c.proceed task).InNameOf used caller := by
  unfold proceed
  split
  · rename_i outcome hpc
    refine inNameOf_done rfl (fun rec hrec => ?_) fun cap hcap => Or.inl (hcapped cap hcap)
    have hrec : rec ∈ c.enqueued ++ outcome.enqueues := hrec
    rw [hnone, List.nil_append] at hrec
    cases outcome with
    | returned response attempts =>
      obtain ⟨rfl, -⟩ := htask.returned response attempts hpc
      rw [← hcaller]
      exact (htask.records rec hrec).1
    | raised | crashed => exact absurd hrec List.not_mem_nil
  · exact inNameOf_routing rfl hcaller htask hnone hcapped

theorem inNameOf_enter (hnone : c.enqueued = []) (input : RouteInput)
    (hcapped : ∀ cap ∈ caller.dailyTokenCap, ∃ n ∈ used, n < cap) :
    (c.enter router caller input).InNameOf used caller := by
  obtain ⟨-, -, htask⟩ :=
    RouteTask.attributed_begin router c.body caller input.requestId input.now input.next
  exact inNameOf_proceed hnone htask (router.begin_caller _ _ _ _ _) hcapped

theorem isResolving_iff : c.isResolving = true ↔ c.pc = .resolving := by
  unfold isResolving
  split <;> simp_all

/-- `resolve_bearer` has ended. -/
theorem TurnedAway.resolve (h : c.TurnedAway) (hresolving : c.isResolving = true)
    {ending : Option (Option Caller)} {input : RouteInput}
    (hstep : c.step router (resolvedEvent ending input) = some c') :
    c'.TurnedAway ∨ ∃ caller, ending = some (some caller) ∧ c'.InNameOf used caller := by
  have hpc := isResolving_iff.mp hresolving
  obtain ⟨hcalls, hnone, -⟩ := h
  have hmoves := moves_of_step hstep
  rcases ending with _ | _ | caller
  · cases hmoves with
    | resolveFails => exact Or.inl ⟨hcalls, hnone, Or.inr (Or.inr rfl)⟩
    | usageFails hchecking =>
      rw [hpc] at hchecking
      cases hchecking
  · cases hmoves with
    | noCaller => exact Or.inl ⟨hcalls, hnone, Or.inr (Or.inl rfl)⟩
  · refine Or.inr ⟨caller, rfl, ?_⟩
    cases hmoves with
    | capped _ hcap => exact inNameOf_checking rfl hcap hcalls hnone
    | uncapped _ hcap => exact inNameOf_enter hnone input (by simp [hcap])

/-- A refusal is the end. -/
theorem TurnedAway.isResolving_of_step (h : c.TurnedAway) {event : ChatEvent}
    (hstep : c.step router event = some c') : c.isResolving = true := by
  rcases h.2.2 with hpc | hpc | hpc
  · exact isResolving_iff.mpr hpc
  · simp [ChatTask.step, hpc] at hstep
  · simp [ChatTask.step, hpc] at hstep

/-- A later await comes back. -/
theorem InNameOf.step (h : c.InNameOf used caller) {event : ChatEvent}
    (hstep : c.step router event = some c') : c'.InNameOf (event.used?.or used) caller := by
  have hnot : c.pc ≠ .resolving := fun hpc => by
    have hresolved := h.resolved
    rw [isResolving_iff.mpr hpc] at hresolved
    cases hresolved
  have hrefused : ∀ reply : ChatReply, (∀ response, reply ≠ .ok response) → ∀ other cap,
      c.pc = .checkingCap other cap →
        ({ c with pc := .done reply } : ChatTask).InNameOf (event.used?.or used) caller := by
    intro reply hreply other cap hpc
    obtain ⟨-, -, hcalls, hnone⟩ := h.checking other cap hpc
    exact inNameOf_done rfl h.records fun _ _ => Or.inr ⟨hcalls, hnone, hreply⟩
  cases moves_of_step hstep with
  | noCaller hpc | capped hpc | uncapped hpc | resolveFails hpc => exact absurd hpc hnot
  | exhausted hpc => exact hrefused capExhausted (by simp [capExhausted]) _ _ hpc
  | usageFails hpc => exact hrefused .serverError (by simp) _ _ hpc
  | underCap hpc hused =>
    obtain ⟨rfl, hcap, -, hnone⟩ := h.checking _ _ hpc
    refine inNameOf_enter hnone _ fun cap hcap' => ?_
    obtain rfl := Option.some.inj (hcap.symm.trans hcap')
    exact ⟨_, rfl, hused⟩
  | @route task task' event hpc htask =>
    obtain ⟨hcaller, hattributed, hnone⟩ := h.routing _ hpc
    refine inNameOf_proceed hnone (hattributed.step htask) ?_ fun cap hcap => ?_
    · exact (RouteTask.frame_step htask).2.1.trans hcaller
    · rcases h.capped cap hcap with hused | ⟨-, -, hrouting, -⟩
      · exact hused
      · exact absurd hpc (hrouting _)

end ChatTask

/-- Nothing of the table is in the reply, if there is one. -/
def UsagePc.TurnedAway (pc : UsagePc) : Prop :=
  match pc with
  | .resolving => True
  | .querying _ => False
  | .done reply => ∀ summary, reply ≠ .items summary
  | .failed => True

/-- The report is the one of `caller`. -/
def UsagePc.InNameOf (pc : UsagePc) (caller : Caller) : Prop :=
  match pc with
  | .resolving => False
  | .querying other => other = caller
  | .done reply => ∃ summary, reply = .items summary ∧ ∀ item ∈ summary, item.caller = caller.name
  | .failed => True

def KeyedWork.TurnedAway : KeyedWork → Prop
  | .chat task _ => task.TurnedAway
  | .usage _ pc => pc.TurnedAway

def KeyedWork.InNameOf (caller : Caller) : KeyedWork → Prop
  | .chat task used => task.InNameOf used caller
  | .usage _ pc => pc.InNameOf caller

namespace KeyedWork

variable {app : KeyedApp} {work work' : KeyedWork} {caller : Caller}

/-- What comes of a request when `resolve_bearer` has ended. -/
theorem TurnedAway.resolve (h : work.TurnedAway) {ending : Option (Option Caller)}
    {input : RouteInput} (hwork : app.resolveWork work ending input = some work') :
    work'.TurnedAway ∨ ∃ caller, ending = some (some caller) ∧ work'.InNameOf caller := by
  cases work with
  | chat task used =>
    obtain ⟨hresolving, hwork⟩ := Option.ite_none_right_eq_some.mp hwork
    obtain ⟨task', hstep, rfl⟩ := Option.map_eq_some_iff.mp hwork
    exact ChatTask.TurnedAway.resolve h hresolving hstep
  | usage param pc =>
    cases pc with
    | resolving =>
      rcases ending with _ | _ | caller
      · cases hwork
        exact Or.inl trivial
      · cases hwork
        exact Or.inl nofun
      · cases hwork
        exact Or.inr ⟨caller, rfl, rfl⟩
    | querying | done | failed => cases hwork

theorem InNameOf.not_resolved (h : work.InNameOf caller) (ending : Option (Option Caller))
    (input : RouteInput) : app.resolveWork work ending input = none := by
  cases work with
  | chat task used =>
    have hresolved : task.isResolving = false := ChatTask.InNameOf.resolved h
    simp [KeyedApp.resolveWork, hresolved]
  | usage param pc =>
    cases pc with
    | resolving => exact absurd h id
    | querying | done | failed => rfl

/-- A request that was turned away gets no further. -/
theorem TurnedAway.not_chatOn (h : work.TurnedAway) (event : ChatEvent) :
    app.chatWork work event = none := by
  cases work with
  | chat task used =>
    cases hstep : task.step app.router event with
    | none => simp [KeyedApp.chatWork, hstep]
    | some task' =>
      have hresolving : task.isResolving = true :=
        ChatTask.TurnedAway.isResolving_of_step h hstep
      simp [KeyedApp.chatWork, hresolving]
  | usage => rfl

theorem TurnedAway.not_query (h : work.TurnedAway) (rows : Option (List RequestRow)) :
    work.query app.collation rows = none := by
  cases work with
  | chat => rfl
  | usage param pc =>
    cases pc with
    | querying => exact absurd h id
    | resolving | done | failed => rfl

/-- A later await of a chat request comes back. -/
theorem InNameOf.chatOn (h : work.InNameOf caller) {event : ChatEvent}
    (hwork : app.chatWork work event = some work') : work'.InNameOf caller := by
  cases work with
  | chat task used =>
    obtain ⟨-, hwork⟩ := Option.ite_none_left_eq_some.mp hwork
    obtain ⟨task', hstep, rfl⟩ := Option.map_eq_some_iff.mp hwork
    exact ChatTask.InNameOf.step h hstep
  | usage => cases hwork

/-- The report is read. -/
theorem InNameOf.query (h : work.InNameOf caller) {rows : Option (List RequestRow)}
    (hwork : work.query app.collation rows = some work') : work'.InNameOf caller := by
  cases work with
  | chat => cases hwork
  | usage param pc =>
    cases pc with
    | querying other =>
      obtain rfl : other = caller := h
      cases rows with
      | none =>
        cases hwork
        trivial
      | some rows =>
        cases hwork
        exact ⟨_, rfl, fun item hitem => (mem_usageSummary hitem).1⟩
    | resolving | done | failed => cases hwork

end KeyedWork

/-! ## 5. Whole runs -/

/-- The request is served in the name of the caller its call of `resolve_bearer` has returned. -/
def KeyedRequest.Served (s : KeyedState) (req : KeyedRequest) : Prop :=
  ∃ call, s.auth.calls[req.auth]? = some call ∧
    (req.work.TurnedAway ∨
      ∃ caller read, call.pc = .returned (some caller) read ∧ req.work.InNameOf caller)

theorem KeyedRequest.Served.mono {app : KeyedApp} {s s' : KeyedState} {e : KeyedEvent}
    {req : KeyedRequest} (h : req.Served s) (hstep : app.step s e = some s') : req.Served s' := by
  obtain ⟨call, hcall, hwork⟩ := h
  cases he : e.auth? with
  | none => exact ⟨call, KeyedApp.auth_stay s e s' he hstep ▸ hcall, hwork⟩
  | some e' =>
    obtain ⟨call', hcall', hcontinues⟩ :=
      CallerResolver.continues_step (KeyedApp.auth_move s e s' e' he hstep) hcall
    exact ⟨call', hcall', hwork.imp_right fun ⟨caller, read, hpc, hname⟩ =>
      ⟨caller, read, hcontinues.returned _ _ hpc, hname⟩⟩

/-- **Every event keeps it.** -/
theorem KeyedApp.served_step {app : KeyedApp} {s s' : KeyedState} {e : KeyedEvent}
    (h : ∀ req ∈ s.requests, req.Served s) (hstep : app.step s e = some s') :
    ∀ req ∈ s'.requests, req.Served s' := by
  have hmono : ∀ req ∈ s.requests, req.Served s' := fun req hreq => (h req hreq).mono hstep
  have hset : ∀ (i : ℕ) (req' : KeyedRequest), req'.Served s' →
      ∀ req ∈ s.requests.set i req', req.Served s' := fun i req' hreq' req hreq =>
    (List.mem_or_eq_of_mem_set hreq).elim (hmono req) fun heq => heq ▸ hreq'
  have hmoves := moves_of_step hstep
  obtain ⟨now, action⟩ := e
  cases hmoves with
  | chat hauth =>
    obtain ⟨call, hcall, -⟩ := CallerResolver.call_begins hauth
    exact List.forall_mem_append.mpr ⟨hmono, List.forall_mem_singleton.mpr
      ⟨call, hcall, Or.inl ⟨rfl, rfl, Or.inl rfl⟩⟩⟩
  | usage hauth =>
    obtain ⟨call, hcall, -⟩ := CallerResolver.call_begins hauth
    exact List.forall_mem_append.mpr ⟨hmono, List.forall_mem_singleton.mpr
      ⟨call, hcall, Or.inl trivial⟩⟩
  | auth => exact hmono
  | @resolved i input req call ending work hreq hcall hending hwork =>
    refine hset i _ ?_
    obtain ⟨call', hcall', hserved⟩ := h req (List.mem_of_getElem? hreq)
    obtain rfl := Option.some.inj (hcall.symm.trans hcall')
    refine ⟨call, hcall, ?_⟩
    rcases hserved with haway | ⟨caller, -, -, hname⟩
    · rcases haway.resolve hwork with haway' | ⟨caller, rfl, hname⟩
      · exact Or.inl haway'
      · unfold AuthCall.ending? at hending
        split at hending
        · rename_i found read hpc
          cases hending
          exact Or.inr ⟨caller, read, hpc, hname⟩
        · cases hending
        · cases hending
    · rw [hname.not_resolved] at hwork
      cases hwork
  | @chatOn i event req work hreq hwork =>
    refine hset i _ ?_
    obtain ⟨call, hcall, hserved⟩ := h req (List.mem_of_getElem? hreq)
    refine ⟨call, hcall, Or.inr ?_⟩
    rcases hserved with haway | ⟨caller, read, hpc, hname⟩
    · rw [haway.not_chatOn] at hwork
      cases hwork
    · exact ⟨caller, read, hpc, hname.chatOn hwork⟩
  | @queried i rows req work hreq hwork =>
    refine hset i _ ?_
    obtain ⟨call, hcall, hserved⟩ := h req (List.mem_of_getElem? hreq)
    refine ⟨call, hcall, Or.inr ?_⟩
    rcases hserved with haway | ⟨caller, read, hpc, hname⟩
    · rw [haway.not_query] at hwork
      cases hwork
    · exact ⟨caller, read, hpc, hname.query hwork⟩

/-- At an instant of the run, less than the time to live before `call` began, the table held
`caller`, enabled, for the key of its header. -/
def KeyedApp.Vouches (app : KeyedApp) (s₀ : KeyedState) (es : List KeyedEvent) (call : AuthCall)
    (caller : Caller) : Prop :=
  ∃ keyHash p m, app.resolver.keyHash? call.header = some keyHash ∧ p <+: es ∧
    Runs.run app.step s₀ p = some m ∧ call.reading - app.resolver.cacheTtlS < m.auth.clock ∧
    m.auth.Holds keyHash caller

/-- **No key, no service.**  In every run of any number of requests beside the resolver and a
changing callers table: a request has been turned away, or everything that is done for it (its place
in `route`, its vendor calls, the records it enqueues, its report) is done for one caller, within
what was left of its cap, and the table held this caller, enabled, for the key of the header at an
instant less than the time to live before the request came; so if all rows of a key are disabled
from `d` on, every request with it that comes a time to live later is turned away. -/
theorem requests_authorized (app : KeyedApp) (httl : 0 < app.resolver.cacheTtlS) {start : ℚ}
    {rows : List CallerRow} {es : List KeyedEvent} {s : KeyedState}
    (hrun : Runs.run app.step (.boot start rows) es = some s) :
    (∀ req ∈ s.requests, ∃ call, s.auth.calls[req.auth]? = some call ∧
      (req.work.TurnedAway ∨
        ∃ caller, app.Vouches (.boot start rows) es call caller ∧ req.work.InNameOf caller)) ∧
    ∀ keyHash d, (∀ p m, p <+: es → Runs.run app.step (.boot start rows) p = some m →
        d < m.auth.clock → ∀ row ∈ m.auth.callers, row.keyHash = keyHash → row.enabled = false) →
      ∀ req ∈ s.requests, ∀ call, s.auth.calls[req.auth]? = some call →
        app.resolver.keyHash? call.header = some keyHash →
        d + app.resolver.cacheTtlS ≤ call.reading → req.work.TurnedAway := by
  have hserved : ∀ req ∈ s.requests, req.Served s :=
    Runs.invariant (fun _ s => ∀ req ∈ s.requests, req.Served s) (by simp [KeyedState.boot])
      (fun _ _ _ _ h hstep => app.served_step h hstep) hrun
  have hauth : CallerResolver.StalenessInv app.resolver (AuthState.init start rows)
      (es.filterMap KeyedEvent.auth?) s.auth :=
    CallerResolver.stalenessInv_of_run httl
      (Runs.run_filterMap KeyedApp.auth_move KeyedApp.auth_stay hrun)
  have hvouched : ∀ req ∈ s.requests, ∃ call, s.auth.calls[req.auth]? = some call ∧
      (req.work.TurnedAway ∨
        ∃ caller, app.Vouches (.boot start rows) es call caller ∧ req.work.InNameOf caller) := by
    intro req hreq
    obtain ⟨call, hcall, haway | ⟨caller, read, hpc, hname⟩⟩ := hserved req hreq
    · exact ⟨call, hcall, Or.inl haway⟩
    · have hbacked := (hauth.calls call (List.mem_of_getElem? hcall)).2
      simp only [CallerResolver.CallBacked, hpc] at hbacked
      obtain ⟨keyHash, hkey, p, m', hp, hm', hclock, hholds⟩ := hbacked
      -- the instant of the resolver is one of the whole
      obtain ⟨q, m, hq, hm, rfl⟩ := Runs.exists_run_of_prefix_filterMap KeyedApp.auth_move
        KeyedApp.auth_stay hrun hp hm'
      exact ⟨call, hcall, Or.inr ⟨caller, ⟨keyHash, q, m, hkey, hq, hm, hclock, hholds⟩, hname⟩⟩
  refine ⟨hvouched, fun keyHash d hdisabled req hreq call hcall hkey hlate => ?_⟩
  obtain ⟨call', hcall', haway | ⟨caller, hvouch, -⟩⟩ := hvouched req hreq
  · exact haway
  · obtain rfl := Option.some.inj (hcall.symm.trans hcall')
    obtain ⟨keyHash', p, m, hkey', hp, hm, hclock, row, hrow, hhash, henabled, -⟩ := hvouch
    obtain rfl := Option.some.inj (hkey.symm.trans hkey')
    have hd : d < m.auth.clock := by linarith
    rw [hdisabled p m hp hm hd row hrow hhash] at henabled
    cases henabled

/-- The endpoints with the sample resolver. -/
def keyedApp : KeyedApp := ⟨sampleResolver, soleRouter, .codePoints⟩

/-- A request is in `route` when its key is disabled; the next one comes a minute later. -/
def revokedEvents : List KeyedEvent :=
  [⟨0, .chat (some "Bearer k") hiRequest⟩, ⟨1, .auth (.read 0 (some (sampleRow true)))⟩,
    ⟨2, .auth (.resume 0)⟩, ⟨2, .resolved 0 ⟨"a", 0, firstAt 0⟩⟩,
    ⟨3, .auth (.change [sampleRow false])⟩, ⟨62, .chat (some "Bearer k") hiRequest⟩,
    ⟨62, .auth (.read 1 (some (sampleRow false)))⟩, ⟨63, .auth (.resume 1)⟩,
    ⟨63, .resolved 1 ⟨"b", 0, firstAt 0⟩⟩]

/-- Whether the request is in `route`. -/
def KeyedWork.isRouting : KeyedWork → Bool
  | .chat ⟨_, .routing _, _, _⟩ _ => true
  | _ => false

theorem KeyedWork.TurnedAway.isRouting {work : KeyedWork} (h : work.TurnedAway) :
    work.isRouting = false := by
  cases work with
  | chat task used =>
    obtain ⟨body, pc, calls, enqueued⟩ := task
    obtain ⟨-, -, hpc⟩ : ChatTask.TurnedAway ⟨body, pc, calls, enqueued⟩ := h
    rcases hpc with rfl | rfl | rfl <;> rfl
  | usage => rfl

/-- On that run, the first request is in `route` in the name of a caller that was vouched for. -/
theorem requests_authorized_revokedEvents :
    ∃ s req call caller, Runs.run keyedApp.step (.boot 0 [sampleRow true]) revokedEvents = some s ∧
      s.requests.head? = some req ∧ req.work.isRouting = true ∧
      s.requests.map (fun req => req.work.isRouting) = [true, false] ∧
      keyedApp.Vouches (.boot 0 [sampleRow true]) revokedEvents call caller ∧
      req.work.InNameOf caller := by
  have hend : (Runs.run keyedApp.step (.boot 0 [sampleRow true]) revokedEvents).any (fun s =>
      s.requests.map (fun req => req.work.isRouting) = [true, false]) = true := by
    decide +kernel
  obtain ⟨s, hs, hrouting⟩ := (Option.any_eq_true _ _).mp hend
  have hrouting := of_decide_eq_true hrouting
  have httl : (0 : ℚ) < keyedApp.resolver.cacheTtlS := by decide +kernel
  obtain ⟨hvouched, -⟩ := requests_authorized keyedApp httl hs
  match hreqs : s.requests, hrouting with
  | req :: others, hmap =>
    have hfirst : req.work.isRouting = true := (List.cons.inj hmap).1
    obtain ⟨call, -, haway | ⟨caller, hvouch, hname⟩⟩ := hvouched req (by simp [hreqs])
    · rw [haway.isRouting] at hfirst
      cases hfirst
    · exact ⟨s, req, call, caller, hs, by simp [hreqs], hfirst, by simpa [hreqs] using hmap,
        hvouch, hname⟩

end Librouter
