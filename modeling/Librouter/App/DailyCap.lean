/-
# The daily token cap

The cap is checked once, before `route`; what the request then uses is charged when its records have
gone through the queue into the table.  So every request whose check comes before the charge of the
others is let through, and a caller can overshoot its cap by as many requests as it can start in the
meantime, not by one.

`cap_overshoot_bounded` is what is left: if every check that lets a request through is up to date
(no other request of the caller has been let through and is not answered yet, and all its records
are written), the overshoot is less than one request.  The invariant is that a request that has
been let through is the only one of its caller, and that the responses of the day have used less
than the cap so far (`CapInv`).
-/
import Librouter.App.Ledger
import Librouter.App.Accounted

namespace Librouter

/-! ## 1. The promise and the condition -/

/-- The response counts for this caller and day. -/
def ServedResponse.For (x : ServedResponse) (name : String) (d : ℤ) : Prop :=
  x.caller = name ∧ utcDay x.time = d

instance (name : String) (d : ℤ) : DecidablePred fun x : ServedResponse => x.For name d :=
  fun _ => inferInstanceAs (Decidable (_ ∧ _))

/-- The tokens of the responses of a day. -/
def servedTokens (served : List ServedResponse) (name : String) (d : ℤ) : ℕ :=
  ((served.filter fun x => x.For name d).map ServedResponse.tokens).sum

/-- The responses of each day together stay below the cap and the tokens of one of them. -/
def OvershootBounded (served : List ServedResponse) (name : String) (cap : ℕ) : Prop :=
  ∀ d, (∃ x ∈ served, x.For name d) →
    ∃ x ∈ served, x.For name d ∧ servedTokens served name d < cap + x.tokens

/-- The request has been let through by its cap check, and is not answered yet. -/
def LedgerRequest.Admitted (r : LedgerRequest) (name : String) : Prop :=
  match r.chat.pc with
  | .checkingCap caller cap => caller.name = name ∧ ∃ used ∈ r.answer, used < cap
  | .routing t => t.caller.name = name
  | _ => False

instance (name : String) : DecidablePred fun r : LedgerRequest => r.Admitted name
  | ⟨⟨_, .checkingCap caller cap, _, _⟩, _, answer⟩ =>
    inferInstanceAs (Decidable (caller.name = name ∧ ∃ used ∈ answer, used < cap))
  | ⟨⟨_, .routing t, _, _⟩, _, _⟩ => inferInstanceAs (Decidable (t.caller.name = name))
  | ⟨⟨_, .resolving, _, _⟩, _, _⟩ => isFalse id
  | ⟨⟨_, .done _, _, _⟩, _, _⟩ => isFalse id

/-- If the check lets the request through, it is up to date: no other request of the caller has been
let through and is under way, and the records of all earlier ones are written. -/
def LedgerRequest.CheckedIn (r : LedgerRequest) (s : LedgerState) : Prop :=
  match r.chat.pc with
  | .checkingCap caller cap => tokensSince s.rows caller.name r.since < cap →
      (∀ r' ∈ s.requests, ¬ r'.Admitted caller.name) ∧
        ∀ rec ∈ s.queue.unwritten, rec.caller ≠ caller.name
  | _ => True

instance (s : LedgerState) : DecidablePred fun r : LedgerRequest => r.CheckedIn s
  | ⟨⟨_, .checkingCap caller cap, _, _⟩, since, _⟩ =>
    inferInstanceAs (Decidable (tokensSince s.rows caller.name since < cap →
      (∀ r' ∈ s.requests, ¬ r'.Admitted caller.name) ∧
        ∀ rec ∈ s.queue.unwritten, rec.caller ≠ caller.name))
  | ⟨⟨_, .routing _, _, _⟩, _, _⟩ => isTrue trivial
  | ⟨⟨_, .resolving, _, _⟩, _, _⟩ => isTrue trivial
  | ⟨⟨_, .done _, _, _⟩, _, _⟩ => isTrue trivial

/-- A cap check that the database executes is up to date, if it lets the request through. -/
def UpToDate (s : LedgerState) (e : LedgerEvent) : Prop :=
  match e.action with
  | .sum i => ∀ r ∈ s.requests[i]?, r.CheckedIn s
  | _ => True

instance (s : LedgerState) : DecidablePred (UpToDate s)
  | ⟨_, .sum i⟩ => inferInstanceAs (Decidable (∀ r ∈ s.requests[i]?, r.CheckedIn s))
  | ⟨_, .arrive _⟩ => isTrue trivial
  | ⟨_, .chat _ _⟩ => isTrue trivial
  | ⟨_, .drain _⟩ => isTrue trivial
  | ⟨_, .write _⟩ => isTrue trivial

/-! ## 2. What a response is charged -/

/-- A result of `route` is charged to the caller with its last record. -/
theorem RouteTask.charged_of_step {router : Router} {t t' : RouteTask} {event : RouteEvent}
    {response : ChatCompletionResponse} {attempts : List AttemptRecord}
    (hstep : t.step router event = some t')
    (hpc : t'.pc = .finished (.returned response attempts)) :
    ∃ rec ∈ attempts, rec.caller = t.caller.name ∧
      rec.tokens = response.usage.promptTokens + response.usage.completionTokens := by
  cases moves_of_step hstep with
  | crash | call | callFailed | callUnrecorded | callOk | giveUp | recordFails | noMessage =>
    cases hpc
  | bucketEmpty | vendorMissing | retry => exact absurd hpc (router.not_returned_loopTop _ _ _ _)
  | @answer cand elapsed result next response' attempts' hpc' hresponse hattempts =>
    cases hpc
    refine ⟨_, hattempts ▸ List.mem_append_right _ List.mem_cons_self, rfl, ?_⟩
    obtain ⟨message, -, rfl⟩ := Option.map_eq_some_iff.mp hresponse
    rfl

namespace ChatTask

theorem routing_of_proceed {c : ChatTask} {task t : RouteTask}
    (h : (c.proceed task).pc = .routing t) : t = task := by
  unfold proceed at h
  split at h <;> cases h
  rfl

/-- The end of `route` that leads to a response. -/
theorem returned_of_proceed {c : ChatTask} {task : RouteTask} {response : ChatCompletionResponse}
    (h : (c.proceed task).pc = .done (.ok response)) :
    ∃ attempts, task.pc = .finished (.returned response attempts) ∧
      (c.proceed task).enqueued = c.enqueued ++ attempts := by
  unfold proceed at h ⊢
  split at h
  · rename_i outcome hpc
    cases outcome with
    | returned response' attempts =>
      cases h
      exact ⟨attempts, hpc, rfl⟩
    | raised error => cases h
    | crashed => cases h
  · cases h

end ChatTask

/-- **A response is enqueued** with at least its tokens, by a request in `route`. -/
theorem newServed_cases {router : Router} {c c' : ChatTask} {event : ChatEvent} (now : ℚ)
    (hstep : c.step router event = some c') :
    newServed now c c' = [] ∨ ∃ t x, c.pc = .routing t ∧ (∀ t', c'.pc ≠ .routing t') ∧
      (∀ caller cap, c'.pc ≠ .checkingCap caller cap) ∧ newServed now c c' = [x] ∧
      x.time = now ∧ x.caller = t.caller.name ∧
      x.tokens ≤ callerTokens t.caller.name (c'.enqueued.drop c.enqueued.length) := by
  unfold newServed
  split
  · rename_i t response hpc hpc'
    refine Or.inr ⟨t, _, hpc, by simp [hpc'], by simp [hpc'], rfl, rfl, rfl, ?_⟩
    cases ChatTask.moves_of_step hstep with
    | @route task task' event hpc₁ htask =>
      obtain rfl : task = t := by simpa [hpc] using hpc₁.symm
      obtain ⟨attempts, hfinished, henqueued⟩ := ChatTask.returned_of_proceed hpc'
      obtain ⟨rec, hmem, hcaller, htokens⟩ := RouteTask.charged_of_step htask hfinished
      rw [henqueued, List.drop_left]
      rw [← htokens]
      refine List.single_le_sum (fun _ _ => Nat.zero_le _) _ (List.mem_map_of_mem ?_)
      exact List.mem_filter.mpr ⟨hmem, decide_eq_true hcaller⟩
    | noCaller hpc₁ | capped hpc₁ | uncapped hpc₁ | exhausted hpc₁ | underCap hpc₁
    | resolveFails hpc₁ | usageFails hpc₁ => simp [hpc] at hpc₁
  · exact Or.inl rfl

/-- **Only the cap check lets a request through.** -/
theorem LedgerRequest.admitted_of_step {ledger : Ledger} {r : LedgerRequest} {event : ChatEvent}
    {chat : ChatTask} {since : ℚ} {name : String} {cap : ℕ} (hcap : ledger.caps name = some cap)
    (hpermits : ledger.permits r event = true) (hstep : r.chat.step ledger.router event = some chat)
    (h : LedgerRequest.Admitted ⟨chat, since, none⟩ name) : r.Admitted name := by
  unfold Admitted at h
  split at h
  · obtain ⟨-, used, hnone, -⟩ := h
    cases hnone
  · rename_i t hpc
    subst h
    dsimp only at hpc
    unfold Admitted
    cases ChatTask.moves_of_step hstep with
    | noCaller | capped | exhausted | resolveFails | usageFails => cases hpc
    | @uncapped caller input hpc₁ hnone =>
      have ht := ChatTask.routing_of_proceed hpc
      have hcaller : t.caller = caller := by rw [ht, Router.begin_caller]
      have hsame := of_decide_eq_true hpermits
      rw [hnone, ← hcaller, hcap] at hsame
      cases hsame
    | @underCap caller cap' used input hpc₁ hused =>
      have ht := ChatTask.routing_of_proceed hpc
      have hcaller : t.caller = caller := by rw [ht, Router.begin_caller]
      rw [hpc₁, hcaller]
      exact ⟨rfl, used, of_decide_eq_true hpermits, hused⟩
    | @route task task' event hpc₁ htask =>
      obtain rfl := ChatTask.routing_of_proceed hpc
      rw [hpc₁]
      exact congrArg Caller.name (RouteTask.frame_step htask).2.1.symm
  · exact h.elim

/-! ## 3. Days -/

theorem utcDay_mono {t t' : ℚ} (h : t ≤ t') : utcDay t ≤ utcDay t' :=
  Int.floor_le_floor (div_le_div_of_nonneg_right h (by norm_num))

theorem start_le_iff {d : ℤ} {t : ℚ} : (86400 * d : ℚ) ≤ t ↔ d ≤ utcDay t := by
  rw [utcDay, Int.le_floor, le_div_iff₀ (by norm_num), mul_comm]

theorem servedTokens_append (served new : List ServedResponse) (name : String) (d : ℤ) :
    servedTokens (served ++ new) name d = servedTokens served name d + servedTokens new name d := by
  simp [servedTokens]

/-- Nothing was served on a day that has not come. -/
theorem servedTokens_eq_zero {served : List ServedResponse} {name : String} {d : ℤ}
    (h : ∀ x ∈ served, ¬ x.For name d) : servedTokens served name d = 0 := by
  have hnone : (served.filter fun x => x.For name d) = [] :=
    List.filter_eq_nil_iff.mpr fun x hx => by simpa using h x hx
  rw [servedTokens, hnone]
  rfl

theorem servedTokens_singleton_le (x : ServedResponse) (name : String) (d : ℤ) :
    servedTokens [x] name d ≤ if x.caller = name then x.tokens else 0 := by
  by_cases hcaller : x.caller = name
  · rw [if_pos hcaller]
    by_cases hday : utcDay x.time = d
    · simp [servedTokens, ServedResponse.For, hcaller, hday]
    · simp [servedTokens, ServedResponse.For, hday]
  · simp [servedTokens, ServedResponse.For, hcaller]

/-! ## 4. The invariant -/

/-- What the table and the queue know of the responses. -/
structure LedgerState.Charged (s : LedgerState) : Prop where
  queue : s.queue.Sound 10000
  past : ∀ x ∈ s.served, x.time ≤ s.clock
  since : ∀ r ∈ s.requests, ∀ caller cap, r.chat.pc = .checkingCap caller cap →
    r.since ≤ todayStart s.clock
  /-- the responses of a day are charged in the table since the day began, or in the queue -/
  covered : ∀ name d, d ≤ utcDay s.clock →
    servedTokens s.served name d + callerTokens name s.queue.written
      ≤ tokensSince s.rows name (86400 * d) + callerTokens name s.queue.enqueued

/-- Request `i` has been let through. -/
def LedgerState.AdmittedAt (s : LedgerState) (name : String) (i : ℕ) : Prop :=
  ∃ r, s.requests[i]? = some r ∧ r.Admitted name

/-- What holds of a caller with a cap. -/
structure CapInv (name : String) (cap : ℕ) (s : LedgerState) : Prop where
  /-- its cap checks are against this cap -/
  checking : ∀ r ∈ s.requests, ∀ caller cap', r.chat.pc = .checkingCap caller cap' →
    caller.name = name → cap' = cap
  /-- at most one request has been let through -/
  single : ∀ i j, s.AdmittedAt name i → s.AdmittedAt name j → i = j
  /-- and then there is room for it -/
  room : ∀ i, s.AdmittedAt name i → ∀ d, utcDay s.clock ≤ d → servedTokens s.served name d < cap
  bounded : OvershootBounded s.served name cap

theorem LedgerState.Charged.unserved {s : LedgerState} (h : s.Charged) {d : ℤ}
    (hd : utcDay s.clock < d) (name : String) : servedTokens s.served name d = 0 := by
  refine servedTokens_eq_zero fun x hx hfor => ?_
  have hpast := utcDay_mono (h.past x hx)
  rw [hfor.2] at hpast
  omega

/-- What is written was enqueued. -/
theorem LedgerState.Charged.written_le {s : LedgerState} (h : s.Charged) (name : String) :
    callerTokens name s.queue.written + callerTokens name s.queue.unwritten
      = callerTokens name s.queue.enqueued := by
  rw [← callerTokens_append, callerTokens_perm name h.queue.conserved.perm]

/-- Time passes. -/
theorem LedgerState.Charged.advance {s : LedgerState} (h : s.Charged) {now : ℚ}
    (hnow : s.clock ≤ now) : Charged { s with clock := now } where
  queue := h.queue
  past x hx := (h.past x hx).trans hnow
  since r hr caller cap hpc := (h.since r hr caller cap hpc).trans <| by
    have hday := utcDay_mono hnow
    rw [todayStart, todayStart]
    exact mul_le_mul_of_nonneg_left (Int.cast_le.mpr hday) (by norm_num)
  covered name d hd := by
    rcases le_or_gt d (utcDay s.clock) with hold | hnew
    · exact h.covered name d hold
    · have hunserved := h.unserved hnew name
      have hwritten := h.written_le name
      show servedTokens s.served name d + callerTokens name s.queue.written
        ≤ tokensSince s.rows name (86400 * d) + callerTokens name s.queue.enqueued
      omega

theorem CapInv.advance {name : String} {cap : ℕ} {s : LedgerState} (h : CapInv name cap s)
    {now : ℚ} (hnow : s.clock ≤ now) : CapInv name cap { s with clock := now } :=
  ⟨h.checking, h.single, fun i hi d hd => h.room i hi d ((utcDay_mono hnow).trans hd), h.bounded⟩

/-! ## 5. A step -/

/-- **Every transition keeps the responses charged.** -/
theorem LedgerState.Charged.step {ledger : Ledger} {s s' : LedgerState} {now : ℚ}
    {action : LedgerAction} (h : s.Charged) (hnow : s.clock ≤ now)
    (hmoves : s.Moves ledger now action s') : s'.Charged := by
  have hadvanced := h.advance hnow
  have hqueue := hmoves.queue h.queue
  cases hmoves with
  | arrive body =>
    refine ⟨hqueue, hadvanced.past, ?_, hadvanced.covered⟩
    rw [List.forall_mem_append, List.forall_mem_singleton]
    exact ⟨hadvanced.since, nofun⟩
  | @sum i r caller cap hr hpc hnone =>
    refine ⟨hqueue, hadvanced.past, fun r' hr' caller' cap' hpc' => ?_, hadvanced.covered⟩
    rcases List.mem_or_eq_of_mem_set hr' with hr' | rfl
    · exact hadvanced.since r' hr' caller' cap' hpc'
    · exact hadvanced.since r (List.mem_of_getElem? hr) caller' cap' hpc'
  | @chat i r event chat hr hpermits hchat =>
    obtain ⟨henqueued, hwritten, -⟩ :=
      s.queue.enqueueAll_history (chat.enqueued.drop r.chat.enqueued.length)
    refine ⟨hqueue, ?_, fun r' hr' caller' cap' hpc' => ?_, fun name d hd => ?_⟩
    · rw [List.forall_mem_append]
      refine ⟨hadvanced.past, fun x hx => ?_⟩
      rcases newServed_cases now hchat with hnone | ⟨t, y, -, -, -, hnew, htime, -, -⟩
      · rw [hnone] at hx
        cases hx
      · rw [hnew, List.mem_singleton] at hx
        rw [hx, htime]
    · rcases List.mem_or_eq_of_mem_set hr' with hr' | rfl
      · exact hadvanced.since r' hr' caller' cap' hpc'
      · exact le_refl _
    · have hcovered := hadvanced.covered name d hd
      have hnew : servedTokens (newServed now r.chat chat) name d
          ≤ callerTokens name (chat.enqueued.drop r.chat.enqueued.length) := by
        rcases newServed_cases now hchat with
          hnone | ⟨t, x, -, -, -, hx, -, hcaller, htokens⟩
        · rw [hnone]
          exact Nat.zero_le _
        · rw [hx]
          refine (servedTokens_singleton_le x name d).trans ?_
          split
          · rename_i hname
            rwa [← hcaller, hname] at htokens
          · exact Nat.zero_le _
      rw [henqueued, hwritten, servedTokens_append, callerTokens_append]
      dsimp only at hcovered ⊢
      omega
  | @drain event queue henqueue hsettled hstep =>
    refine ⟨hqueue, hadvanced.past, hadvanced.since, fun name d hd => ?_⟩
    obtain ⟨henqueued, hwritten, -⟩ := DrainState.history_step henqueue hsettled hstep
    rw [hwritten, henqueued]
    exact hadvanced.covered name d hd
  | @write who queue hall hstep =>
    refine ⟨hqueue, hadvanced.past, hadvanced.since, fun name d hd => ?_⟩
    have hcovered := hadvanced.covered name d hd
    obtain ⟨henqueued, hwritten, -⟩ := DrainState.history_written hstep
    rw [hwritten, henqueued, callerTokens_append, tokensSince_append,
      tokensSince_batch name (start_le_iff.mpr hd)]
    dsimp only at hcovered ⊢
    omega
  | @refuse who queue hall hstep =>
    refine ⟨hqueue, hadvanced.past, hadvanced.since, fun name d hd => ?_⟩
    obtain ⟨henqueued, hwritten, -⟩ := DrainState.history_refused hstep
    rw [hwritten, henqueued]
    exact hadvanced.covered name d hd

/-- A cap check is against the cap the caller comes with. -/
theorem ChatTask.capped_of_step {router : Router} {c c' : ChatTask} {event : ChatEvent}
    {caller : Caller} {cap : ℕ} (hstep : c.step router event = some c')
    (hpc : c'.pc = .checkingCap caller cap) :
    ∃ input, event = .resolved (some caller) input ∧ caller.dailyTokenCap = some cap := by
  have hproceed : ∀ task, (c.proceed task).pc ≠ .checkingCap caller cap := by
    intro task
    unfold proceed
    split <;> exact nofun
  cases moves_of_step hstep with
  | @capped caller' cap' input _ hcap =>
    cases hpc
    exact ⟨input, rfl, hcap⟩
  | noCaller | exhausted | resolveFails | usageFails => cases hpc
  | uncapped | underCap | route => exact absurd hpc (hproceed _)

/-- After one request has changed: who has been let through. -/
theorem LedgerState.admittedAt_set {s m : LedgerState} {name : String} {i : ℕ} {r' : LedgerRequest}
    (hm : m.requests = s.requests.set i r') {j : ℕ} (h : m.AdmittedAt name j) :
    j = i ∧ r'.Admitted name ∨ j ≠ i ∧ s.AdmittedAt name j := by
  obtain ⟨r, hr, hadmitted⟩ := h
  rw [hm, List.getElem?_set] at hr
  split at hr
  · rename_i hij
    split at hr <;> cases hr
    exact Or.inl ⟨hij.symm, hadmitted⟩
  · rename_i hij
    exact Or.inr ⟨Ne.symm hij, r, hr, hadmitted⟩

/-- A response of a request that was let through stays within the promise, and no other request of
the caller is under way. -/
theorem CapInv.bounded_append {name : String} {cap : ℕ} {s : LedgerState} (h : CapInv name cap s)
    {i : ℕ} (hi : s.AdmittedAt name i) {x : ServedResponse} (hx : utcDay x.time = utcDay s.clock)
    (hname : x.caller = name) : OvershootBounded (s.served ++ [x]) name cap := by
  intro d hd
  by_cases hday : utcDay x.time = d
  · -- the day of the response: it is the one that may exceed
    refine ⟨x, List.mem_append_right _ List.mem_cons_self, ⟨hname, hday⟩, ?_⟩
    have hroom := h.room i hi d (hx ▸ hday.le)
    have hnew := servedTokens_singleton_le x name d
    rw [if_pos hname] at hnew
    rw [servedTokens_append]
    omega
  · have hnew : servedTokens [x] name d = 0 :=
      servedTokens_eq_zero fun y hy hfor => hday (List.mem_singleton.mp hy ▸ hfor.2)
    obtain ⟨y, hy, hfor⟩ := hd
    have hold : ∃ y ∈ s.served, y.For name d := by
      rcases List.mem_append.mp hy with hy | hy
      · exact ⟨y, hy, hfor⟩
      · exact absurd (List.mem_singleton.mp hy ▸ hfor.2) hday
    obtain ⟨z, hz, hzfor, hlt⟩ := h.bounded d hold
    refine ⟨z, List.mem_append_left _ hz, hzfor, ?_⟩
    rw [servedTokens_append, hnew]
    exact hlt

/-- A response to somebody else. -/
theorem bounded_append_of_ne {name : String} {cap : ℕ} {served : List ServedResponse}
    (h : OvershootBounded served name cap) {x : ServedResponse} (hname : x.caller ≠ name) :
    (∀ d, servedTokens (served ++ [x]) name d = servedTokens served name d) ∧
      OvershootBounded (served ++ [x]) name cap := by
  have hsame : ∀ d, servedTokens (served ++ [x]) name d = servedTokens served name d := by
    intro d
    have hnew : servedTokens [x] name d = 0 :=
      servedTokens_eq_zero fun y hy hfor => hname (List.mem_singleton.mp hy ▸ hfor.1)
    rw [servedTokens_append, hnew, Nat.add_zero]
  refine ⟨hsame, fun d hd => ?_⟩
  obtain ⟨y, hy, hfor⟩ := hd
  have hold : ∃ y ∈ served, y.For name d := by
    rcases List.mem_append.mp hy with hy | hy
    · exact ⟨y, hy, hfor⟩
    · exact absurd (List.mem_singleton.mp hy ▸ hfor.1) hname
  obtain ⟨z, hz, hzfor, hlt⟩ := h d hold
  exact ⟨z, List.mem_append_left _ hz, hzfor, (hsame d).symm ▸ hlt⟩

namespace CapInv

variable {ledger : Ledger} {name : String} {cap : ℕ} {s s' : LedgerState}

/-- What keeps a request from being let through keeps the invariant, while nothing is served. -/
theorem of_admittedAt (h : CapInv name cap s) (hclock : s'.clock = s.clock)
    (hserved : s'.served = s.served)
    (hchecking : ∀ r ∈ s'.requests, ∀ caller cap', r.chat.pc = .checkingCap caller cap' →
      caller.name = name → cap' = cap)
    (hadmitted : ∀ j, s'.AdmittedAt name j → s.AdmittedAt name j) : CapInv name cap s' where
  checking := hchecking
  single i j hi hj := h.single i j (hadmitted i hi) (hadmitted j hj)
  room i hi d hd := by
    rw [hserved]
    exact h.room i (hadmitted i hi) d (hclock ▸ hd)
  bounded := hserved ▸ h.bounded

theorem arrive (h : CapInv name cap s) (body : ChatCompletionRequest) :
    CapInv name cap { s with requests := s.requests ++ [{ chat := ChatTask.start body }] } := by
  refine h.of_admittedAt rfl rfl ?_ ?_
  · rw [List.forall_mem_append, List.forall_mem_singleton]
    exact ⟨h.checking, nofun⟩
  · rintro j ⟨r, hr, hadmitted⟩
    rw [List.getElem?_append] at hr
    split at hr
    · exact ⟨r, hr, hadmitted⟩
    · obtain rfl : _ = r := List.mem_singleton.mp (List.mem_of_getElem? hr) |>.symm
      exact hadmitted.elim

/-- The cap checks of the other requests stay what they are. -/
theorem checking_set (h : CapInv name cap s) (i : ℕ) (r' : LedgerRequest)
    (hr' : ∀ caller cap', r'.chat.pc = .checkingCap caller cap' → caller.name = name → cap' = cap) :
    ∀ r ∈ s.requests.set i r', ∀ caller cap', r.chat.pc = .checkingCap caller cap' →
      caller.name = name → cap' = cap := by
  intro r hr
  rcases List.mem_or_eq_of_mem_set hr with hr | rfl
  · exact h.checking r hr
  · exact hr'

/-- **The database sums up.**  If it lets the request through, there is room: what was served today
is all in the sum. -/
theorem sum (h : CapInv name cap s) (hcharged : s.Charged) {i : ℕ} {r r' : LedgerRequest}
    {caller : Caller} {cap' : ℕ} (hr : s.requests[i]? = some r)
    (hpc : r.chat.pc = .checkingCap caller cap') (hfresh : r.CheckedIn s)
    (hr' : r' = { r with answer := some (tokensSince s.rows caller.name r.since) }) :
    CapInv name cap { s with requests := s.requests.set i r' } := by
  have hmem := List.mem_of_getElem? hr
  have hpc' : r'.chat.pc = .checkingCap caller cap' := by rw [hr', ← hpc]
  have hthis : r'.Admitted name ↔
      caller.name = name ∧ tokensSince s.rows caller.name r.since < cap' := by
    unfold LedgerRequest.Admitted
    rw [hpc', hr']
    simp
  have hchecking := h.checking_set i r' <| by
    rw [hr']
    exact h.checking r hmem
  by_cases hlet : r'.Admitted name
  · obtain ⟨rfl, hused⟩ := hthis.mp hlet
    obtain rfl := h.checking r hmem caller cap' hpc rfl
    unfold LedgerRequest.CheckedIn at hfresh
    rw [hpc] at hfresh
    obtain ⟨hnobody, hwritten⟩ := hfresh hused
    have honly : ∀ j, LedgerState.AdmittedAt { s with requests := s.requests.set i r' }
        caller.name j → j = i := by
      intro j hj
      rcases LedgerState.admittedAt_set rfl hj with ⟨hji, -⟩ | ⟨-, r₁, hr₁, hadmitted⟩
      · exact hji
      · exact absurd hadmitted (hnobody r₁ (List.mem_of_getElem? hr₁))
    refine ⟨hchecking, fun j k hj hk => (honly j hj).trans (honly k hk).symm,
      fun j hj d hd => ?_, h.bounded⟩
    rcases eq_or_lt_of_le hd with htoday | hlater
    · have hcovered := hcharged.covered caller.name d htoday.ge
      have hall := hcharged.written_le caller.name
      rw [callerTokens_eq_zero caller.name hwritten] at hall
      have hsince : r.since ≤ 86400 * d := by
        rw [← htoday]
        exact hcharged.since r hmem caller cap' hpc
      have hlonger := tokensSince_anti caller.name s.rows hsince
      dsimp only
      omega
    · dsimp only
      rw [hcharged.unserved hlater caller.name]
      omega
  · refine h.of_admittedAt rfl rfl hchecking fun j hj => ?_
    rcases LedgerState.admittedAt_set rfl hj with ⟨-, hadmitted⟩ | ⟨-, hj⟩
    · exact absurd hadmitted hlet
    · exact hj

/-- **A request goes on.**  A response is given by the one request that had been let through. -/
theorem chat (h : CapInv name cap s) (hcap : ledger.caps name = some cap) {i : ℕ}
    {r : LedgerRequest} {event : ChatEvent} {chat : ChatTask} (hr : s.requests[i]? = some r)
    (hpermits : ledger.permits r event = true)
    (hchat : r.chat.step ledger.router event = some chat) (since : ℚ) (queue : DrainState) :
    CapInv name cap
      { s with
        requests := s.requests.set i ⟨chat, since, none⟩
        queue := queue
        served := s.served ++ newServed s.clock r.chat chat } := by
  have hchecking := h.checking_set i ⟨chat, since, none⟩ <| by
    intro caller cap' hpc hname
    obtain ⟨input, rfl, hsome⟩ := ChatTask.capped_of_step hchat hpc
    have hsame := of_decide_eq_true hpermits
    rw [hsome, hname, hcap] at hsame
    exact Option.some.inj hsame
  have hadmitted : ∀ j, LedgerState.AdmittedAt
      { s with requests := s.requests.set i ⟨chat, since, none⟩ } name j →
      s.AdmittedAt name j ∧ (j = i → LedgerRequest.Admitted ⟨chat, since, none⟩ name) := by
    intro j hj
    rcases LedgerState.admittedAt_set rfl hj with ⟨rfl, hr'⟩ | ⟨hne, hj⟩
    · exact ⟨⟨r, hr, LedgerRequest.admitted_of_step hcap hpermits hchat hr'⟩, fun _ => hr'⟩
    · exact ⟨hj, fun hji => absurd hji hne⟩
  rcases newServed_cases s.clock hchat with
    hnew | ⟨t, x, hpc, hrouting, hcapping, hnew, htime, hcaller, -⟩
  · rw [hnew, List.append_nil]
    exact h.of_admittedAt rfl rfl hchecking fun j hj => (hadmitted j hj).1
  · rw [hnew]
    by_cases hname : x.caller = name
    · -- it is answered, and no other request of the caller is under way
      have hi : s.AdmittedAt name i := by
        refine ⟨r, hr, ?_⟩
        unfold LedgerRequest.Admitted
        rw [hpc]
        exact hcaller.symm.trans hname
      have hgone : ¬ LedgerRequest.Admitted ⟨chat, since, none⟩ name := by
        unfold LedgerRequest.Admitted
        split
        · exact absurd ‹_› (hcapping _ _)
        · exact absurd ‹_› (hrouting _)
        · exact not_false
      have hnone : ∀ j, ¬ LedgerState.AdmittedAt
          { s with requests := s.requests.set i ⟨chat, since, none⟩ } name j := by
        intro j hj
        have hji := h.single j i (hadmitted j hj).1 hi
        exact hgone ((hadmitted j hj).2 hji)
      exact ⟨hchecking, fun j _ hj => absurd hj (hnone j), fun j hj => absurd hj (hnone j),
        h.bounded_append hi (by rw [htime]) hname⟩
    · obtain ⟨hsame, hbounded⟩ := bounded_append_of_ne h.bounded hname
      refine ⟨hchecking, fun j k hj hk => h.single j k (hadmitted j hj).1 (hadmitted k hk).1,
        fun j hj d hd => ?_, hbounded⟩
      dsimp only
      rw [hsame]
      exact h.room j (hadmitted j hj).1 d hd

/-- **Every transition keeps the promise**, if the check it may be is up to date. -/
theorem step {e : LedgerEvent} (h : CapInv name cap s) (hcap : ledger.caps name = some cap)
    (hcharged : s.Charged) (hnow : s.clock ≤ e.now) (hfresh : UpToDate s e)
    (hmoves : s.Moves ledger e.now e.action s') : CapInv name cap s' := by
  have hadvanced := h.advance hnow
  unfold UpToDate at hfresh
  generalize e.action = action at hfresh hmoves
  cases hmoves with
  | arrive body => exact hadvanced.arrive body
  | sum hr hpc hnone => exact hadvanced.sum (hcharged.advance hnow) hr hpc (hfresh _ hr) rfl
  | chat hr hpermits hchat => exact hadvanced.chat hcap hr hpermits hchat _ _
  | drain | write | refuse =>
    exact ⟨hadvanced.checking, hadvanced.single, hadvanced.room, hadvanced.bounded⟩

end CapInv

/-! ## 6. Every run -/

theorem Ledger.charged_boot (start : ℚ) (rows : List RequestRow) :
    (Ledger.boot start rows).Charged where
  queue := DrainState.sound_of_run (by norm_num) (Runs.run_nil (DrainState.init 10000 200))
  past x hx := absurd hx List.not_mem_nil
  since r hr := absurd hr List.not_mem_nil
  covered name d _ := by
    have hserved : servedTokens (Ledger.boot start rows).served name d = 0 := rfl
    have hwritten : callerTokens name (Ledger.boot start rows).queue.written = 0 := rfl
    rw [hserved, hwritten]
    exact Nat.zero_le _

theorem Ledger.not_admittedAt_boot (start : ℚ) (rows : List RequestRow) (name : String) (i : ℕ) :
    ¬ (Ledger.boot start rows).AdmittedAt name i := by
  rintro ⟨r, hr, -⟩
  cases hr

/-- **What is left of the promise.**  In every run in which each cap check that lets a request
through is up to date, the successful responses of a caller with a cap in one UTC day use less than
the cap and the tokens of one of them. -/
theorem cap_overshoot_bounded (ledger : Ledger) {start : ℚ} {rows : List RequestRow}
    {es : List LedgerEvent} {s : LedgerState}
    (hrun : Runs.run ledger.step (Ledger.boot start rows) es = some s)
    (hfresh : Runs.Along ledger.step UpToDate (Ledger.boot start rows) es) {name : String} {cap : ℕ}
    (hcap : ledger.caps name = some cap) : OvershootBounded s.served name cap := by
  have hboot : (Ledger.boot start rows).Charged ∧ CapInv name cap (Ledger.boot start rows) :=
    ⟨Ledger.charged_boot start rows, fun r hr => absurd hr List.not_mem_nil,
      fun i j hi => (Ledger.not_admittedAt_boot _ _ _ _ hi).elim,
      fun i hi => (Ledger.not_admittedAt_boot _ _ _ _ hi).elim,
      fun d hd => absurd hd.choose_spec.1 List.not_mem_nil⟩
  have hend := Runs.invariant_along _ (fun _ s => s.Charged ∧ CapInv name cap s) hboot
    (fun _ s e s' h hfresh hstep => by
      obtain ⟨hnow, hmoves⟩ := Ledger.moves_of_step hstep
      exact ⟨h.1.step hnow hmoves, h.2.step hcap h.1 hnow hfresh hmoves⟩) hrun hfresh
  exact hend.2.bounded

/-! ## 7. A burst -/

/-- A cap of ten tokens for `web`. -/
def cappedLedger : Ledger where
  router := soleRouter
  caps := fun name => if name = "web" then some 10 else none
  accepts := fun _ => true

def cappedCaller : Caller := { webCaller with dailyTokenCap := some 10 }

/-- A request arrives and its caller is resolved. -/
def capArrives (i : ℕ) : List LedgerEvent :=
  [⟨0, .arrive hiRequest⟩, ⟨0, .chat i (.resolved (some cappedCaller) ⟨"r", 0, firstLeft 0⟩)⟩]

/-- The cap is checked when nothing has been used. -/
def capCheck (i : ℕ) : List LedgerEvent :=
  [⟨0, .sum i⟩, ⟨0, .chat i (.tokensUsed 0 ⟨"r", 0, firstLeft 0⟩)⟩]

/-- The vendor answers with ten tokens. -/
def capAnswer (i : ℕ) : List LedgerEvent :=
  [⟨1, .chat i (.route (.acquired true 1 (firstLeft 1)))⟩,
    ⟨1, .chat i (.route (.replied (.ok ⟨"hello", some "stop", 4, 6, none⟩) 1))⟩,
    ⟨1, .chat i (.route (.recorded (firstLeft 1)))⟩]

/-- One request from its arrival to its answer. -/
def soleEvents : List LedgerEvent := capArrives 0 ++ capCheck 0 ++ capAnswer 0

/-- `cap_overshoot_bounded` on that run. -/
theorem cap_overshoot_bounded_sole :
    ∃ s, Runs.run cappedLedger.step (Ledger.boot 0 []) soleEvents = some s ∧
      s.served.map ServedResponse.tokens = [10] ∧ OvershootBounded s.served "web" 10 := by
  have hrun : (Runs.run cappedLedger.step (Ledger.boot 0 []) soleEvents).any (fun s =>
      s.served.map ServedResponse.tokens = [10]) = true := by
    decide +kernel
  have hfresh : Runs.Along cappedLedger.step UpToDate (Ledger.boot 0 []) soleEvents := by
    decide +kernel
  obtain ⟨s, hs, htokens⟩ := (Option.any_eq_true _ _).mp hrun
  exact ⟨s, hs, of_decide_eq_true htokens,
    cap_overshoot_bounded cappedLedger hs hfresh rfl⟩

/-- Three requests at once: all three are checked before one of them is charged. -/
def burst : List LedgerEvent :=
  (List.range 3).flatMap capArrives ++ (List.range 3).flatMap capCheck ++
    (List.range 3).flatMap capAnswer

/-- **The overshoot is two requests**: thirty tokens against a cap of ten, ten for each request. -/
theorem burst_overshoots :
    ∃ s, Runs.run cappedLedger.step (Ledger.boot 0 []) burst = some s ∧
      s.served.map ServedResponse.tokens = [10, 10, 10] ∧ servedTokens s.served "web" 0 = 30 ∧
      ¬ OvershootBounded s.served "web" 10 := by
  have hrun : (Runs.run cappedLedger.step (Ledger.boot 0 []) burst).any (fun s =>
      s.served.map ServedResponse.tokens = [10, 10, 10] ∧ servedTokens s.served "web" 0 = 30 ∧
        ∃ x ∈ s.served, x.For "web" 0) = true := by
    decide +kernel
  obtain ⟨s, hs, hdecided⟩ := (Option.any_eq_true _ _).mp hrun
  obtain ⟨htokens, hthirty, hsome⟩ := of_decide_eq_true hdecided
  refine ⟨s, hs, htokens, hthirty, fun hbounded => ?_⟩
  obtain ⟨x, hx, -, hlt⟩ := hbounded 0 hsome
  have hten : x.tokens ∈ [10, 10, 10] := htokens ▸ List.mem_map_of_mem hx
  have heq : x.tokens = 10 := by simpa using hten
  omega

end Librouter
