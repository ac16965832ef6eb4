/-
# How stale a resolved caller can be

A cache entry carries the clock reading of the call that stored it, and that call read the database
no earlier than it read the clock.  `StalenessInv` says so of every entry and every call in flight,
whatever was overwritten, moved or evicted: behind each caller stands an instant of the run at which
the table held it.  A fresh hit adds less than `cache_ttl_s` to that.
-/
import Librouter.Auth

namespace Librouter

/-- An enabled row of the table has the hash, and reads as `caller`. -/
def AuthState.Holds (s : AuthState) (keyHash : String) (caller : Caller) : Prop :=
  ∃ row ∈ s.callers, row.keyHash = keyHash ∧ row.enabled = true ∧ row.caller = some caller

/-- The event is a step of call `i`. -/
def AuthState.IsStepOf (s : AuthState) (e : AuthEvent) (i : ℕ) : Prop :=
  match e.action with
  | .call _ => i = s.calls.length
  | .read j _ => i = j
  | .resume j => i = j
  | .fail j => i = j
  | .change _ => False

namespace CallerResolver

variable {r : CallerResolver} {s₀ s s' : AuthState} {es es' : List AuthEvent}
variable {keyHash : String} {caller : Caller}

/-! ## 1. Instants of a run -/

/-- At an instant of the run that meets `P`, the table holds `caller` for the hash. -/
def Held (r : CallerResolver) (s₀ : AuthState) (es : List AuthEvent) (P : ℚ → Prop)
    (keyHash : String) (caller : Caller) : Prop :=
  ∃ p m, p <+: es ∧ Runs.run r.step s₀ p = some m ∧ P m.clock ∧ m.Holds keyHash caller

theorem Held.mono {P Q : ℚ → Prop} (h : Held r s₀ es P keyHash caller) (hes : es <+: es')
    (hPQ : ∀ x, P x → Q x) : Held r s₀ es' Q keyHash caller := by
  obtain ⟨p, m, hp, hrun, hclock, hholds⟩ := h
  exact ⟨p, m, hp.trans hes, hrun, hPQ _ hclock, hholds⟩

/-! ## 2. The invariant -/

/-- What is behind a call. -/
def CallBacked (r : CallerResolver) (s₀ : AuthState) (es : List AuthEvent) (call : AuthCall) :
    Prop :=
  match call.pc with
  | .looking keyHash => r.keyHash? call.header = some keyHash
  | .fetched keyHash answer _ => r.keyHash? call.header = some keyHash ∧
      ∀ row ∈ answer, ∀ caller, row.caller = some caller → caller.enabled = true →
        Held r s₀ es (call.reading ≤ ·) keyHash caller
  | .returned (some caller) _ => ∃ keyHash, r.keyHash? call.header = some keyHash ∧
      Held r s₀ es (call.reading - r.cacheTtlS < ·) keyHash caller
  | .returned none _ => True
  | .raised => True

/-- What is behind a cache entry. -/
def EntryBacked (r : CallerResolver) (s₀ : AuthState) (es : List AuthEvent)
    (e : String × CacheEntry) : Prop :=
  ∀ caller, e.2.caller = some caller → Held r s₀ es (e.2.stamp ≤ ·) e.1 caller

theorem CallBacked.mono {call : AuthCall} (h : CallBacked r s₀ es call) (hes : es <+: es') :
    CallBacked r s₀ es' call := by
  unfold CallBacked at h ⊢
  split <;> rename_i hpc <;> rw [hpc] at h
  · exact h
  · exact ⟨h.1, fun row hrow caller hcaller henabled =>
      (h.2 row hrow caller hcaller henabled).mono hes fun _ hx => hx⟩
  · obtain ⟨keyHash, hkey, hheld⟩ := h
    exact ⟨keyHash, hkey, hheld.mono hes fun _ hx => hx⟩
  · trivial
  · trivial

/-- A call that began by `now`, and what is behind it. -/
def CallKnown (r : CallerResolver) (s₀ : AuthState) (es : List AuthEvent) (now : ℚ)
    (call : AuthCall) : Prop :=
  call.reading ≤ now ∧ CallBacked r s₀ es call

/-- Behind everything the resolver knows there is an instant of the run. -/
structure StalenessInv (r : CallerResolver) (s₀ : AuthState) (es : List AuthEvent)
    (s : AuthState) : Prop where
  run : Runs.run r.step s₀ es = some s
  calls : ∀ call ∈ s.calls, CallKnown r s₀ es s.clock call
  cache : ∀ e ∈ s.cache.items, EntryBacked r s₀ es e

/-- **Every step keeps the invariant.** -/
theorem StalenessInv.step (httl : 0 < r.cacheTtlS) (h : StalenessInv r s₀ es s) {e : AuthEvent}
    (hstep : r.step s e = some s') : StalenessInv r s₀ (es ++ [e]) s' := by
  obtain ⟨hnow, hmoves⟩ := moves_of_step hstep
  have hrun : Runs.run r.step s₀ (es ++ [e]) = some s' := Runs.run_concat_iff.mpr ⟨s, h.run, hstep⟩
  have hes : es <+: es ++ [e] := List.prefix_append _ _
  -- what was known stays known
  have hcalls : ∀ call ∈ s.calls, CallKnown r s₀ (es ++ [e]) e.now call :=
    fun call hcall => ⟨(h.calls call hcall).1.trans hnow, (h.calls call hcall).2.mono hes⟩
  have hcache : ∀ entry ∈ s.cache.items, EntryBacked r s₀ (es ++ [e]) entry :=
    fun entry hentry caller hcaller => (h.cache entry hentry caller hcaller).mono hes fun _ hx => hx
  generalize e.action = action at hmoves
  cases hmoves with
  | rejected hkey => exact ⟨hrun, forall_append hcalls ⟨le_rfl, trivial⟩, hcache⟩
  | @hit header keyHash entry hkey hentry hfresh =>
    refine ⟨hrun, forall_append hcalls ⟨le_rfl, ?_⟩, fun entry hentry =>
      hcache entry (Dict.mem_items_moveToEnd.mp hentry)⟩
    cases hcaller : entry.caller with
    | none => trivial
    | some caller =>
      refine ⟨keyHash, hkey, (h.cache _ hentry caller hcaller).mono hes fun x hx => ?_⟩
      have hstamp : entry.stamp ≤ x := hx
      show e.now - r.cacheTtlS < x
      linarith
  | miss hkey => exact ⟨hrun, forall_append hcalls ⟨le_rfl, hkey⟩, hcache⟩
  | @read i call keyHash answer hcall hpc hanswer =>
    obtain ⟨hreading, hkey⟩ := h.calls call (List.mem_of_getElem? hcall)
    simp only [CallBacked, hpc] at hkey
    refine ⟨hrun, forall_goto hcalls ⟨hreading.trans hnow, hkey, ?_⟩, hcache⟩
    intro row hrow caller hcaller henabled
    -- this is the instant
    obtain rfl : answer = some row := hrow
    refine ⟨es ++ [e], _, List.prefix_rfl, hrun, hreading.trans hnow, row, hanswer.1, hanswer.2, ?_,
      hcaller⟩
    rw [← (CallerRow.caller_eq_some hcaller).2.1, henabled]
  | @answered i call keyHash answer read result hcall hpc hresult =>
    obtain ⟨hreading, hbacked⟩ := h.calls call (List.mem_of_getElem? hcall)
    simp only [CallBacked, hpc] at hbacked
    obtain ⟨hkey, hheld⟩ := hbacked
    have hsince : ∀ caller, active result = some caller →
        Held r s₀ (es ++ [e]) (call.reading ≤ ·) keyHash caller := by
      intro caller hactive
      obtain ⟨row, hrow, hcaller, henabled⟩ := row_of_active hresult hactive
      exact (hheld row hrow caller hcaller henabled).mono hes fun _ hx => hx
    refine ⟨hrun, forall_goto hcalls ⟨hreading.trans hnow, ?_⟩, fun entry hentry => ?_⟩
    · cases hactive : active result with
      | none => trivial
      | some caller =>
        refine ⟨keyHash, hkey, (hsince caller hactive).mono List.prefix_rfl fun x hx => ?_⟩
        have hreading : call.reading ≤ x := hx
        show call.reading - r.cacheTtlS < x
        linarith
    · rcases mem_store hentry with rfl | ⟨-, hentry⟩
      · exact hsince
      · exact hcache entry hentry
  | @invalid i call _ _ _ hcall _ _ | @failed i call hcall _ =>
    obtain ⟨hreading, -⟩ := h.calls call (List.mem_of_getElem? hcall)
    exact ⟨hrun, forall_goto hcalls ⟨hreading.trans hnow, trivial⟩, hcache⟩
  | change => exact ⟨hrun, hcalls, hcache⟩

theorem stalenessInv_of_run (httl : 0 < r.cacheTtlS) {clock : ℚ} {rows : List CallerRow}
    (hrun : Runs.run r.step (AuthState.init clock rows) es = some s) :
    StalenessInv r (AuthState.init clock rows) es s := by
  have hinit : StalenessInv r (AuthState.init clock rows) [] (AuthState.init clock rows) :=
    ⟨rfl, by simp [AuthState.init], by simp [AuthState.init]⟩
  exact Runs.invariant _ hinit (fun _ _ _ _ h hstep => h.step httl hstep) hrun

/-! ## 3. Calls that raise -/

/-- Only a call that returns touches the cache. -/
theorem cache_step {e : AuthEvent} (hstep : r.step s e = some s') :
    s'.cache = s.cache ∨ ∃ i call result read, s.IsStepOf e i ∧ s'.calls[i]? = some call ∧
      call.pc = .returned result read := by
  obtain ⟨-, hmoves⟩ := moves_of_step hstep
  obtain ⟨now, action⟩ := e
  cases hmoves with
  | rejected | miss | read | invalid | failed | change => exact Or.inl rfl
  | hit => exact Or.inr ⟨s.calls.length, _, _, _, rfl, List.getElem?_concat_length, rfl⟩
  | @answered i call keyHash answer read caller hcall hpc hcaller =>
    have hlt : i < s.calls.length := (List.getElem?_eq_some_iff.mp hcall).1
    exact Or.inr ⟨i, _, _, _, rfl, List.getElem?_set_self hlt, rfl⟩

theorem isStepOf_unique {e : AuthEvent} {i j : ℕ} (hi : s.IsStepOf e i) (hj : s.IsStepOf e j) :
    i = j := by
  obtain ⟨now, action⟩ := e
  cases action with
  | call | read | resume | fail => exact Eq.trans hi hj.symm
  | change => exact absurd hi id

/-- No step of a call that raises touches the cache. -/
theorem cache_of_raised (hrun : Runs.run r.step s₀ es = some s) {i : ℕ} {call : AuthCall}
    (hcall : s.calls[i]? = some call) (hraised : call.pc = .raised) {p q : List AuthEvent}
    {e : AuthEvent} {m m' : AuthState} (hes : es = p ++ e :: q)
    (hm : Runs.run r.step s₀ p = some m) (hstep : r.step m e = some m') (hof : m.IsStepOf e i) :
    m'.cache = m.cache := by
  rcases cache_step hstep with hcache | ⟨j, other, result, read, hother, hreturned, hpc⟩
  · exact hcache
  · -- it returned, and did not raise
    obtain rfl := isStepOf_unique hof hother
    rw [hes, Runs.run_append_iff] at hrun
    obtain ⟨m₁, hm₁, hrun⟩ := hrun
    obtain rfl := Option.some.inj (hm.symm.trans hm₁)
    obtain ⟨m₂, hm₂, hrun⟩ := Runs.run_cons_iff.mp hrun
    obtain rfl := Option.some.inj (hstep.symm.trans hm₂)
    have hend := returned_of_run hrun hreturned hpc
    obtain rfl := Option.some.inj (hcall.symm.trans hend)
    rw [hraised] at hpc
    cases hpc

/-! ## 4. The bound -/

/-- **A caller that is returned was held, enabled, less than the time to live before the clock
reading of the call**; so after a key is disabled for good, nothing is returned for it from a time
to live later on; and a call that raises leaves the cache alone. -/
theorem staleness_bounded (r : CallerResolver) (httl : 0 < r.cacheTtlS) {clock : ℚ}
    {rows : List CallerRow} {es : List AuthEvent} {s : AuthState}
    (hrun : Runs.run r.step (AuthState.init clock rows) es = some s) :
    (∀ call ∈ s.calls, ∀ caller read, call.pc = .returned (some caller) read →
      ∃ keyHash p m, r.keyHash? call.header = some keyHash ∧ p <+: es ∧
        Runs.run r.step (AuthState.init clock rows) p = some m ∧
        call.reading - r.cacheTtlS < m.clock ∧ m.Holds keyHash caller) ∧
    (∀ keyHash d, (∀ p m, p <+: es → Runs.run r.step (AuthState.init clock rows) p = some m →
        d < m.clock → ∀ row ∈ m.callers, row.keyHash = keyHash → row.enabled = false) →
      ∀ call ∈ s.calls, r.keyHash? call.header = some keyHash →
        d + r.cacheTtlS ≤ call.reading → ∀ result read, call.pc = .returned result read →
          result = none) ∧
    ∀ i call, s.calls[i]? = some call → call.pc = .raised → ∀ p e q m m', es = p ++ e :: q →
      Runs.run r.step (AuthState.init clock rows) p = some m → r.step m e = some m' →
        m.IsStepOf e i → m'.cache = m.cache := by
  have hinv := stalenessInv_of_run httl hrun
  have hheld : ∀ call ∈ s.calls, ∀ caller read, call.pc = .returned (some caller) read →
      ∃ keyHash, r.keyHash? call.header = some keyHash ∧
        Held r (AuthState.init clock rows) es (call.reading - r.cacheTtlS < ·) keyHash caller := by
    intro call hcall caller read hpc
    have hbacked := (hinv.calls call hcall).2
    simpa only [CallBacked, hpc] using hbacked
  refine ⟨?_, ?_, ?_⟩
  · intro call hcall caller read hpc
    obtain ⟨keyHash, hkey, p, m, hp, hm, hclock, hholds⟩ := hheld call hcall caller read hpc
    exact ⟨keyHash, p, m, hkey, hp, hm, hclock, hholds⟩
  · intro keyHash d hdisabled call hcall hkey hlate result read hpc
    cases result with
    | none => rfl
    | some caller =>
      obtain ⟨keyHash', hkey', p, m, hp, hm, hclock, row, hrow, hhash, henabled, -⟩ :=
        hheld call hcall caller read hpc
      obtain rfl := Option.some.inj (hkey.symm.trans hkey')
      have hd : d < m.clock := by
        have hclock : call.reading - r.cacheTtlS < m.clock := hclock
        linarith
      rw [hdisabled p m hp hm hd row hrow hhash] at henabled
      cases henabled
  · intro i call hcall hraised p e q m m' hes hm hstep hof
    exact cache_of_raised hrun hcall hraised hes hm hstep hof

/-- A key is looked up, and hit half a minute later, after its row was disabled. -/
def hitEvents : List AuthEvent :=
  [⟨0, .call (some "Bearer k")⟩, ⟨1, .read 0 (some (sampleRow true))⟩, ⟨2, .resume 0⟩,
    ⟨3, .change [sampleRow false]⟩, ⟨30, .call (some "Bearer k")⟩]

theorem staleness_bounded_hit : ∃ s caller, Runs.run sampleResolver.step
    (AuthState.init 0 [sampleRow true]) hitEvents = some s ∧
    (∃ call ∈ s.calls, call.reading = 30 ∧ call.caller? = some caller) ∧
    ∃ keyHash p m, p <+: hitEvents ∧
      Runs.run sampleResolver.step (AuthState.init 0 [sampleRow true]) p = some m ∧
      30 - 60 < m.clock ∧ m.Holds keyHash caller := by
  have hend : (Runs.run sampleResolver.step (AuthState.init 0 [sampleRow true]) hitEvents).any
      (fun s => s.calls.any fun call => call.reading = 30 && call.caller?.isSome) = true := by
    decide +kernel
  obtain ⟨s, hrun, hs⟩ := (Option.any_eq_true _ _).mp hend
  obtain ⟨call, hcall, hs⟩ := List.any_eq_true.mp hs
  rw [Bool.and_eq_true, decide_eq_true_eq] at hs
  obtain ⟨hreading, hsome⟩ := hs
  obtain ⟨caller, hcaller⟩ := Option.isSome_iff_exists.mp hsome
  obtain ⟨read, hpc⟩ := AuthCall.returned_of_caller? hcaller
  have httl : (0 : ℚ) < sampleResolver.cacheTtlS := by decide +kernel
  obtain ⟨hheld, -, -⟩ := staleness_bounded sampleResolver httl hrun
  obtain ⟨keyHash, p, m, -, hp, hm, hclock, hholds⟩ := hheld call hcall caller read hpc
  rw [hreading] at hclock
  exact ⟨s, caller, hrun, ⟨call, hcall, hreading, hcaller⟩, keyHash, p, m, hp, hm, hclock, hholds⟩

end CallerResolver

end Librouter
