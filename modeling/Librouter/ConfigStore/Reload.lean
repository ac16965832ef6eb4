/-
# `config/__init__.py`: reloads that overlap

Every SIGHUP makes `ConfigHolder.reload` start another forced `load_or_refresh`, whatever became of
the one before, and `_do_reload` assigns what it returns.  Several of them are in flight in a
process while others refill and write the config; a reload may also fail at any await, and then the
holder keeps what it has (`HolderSystem.step`).

The refill lock puts the reloads of a process one after another, with their reads.  So a holder
never goes back to what was read earlier, and once a reload that began after a write has ended it
holds what that write left, even if older ones end after it (`reloads_converge`).
-/
import Librouter.ConfigStore.SingleFlight

namespace Librouter

/-! ## 1. Holders and reloads -/

/-- The config store, and `app.state.cfg` of every process.  A forced call of `load_or_refresh` is
one of `_do_reload`. -/
structure HolderSystem where
  caches : CacheSystem
  /-- `holder.value` -/
  value : ℕ → Config
  /-- history: a reload of the process has assigned it -/
  reloaded : ℕ → Bool := fun _ => false
  /-- history: the statements executed before the config in the holder was read -/
  shown : ℕ → ℕ := fun _ => 0

/-- What happens. -/
inductive HolderEvent
  | caches (event : CacheEvent)
  /-- the await of call `i` raises; which exception it is does not matter to `_do_reload`, and a
  `setex` of which only the answer is lost has been `sent` -/
  | fail (i : ℕ) (e : LoadError) (sent : Bool)

/-- What a call that raises leaves in the cache. -/
def RefreshPc.leaves (sent : Bool) (cache : Option (Option Json)) : RefreshPc → Option (Option Json)
  | .setex cfg => if sent then some (some cfg.dump) else cache
  | _ => cache

/-- The await of a call raises, and with it the call; `async with` frees the lock. -/
def CacheSystem.fail (s : CacheSystem) (i : ℕ) (e : LoadError) (sent : Bool) : Option CacheSystem :=
  (s.loads[i]?).bind fun l =>
  if l.pc.result.isNone then
    some { s with
      loads := s.loads.set i { l with pc := .done (.error e) }
      cache := l.pc.leaves sent s.cache
      lockHeld := if l.pc.inside then Function.update s.lockHeld l.store false else s.lockHeld }
  else none

namespace HolderSystem

/-- `self.value = new`, as soon as a forced call has returned. -/
def assign (s : HolderSystem) (l : LoadTask) : HolderSystem :=
  match l.force, l.pc with
  | true, .done (.ok cfg) =>
    { s with
      value := Function.update s.value l.store cfg
      reloaded := Function.update s.reloaded l.store true
      shown := Function.update s.shown l.store l.readAt }
  | _, _ => s

theorem assign_of_not (s : HolderSystem) {l : LoadTask}
    (h : l.force = true → ∀ cfg, l.pc ≠ .done (.ok cfg)) : s.assign l = s := by
  unfold assign
  split
  · rename_i cfg hforce hpc
    exact absurd hpc (h hforce cfg)
  · rfl

/-- One event. -/
def step (V : Json.Scalars) (s : HolderSystem) : HolderEvent → Option HolderSystem
  | .caches (.load i) =>
    (s.caches.step V (.load i)).bind fun caches =>
    (caches.loads[i]?).map fun l => { s with caches := caches }.assign l
  | .caches event => (s.caches.step V event).map fun caches => { s with caches := caches }
  | .fail i e sent => (s.caches.fail i e sent).map fun caches => { s with caches := caches }

theorem step_caches {V : Json.Scalars} {s s' : HolderSystem} {event : CacheEvent}
    (hne : ∀ i, event ≠ .load i) (h : s.step V (.caches event) = some s') :
    ∃ caches, s.caches.step V event = some caches ∧ s' = { s with caches := caches } := by
  cases event with
  | load i => exact absurd rfl (hne i)
  | startLoad | startWrite | write | expire =>
    simp only [step, Option.map_eq_some_iff] at h
    obtain ⟨caches, hcaches, rfl⟩ := h
    exact ⟨caches, hcaches, rfl⟩

/-- The processes have booted with some config each. -/
def start (db : ConfigTables) (cache : Option (Option Json)) (boot : ℕ → Config) : HolderSystem :=
  { caches := .start db cache, value := boot }

end HolderSystem

/-! ## 2. One step of a call -/

section Step

variable {V : Json.Scalars} {cached : Option Config} {db : ConfigTables} {version : ℕ}
  {l l' : LoadTask} {effect : RefillEffect}

/-- The lock and the border of the critical section go together. -/
def RefillEffect.Sides (pc pc' : RefreshPc) : RefillEffect → Prop
  | .nothing => pc'.inside = pc.inside
  | .acquire => pc.inside = false ∧ pc'.inside = true
  | .release => pc.inside = true ∧ pc'.inside = false
  | .storeAndRelease _ => pc.inside = true ∧ pc'.inside = false

/-- What an effect does to the refill locks. -/
def RefillEffect.Locks (held : ℕ → Bool) (store : ℕ) (held' : ℕ → Bool) : RefillEffect → Prop
  | .nothing => held' = held
  | .acquire => held store = false ∧ held' = Function.update held store true
  | .release => held' = Function.update held store false
  | .storeAndRelease _ => held' = Function.update held store false

/-- What the effect of a step leaves as it is. -/
theorem perform_frame {s s' : CacheSystem} {store : ℕ} (h : s.perform store effect = some s') :
    ∃ held cache, s' = { s with lockHeld := held, cache := cache } ∧
      effect.Locks s.lockHeld store held := by
  cases effect with
  | nothing =>
    cases h
    exact ⟨_, _, rfl, rfl⟩
  | acquire =>
    simp only [CacheSystem.perform] at h
    split at h
    · cases h
    · rename_i hfree
      cases h
      exact ⟨_, _, rfl, by simpa using hfree, rfl⟩
  | release | storeAndRelease =>
    cases h
    exact ⟨_, _, rfl, rfl⟩

/-- A step of any call. -/
theorem LoadTask.next_frame (h : l.next V cached db version = some (l', effect)) :
    l'.store = l.store ∧ l'.force = l.force ∧ l'.quiet = l.quiet ∧ effect.Sides l.pc l'.pc := by
  unfold LoadTask.next at h
  cases hpc : l.pc with
  | get =>
    simp only [hpc] at h
    cases cached <;> cases h <;> exact ⟨rfl, rfl, rfl, rfl⟩
  | lock =>
    simp only [hpc] at h
    cases h
    refine ⟨rfl, rfl, rfl, rfl, ?_⟩
    cases l.force <;> simp [RefreshPc.inside]
  | recheck =>
    simp only [hpc] at h
    cases cached <;> cases h
    · exact ⟨rfl, rfl, rfl, rfl⟩
    · exact ⟨rfl, rfl, rfl, rfl, rfl⟩
  | load pc =>
    simp only [hpc] at h
    split at h <;> cases h
    · exact ⟨rfl, rfl, rfl, rfl⟩
    · exact ⟨rfl, rfl, rfl, rfl, rfl⟩
    · exact ⟨rfl, rfl, rfl, rfl⟩
  | setex cfg =>
    simp only [hpc] at h
    cases h
    exact ⟨rfl, rfl, rfl, rfl, rfl⟩
  | done result =>
    simp only [hpc] at h
    cases h

/-- Where a forced call can stand: it never looks at the cache. -/
def RefreshPc.Forced : RefreshPc → Prop
  | .get => False
  | .recheck => False
  | _ => True

/-- A step of a forced call: it has read before and goes on with that, or reads now, or has ended
without a config. -/
theorem LoadTask.next_forced (hforce : l.force = true) (hpc : l.pc.Forced)
    (h : l.next V cached db version = some (l', effect)) :
    l'.pc.Forced ∧ l.next V none db version = some (l', effect) ∧
      (l.pc.pastRead = true ∧ l'.readAt = l.readAt ∨ l'.readAt = version ∨
        l'.pc.pastRead = false ∧ ∀ cfg, l'.pc ≠ .done (.ok cfg)) := by
  unfold LoadTask.next at h ⊢
  cases hl : l.pc with
  | get | recheck =>
    rw [hl] at hpc
    exact hpc.elim
  | lock =>
    simp only [hl, hforce] at h ⊢
    cases h
    exact ⟨trivial, rfl, Or.inr (Or.inr ⟨rfl, nofun⟩)⟩
  | load pc =>
    simp only [hl] at h ⊢
    refine ⟨?_, h, ?_⟩
    · split at h <;> cases h <;> trivial
    · have hstamp : pc.stamp version l.readAt = version ∨
          RefreshPc.pastRead (.load pc) = true ∧ pc.stamp version l.readAt = l.readAt := by
        cases pc with
        | routing => exact Or.inl rfl
        | tiers | models | done => exact Or.inr ⟨rfl, rfl⟩
      rcases hstamp with hnow | hpast
      · split at h <;> cases h <;> exact Or.inr (Or.inl hnow)
      · split at h <;> cases h <;> exact Or.inl hpast
  | setex cfg =>
    simp only [hl] at h ⊢
    cases h
    exact ⟨trivial, rfl, Or.inl ⟨rfl, rfl⟩⟩
  | done result =>
    simp only [hl] at h
    cases h

/-- A forced call returns the config that it has just stored. -/
theorem LoadTask.next_returned {cfg : Config} (hpc : l.pc.Forced)
    (h : l.next V cached db version = some (l', effect)) (hdone : l'.pc = .done (.ok cfg)) :
    l.pc = .setex cfg ∧ l'.readAt = l.readAt := by
  unfold LoadTask.next at h
  cases hl : l.pc with
  | get | recheck =>
    rw [hl] at hpc
    exact hpc.elim
  | lock =>
    simp only [hl] at h
    cases h
    cases hforce : l.force <;> simp [hforce] at hdone
  | load pc =>
    simp only [hl] at h
    split at h <;> cases h <;> simp at hdone
  | setex cfg' =>
    simp only [hl] at h
    cases h
    simp only [RefreshPc.done.injEq, Except.ok.injEq] at hdone
    exact ⟨by rw [hdone], rfl⟩
  | done result =>
    simp only [hl] at h
    cases h

theorem LoadTask.next_result (h : l.next V cached db version = some (l', effect)) :
    l.pc.result = none := by
  unfold LoadTask.next at h
  cases hl : l.pc with
  | done result =>
    simp only [hl] at h
    cases h
  | get | lock | recheck | load _ | setex _ => rfl

/-- The call is inside the lock of store `p`. -/
def LoadTask.holds (p : ℕ) (l : LoadTask) : Bool := decide (l.store = p) && l.pc.inside

/-- One call at most is inside each lock. -/
def CacheSystem.Locked (s : CacheSystem) : Prop :=
  ∀ p, Mutex.Guarded (LoadTask.holds p) (s.lockHeld p) s.loads

/-- A step of a call, and what it does to the lock of its store. -/
theorem CacheSystem.Locked.move {s : CacheSystem} {i : ℕ} {held : ℕ → Bool} (h : s.Locked)
    (hl : s.loads[i]? = some l) (hstore : l'.store = l.store) (hsides : effect.Sides l.pc l'.pc)
    (hheld : effect.Locks s.lockHeld l.store held) (p : ℕ) :
    Mutex.Guarded (LoadTask.holds p) (held p) (s.loads.set i l') := by
  by_cases hp : l.store = p
  · subst hp
    have hhold : ∀ x : LoadTask, x.store = l.store → x.holds l.store = x.pc.inside := by
      intro x hx
      simp [LoadTask.holds, hx]
    cases effect with
    | nothing =>
      obtain rfl := hheld
      exact (h _).stay hl (by rw [hhold l' hstore, hhold l rfl, hsides])
    | acquire =>
      obtain ⟨hfree, rfl⟩ := hheld
      have henter := (hfree ▸ h l.store).enter hl (by rw [hhold l' hstore, hsides.2])
      simpa using henter
    | release | storeAndRelease =>
      obtain rfl := hheld
      have hleave := (h l.store).leave hl (by rw [hhold l rfl, hsides.1])
        (by rw [hhold l' hstore, hsides.2])
      simpa using hleave
  · -- another lock
    have hout : ∀ x : LoadTask, x.store = l.store → x.holds p = false := by
      intro x hx
      simp [LoadTask.holds, hx, hp]
    have hlock : held p = s.lockHeld p := by
      cases effect with
      | nothing => exact congrFun hheld p
      | acquire =>
        rw [hheld.2]
        exact Function.update_of_ne (Ne.symm hp) _ _
      | release | storeAndRelease =>
        rw [hheld]
        exact Function.update_of_ne (Ne.symm hp) _ _
    rw [hlock]
    exact (h p).stay hl (by rw [hout l' hstore, hout l rfl])

end Step

/-! ## 3. What holds in every state -/

section Invariant

variable {V : Json.Scalars} {boot : ℕ → Config} {s s' : HolderSystem}

/-- A forced call: what it has read is what is there, unless a statement was executed since, and is
no older than what the holder of its process shows. -/
structure ReloadOk (V : Json.Scalars) (s : HolderSystem) (l : LoadTask) : Prop where
  pc : l.pc.Forced
  readAt_le : l.readAt ≤ s.caches.version
  ok : l.pc.result = none → PcOk V s.caches.db s.caches.version l.readAt l.quiet l.pc
  later : l.pc.pastRead = true → s.shown l.store ≤ l.readAt
  /-- a quiet one that has returned a config leaves the newest in the holder -/
  shown : l.quiet = true → ∀ cfg, l.pc = .done (.ok cfg) →
    s.reloaded l.store = true ∧ s.shown l.store = s.caches.version

/-- What a holder shows: the config of the boot, or that of a reload. -/
def HolderSystem.Source (boot : ℕ → Config) (s : HolderSystem) (p : ℕ) : Prop :=
  if s.reloaded p then
    ∃ l ∈ s.caches.loads, l.store = p ∧ l.force = true ∧ l.pc = .done (.ok (s.value p)) ∧
      l.readAt = s.shown p
  else s.value p = boot p

/-- The invariant. -/
structure HolderInv (V : Json.Scalars) (boot : ℕ → Config) (s : HolderSystem) : Prop where
  locked : s.caches.Locked
  reloads : ∀ l ∈ s.caches.loads, l.force = true → ReloadOk V s l
  writes : ∀ w ∈ s.caches.writes, w.returned = true → w.pending = []
  quiet : ∀ l ∈ s.caches.loads, l.quiet = true → s.caches.settled = true
  shown_le : ∀ p, s.shown p ≤ s.caches.version
  current : ∀ p, s.reloaded p = true → s.shown p = s.caches.version →
    loadFromDb V s.caches.db = .ok (s.value p)
  source : ∀ p, s.Source boot p

theorem holderInv_start (db : ConfigTables) (cache : Option (Option Json)) :
    HolderInv V boot (.start db cache boot) where
  locked _ := Mutex.guarded_nil
  reloads := by simp [HolderSystem.start, CacheSystem.start]
  writes := by simp [HolderSystem.start, CacheSystem.start]
  quiet := by simp [HolderSystem.start, CacheSystem.start]
  shown_le _ := le_rfl
  current := by simp [HolderSystem.start]
  source _ := rfl

/-- A source stays if the calls that have ended do. -/
theorem HolderSystem.Source.mono {p : ℕ} {caches : CacheSystem} (h : s.Source boot p)
    (hdone : ∀ l ∈ s.caches.loads, ∀ result, l.pc = .done result → ∃ l' ∈ caches.loads,
      l'.store = l.store ∧ l'.force = l.force ∧ l'.pc = l.pc ∧ l'.readAt = l.readAt) :
    HolderSystem.Source boot { s with caches := caches } p := by
  unfold Source at h ⊢
  dsimp only
  split at h
  · rename_i hreloaded
    rw [if_pos hreloaded]
    obtain ⟨l, hl, hstore, hforce, hpc, hread⟩ := h
    obtain ⟨l', hl', hstore', hforce', hpc', hread'⟩ := hdone l hl _ hpc
    exact ⟨l', hl', hstore'.trans hstore, hforce'.trans hforce, hpc'.trans hpc, hread'.trans hread⟩
  · rename_i hreloaded
    rw [if_neg hreloaded]
    exact h

/-- A call that has not ended moves: those that have stay. -/
theorem ended_stay {loads : List LoadTask} {i : ℕ} {l l' : LoadTask} (hl : loads[i]? = some l)
    (hpc : l.pc.result = none) : ∀ x ∈ loads, ∀ result, x.pc = .done result →
      ∃ x' ∈ loads.set i l', x'.store = x.store ∧ x'.force = x.force ∧ x'.pc = x.pc ∧
        x'.readAt = x.readAt := by
  intro x hx result hdone
  obtain ⟨j, hj⟩ := List.getElem?_of_mem hx
  have hne : i ≠ j := by
    rintro rfl
    obtain rfl := Option.some.inj (hl.symm.trans hj)
    rw [hdone] at hpc
    cases hpc
  exact ⟨x, List.mem_of_getElem? ((List.getElem?_set_ne hne).trans hj), rfl, rfl, rfl, rfl⟩

/-- An await raises. -/
theorem HolderInv.fail {i : ℕ} {e : LoadError} {sent : Bool} {caches : CacheSystem}
    (h : HolderInv V boot s) (hstep : s.caches.fail i e sent = some caches) :
    HolderInv V boot { s with caches := caches } := by
  obtain ⟨l, hl, hstep⟩ := Option.bind_eq_some_iff.mp hstep
  obtain ⟨hresult, hstep⟩ := Option.ite_none_right_eq_some.mp hstep
  cases hstep
  have hmem := List.mem_of_getElem? hl
  refine ⟨?_, fun x hx hforce => ?_, h.writes, forall_mem_set h.quiet (h.quiet l hmem), h.shown_le,
    h.current, fun p => (h.source p).mono (ended_stay hl (by simpa using hresult))⟩
  · have hstore : ({ l with pc := .done (.error e) } : LoadTask).store = l.store := rfl
    cases hin : l.pc.inside with
    | true =>
      have hsides : RefillEffect.Sides l.pc (.done (.error e)) .release := ⟨hin, rfl⟩
      exact h.locked.move hl hstore hsides rfl
    | false =>
      have hsides : RefillEffect.Sides l.pc (.done (.error e)) .nothing := hin.symm
      exact h.locked.move hl hstore hsides rfl
  · rcases List.mem_or_eq_of_mem_set hx with hold | rfl
    · exact ⟨(h.reloads x hold hforce).pc, (h.reloads x hold hforce).readAt_le,
        (h.reloads x hold hforce).ok, (h.reloads x hold hforce).later,
        (h.reloads x hold hforce).shown⟩
    · exact ⟨trivial, (h.reloads l hmem hforce).readAt_le, nofun, nofun, fun _ _ => nofun⟩

/-! ## 4. A call moves -/

/-- What a step of a forced call leaves true of it, whatever becomes of the holders. -/
theorem ReloadOk.next {cached : Option Config} {l l' : LoadTask} {effect : RefillEffect}
    (h : HolderInv V boot s) (hok : ReloadOk V s l) (hforce : l.force = true)
    (hnext : l.next V cached s.caches.db s.caches.version = some (l', effect)) :
    l'.pc.Forced ∧ l'.readAt ≤ s.caches.version ∧
      (l'.pc.result = none →
        PcOk V s.caches.db s.caches.version l'.readAt l'.quiet l'.pc) ∧
      (l'.pc.pastRead = true → s.shown l'.store ≤ l'.readAt) := by
  obtain ⟨hpc, hnone, hread⟩ := LoadTask.next_forced hforce hok.pc hnext
  have hframe := LoadTask.next_frame hnext
  obtain ⟨-, hle, hpcok, -⟩ := LoadTask.next_spec hnone hok.readAt_le
    (hok.ok (LoadTask.next_result hnext)) (fun _ _ => nofun)
  refine ⟨hpc, hle, fun _ => hpcok, fun hpast => ?_⟩
  rw [hframe.1]
  rcases hread with ⟨hold, heq⟩ | heq | ⟨hnot, -⟩
  · exact heq ▸ hok.later hold
  · exact heq ▸ h.shown_le l.store
  · rw [hpast] at hnot
    cases hnot

/-- A call moves, and nothing is assigned. -/
theorem HolderInv.move {i : ℕ} {l l' : LoadTask} {effect : RefillEffect} {held : ℕ → Bool}
    {cache : Option (Option Json)} (h : HolderInv V boot s) (hl : s.caches.loads[i]? = some l)
    (hnext : l.next V (s.caches.cachedConfig V) s.caches.db s.caches.version = some (l', effect))
    (hheld : effect.Locks s.caches.lockHeld l.store held)
    (hnot : l'.force = true → ∀ cfg, l'.pc ≠ .done (.ok cfg)) :
    HolderInv V boot { s with caches := { s.caches with
      lockHeld := held, cache := cache, loads := s.caches.loads.set i l' } } := by
  obtain ⟨hstore, hforce, hquiet, hsides⟩ := LoadTask.next_frame hnext
  have hmem := List.mem_of_getElem? hl
  refine ⟨h.locked.move hl hstore hsides hheld, fun x hx hx' => ?_, h.writes,
    forall_mem_set h.quiet fun hq => h.quiet l hmem (hquiet ▸ hq), h.shown_le, h.current,
    fun p => (h.source p).mono (ended_stay hl (LoadTask.next_result hnext))⟩
  rcases List.mem_or_eq_of_mem_set hx with hold | rfl
  · have hok := h.reloads x hold hx'
    exact ⟨hok.pc, hok.readAt_le, hok.ok, hok.later, hok.shown⟩
  · obtain ⟨hpc, hle, hok, hlater⟩ := ReloadOk.next h (h.reloads l hmem (hforce ▸ hx'))
      (hforce ▸ hx') hnext
    exact ⟨hpc, hle, hok, hlater, fun _ cfg hdone => absurd hdone (hnot hx' cfg)⟩

/-- **A forced call returns, and its config is assigned.**  The reads of the process follow one
another, so it is not older than what the holder shows; and while a call is past its read, no other
one of the process is. -/
theorem HolderInv.assign {i : ℕ} {l l' : LoadTask} {effect : RefillEffect} {held : ℕ → Bool}
    {cache : Option (Option Json)} {cfg : Config} (h : HolderInv V boot s)
    (hl : s.caches.loads[i]? = some l)
    (hnext : l.next V (s.caches.cachedConfig V) s.caches.db s.caches.version = some (l', effect))
    (hheld : effect.Locks s.caches.lockHeld l.store held) (hforce' : l'.force = true)
    (hdone : l'.pc = .done (.ok cfg)) :
    s.shown l'.store ≤ l'.readAt ∧
    HolderInv V boot { s with
      caches := { s.caches with
        lockHeld := held, cache := cache, loads := s.caches.loads.set i l' }
      value := Function.update s.value l'.store cfg
      reloaded := Function.update s.reloaded l'.store true
      shown := Function.update s.shown l'.store l'.readAt } := by
  obtain ⟨hstore, hforce, hquiet, hsides⟩ := LoadTask.next_frame hnext
  have hmem := List.mem_of_getElem? hl
  have hlen := (List.getElem?_eq_some_iff.mp hl).1
  have hok := h.reloads l hmem (hforce ▸ hforce')
  obtain ⟨hsetex, hread⟩ := LoadTask.next_returned hok.pc hnext hdone
  have hpcok := hok.ok (LoadTask.next_result hnext)
  have hpast : l.pc.pastRead = true := by rw [hsetex]; rfl
  have hlater : s.shown l'.store ≤ l'.readAt := by
    rw [hstore, hread]
    exact hok.later hpast
  have hle : l'.readAt ≤ s.caches.version := hread ▸ hok.readAt_le
  rw [hsetex] at hpcok
  refine ⟨hlater, h.locked.move hl hstore hsides hheld, fun x hx hx' => ?_, h.writes,
    forall_mem_set h.quiet fun hq => h.quiet l hmem (hquiet ▸ hq), fun p => ?_, fun p => ?_,
    fun p => ?_⟩
  · obtain ⟨j, hj⟩ := List.getElem?_of_mem hx
    by_cases hij : i = j
    · subst hij
      rw [List.getElem?_set_self hlen] at hj
      obtain rfl := Option.some.inj hj
      refine ⟨by rw [hdone]; trivial, hle, by simp [hdone, RefreshPc.result],
        by simp [hdone, RefreshPc.pastRead], fun hq _ _ => ?_⟩
      simp only [Function.update_self, true_and]
      rw [hread]
      exact hpcok.2 (hquiet ▸ hq)
    · rw [List.getElem?_set_ne hij] at hj
      have hx₀ := h.reloads x (List.mem_of_getElem? hj) hx'
      by_cases hxs : x.store = l'.store
      · refine ⟨hx₀.pc, hx₀.readAt_le, hx₀.ok, fun hp => ?_, fun hq cfg' hd => ?_⟩
        · -- two calls past their reads behind one lock
          refine absurd ((h.locked l.store).exclusive i j l x hl hj ?_ ?_) hij
          · simp [LoadTask.holds, inside_of_pastRead hpast]
          · simp [LoadTask.holds, inside_of_pastRead hp, hxs.trans hstore]
        · have hshown := (hx₀.shown hq cfg' hd).2
          rw [hxs] at hshown ⊢
          simp only [Function.update_self, true_and]
          omega
      · refine ⟨hx₀.pc, hx₀.readAt_le, hx₀.ok, fun hp => ?_, fun hq cfg' hd => ?_⟩
        · simpa [Function.update_of_ne hxs] using hx₀.later hp
        · simpa [Function.update_of_ne hxs] using hx₀.shown hq cfg' hd
  · by_cases hp : p = l'.store
    · subst hp
      simpa using hle
    · simpa [Function.update_of_ne hp] using h.shown_le p
  · by_cases hp : p = l'.store
    · subst hp
      simpa [hread] using hpcok.1
    · simpa [Function.update_of_ne hp] using h.current p
  · by_cases hp : p = l'.store
    · subst hp
      simp only [HolderSystem.Source, Function.update_self, if_true]
      exact ⟨l', List.mem_set hlen l', rfl, hforce', hdone, rfl⟩
    · have hsource : HolderSystem.Source boot { s with
          caches := { s.caches with loads := s.caches.loads.set i l' } } p :=
        (h.source p).mono (ended_stay hl (LoadTask.next_result hnext))
      simpa [HolderSystem.Source, Function.update_of_ne hp] using hsource

/-- A step of a call keeps the invariant, and no holder goes back. -/
theorem HolderInv.load {i : ℕ} (h : HolderInv V boot s)
    (hstep : s.step V (.caches (.load i)) = some s') :
    HolderInv V boot s' ∧ ∀ p, s.shown p ≤ s'.shown p := by
  obtain ⟨caches, hcaches, hstep⟩ := Option.bind_eq_some_iff.mp hstep
  obtain ⟨lᵢ, hlᵢ, rfl⟩ := Option.map_eq_some_iff.mp hstep
  simp only [CacheSystem.step, CacheSystem.advanceLoad, Option.bind_eq_bind,
    Option.bind_eq_some_iff, Option.pure_def, Option.some.injEq] at hcaches
  obtain ⟨l, hl, ⟨l', effect⟩, hnext, s₁, hperform, rfl⟩ := hcaches
  obtain ⟨held, cache, rfl, hheld⟩ := perform_frame hperform
  have hlen := (List.getElem?_eq_some_iff.mp hl).1
  obtain rfl : l' = lᵢ := Option.some.inj ((List.getElem?_set_self hlen).symm.trans hlᵢ)
  by_cases hassign : l'.force = true ∧ ∃ cfg, l'.pc = .done (.ok cfg)
  · obtain ⟨hforce, cfg, hdone⟩ := hassign
    obtain ⟨hlater, hinv⟩ := h.assign hl hnext hheld hforce hdone
    refine ⟨by simpa [HolderSystem.assign, hforce, hdone] using hinv, fun p => ?_⟩
    by_cases hp : p = l'.store
    · subst hp
      simpa [HolderSystem.assign, hforce, hdone] using hlater
    · simp [HolderSystem.assign, hforce, hdone, Function.update_of_ne hp]
  · have hnot : l'.force = true → ∀ cfg, l'.pc ≠ .done (.ok cfg) :=
      fun hforce cfg hdone => hassign ⟨hforce, cfg, hdone⟩
    rw [HolderSystem.assign_of_not _ hnot]
    exact ⟨h.move hl hnext hheld hnot, fun _ => le_rfl⟩

/-! ## 5. Every event keeps it -/

/-- While some write is running, no call is quiet. -/
theorem HolderInv.not_quiet (h : HolderInv V boot s) {w : WriteTask} (hw : w ∈ s.caches.writes)
    (hret : w.returned = false) {l : LoadTask} (hl : l ∈ s.caches.loads) : l.quiet = false := by
  by_contra hq
  have hs := h.quiet l hl (by simpa using hq)
  have hall := List.all_eq_true.mp (Bool.and_eq_true_iff.mp hs).2 w hw
  rw [hret] at hall
  cases hall

theorem HolderInv.write {i : ℕ} {caches : CacheSystem} (h : HolderInv V boot s)
    (hstep : s.caches.advanceWrite i = some caches) :
    HolderInv V boot { s with caches := caches } := by
  simp only [CacheSystem.advanceWrite, Option.bind_eq_bind, Option.bind_eq_some_iff] at hstep
  obtain ⟨w, hw, hstep⟩ := hstep
  have hmem := List.mem_of_getElem? hw
  cases hpend : w.pending with
  | cons st pending =>
    rw [hpend] at hstep
    obtain rfl := Option.some.inj hstep
    have hret : w.returned = false := by
      by_contra hret
      have hnil := h.writes w hmem (by simpa using hret)
      rw [hpend] at hnil
      cases hnil
    have hnq : ∀ l ∈ s.caches.loads, l.quiet = false := fun l hl => h.not_quiet hmem hret hl
    refine ⟨h.locked, fun l hl hforce => ?_, forall_mem_set h.writes fun hr => ?_,
      fun l hl hq => ?_, fun p => (h.shown_le p).trans (Nat.le_succ _), fun p _ hp => ?_,
      h.source⟩
    · have hok := h.reloads l hl hforce
      refine ⟨hok.pc, hok.readAt_le.trans (Nat.le_succ _), fun _ => ?_, hok.later, fun hq => ?_⟩
      · rw [hnq l hl]
        exact PcOk.of_lt (Nat.lt_succ_of_le hok.readAt_le)
      · rw [hnq l hl] at hq
        cases hq
    · rw [hret] at hr
      cases hr
    · rw [hnq l hl] at hq
      cases hq
    · have hle := h.shown_le p
      dsimp only at hp
      omega
  | nil =>
    rw [hpend] at hstep
    cases hret : w.returned with
    | true => simp [hret] at hstep
    | false =>
      simp only [hret, Bool.false_eq_true, if_false] at hstep
      obtain rfl := Option.some.inj hstep
      refine ⟨h.locked, fun l hl hforce => ?_, forall_mem_set h.writes fun _ => rfl,
        fun l hl hq => ?_, h.shown_le, h.current, h.source⟩
      · have hok := h.reloads l hl hforce
        exact ⟨hok.pc, hok.readAt_le, hok.ok, hok.later, hok.shown⟩
      · rw [h.not_quiet hmem hret hl] at hq
        cases hq

theorem HolderInv.startLoad {store : ℕ} {force : Bool} {caches : CacheSystem}
    (h : HolderInv V boot s) (hstep : s.caches.step V (.startLoad store force) = some caches) :
    HolderInv V boot { s with caches := caches } := by
  cases hstep
  refine ⟨fun p => (h.locked p).join ?_, fun l hl hforce => ?_, h.writes, fun l hl hq => ?_,
    h.shown_le, h.current, fun p => (h.source p).mono fun l hl _ _ =>
      ⟨l, List.mem_append_left _ hl, rfl, rfl, rfl, rfl⟩⟩
  · cases force <;> simp [LoadTask.holds, RefreshPc.inside]
  · rcases List.mem_append.mp hl with hl | hl
    · have hok := h.reloads l hl hforce
      exact ⟨hok.pc, hok.readAt_le, hok.ok, hok.later, hok.shown⟩
    · obtain rfl := List.mem_singleton.mp hl
      obtain rfl : force = true := hforce
      exact ⟨trivial, Nat.zero_le _, fun _ => trivial, nofun, fun _ _ => nofun⟩
  · rcases List.mem_append.mp hl with hl | hl
    · exact h.quiet l hl hq
    · obtain rfl := List.mem_singleton.mp hl
      exact hq

theorem HolderInv.startWrite {cfg : Config} {caches : CacheSystem}
    (h : HolderInv V boot s) (hstep : s.caches.step V (.startWrite cfg) = some caches) :
    HolderInv V boot { s with caches := caches } := by
  cases hstep
  refine ⟨fun p => (h.locked p).map fun _ => rfl, fun l hl hforce => ?_, fun w hw hret => ?_,
    fun l hl hq => ?_, h.shown_le, h.current, fun p => (h.source p).mono fun l hl _ _ =>
      ⟨_, List.mem_map_of_mem hl, rfl, rfl, rfl, rfl⟩⟩
  · obtain ⟨l₀, hl₀, rfl⟩ := List.mem_map.mp hl
    have hok := h.reloads l₀ hl₀ hforce
    exact ⟨hok.pc, hok.readAt_le, fun hpc => (hok.ok hpc).of_not_quiet, hok.later, nofun⟩
  · rcases List.mem_append.mp hw with hw | hw
    · exact h.writes w hw hret
    · obtain rfl := List.mem_singleton.mp hw
      cases hret
  · obtain ⟨l₀, -, rfl⟩ := List.mem_map.mp hl
    cases hq

/-- **Every event keeps the invariant, and no holder goes back.** -/
theorem holderInv_step {e : HolderEvent} (h : HolderInv V boot s) (hstep : s.step V e = some s') :
    HolderInv V boot s' ∧ ∀ p, s.shown p ≤ s'.shown p := by
  cases e with
  | fail i e sent =>
    obtain ⟨caches, hcaches, rfl⟩ := Option.map_eq_some_iff.mp hstep
    exact ⟨h.fail hcaches, fun _ => le_rfl⟩
  | caches event =>
    cases event with
    | load i => exact h.load hstep
    | startLoad store force =>
      obtain ⟨caches, hcaches, rfl⟩ := HolderSystem.step_caches (by simp) hstep
      exact ⟨h.startLoad hcaches, fun _ => le_rfl⟩
    | startWrite cfg =>
      obtain ⟨caches, hcaches, rfl⟩ := HolderSystem.step_caches (by simp) hstep
      exact ⟨h.startWrite hcaches, fun _ => le_rfl⟩
    | write i =>
      obtain ⟨caches, hcaches, rfl⟩ := HolderSystem.step_caches (by simp) hstep
      exact ⟨h.write hcaches, fun _ => le_rfl⟩
    | expire =>
      obtain ⟨caches, hcaches, rfl⟩ := HolderSystem.step_caches (by simp) hstep
      cases hcaches
      refine ⟨⟨h.locked, fun l hl hforce => ?_, h.writes, h.quiet, h.shown_le, h.current,
        h.source⟩, fun _ => le_rfl⟩
      have hok := h.reloads l hl hforce
      exact ⟨hok.pc, hok.readAt_le, hok.ok, hok.later, hok.shown⟩

theorem holderInv_run {es : List HolderEvent} (h : HolderInv V boot s)
    (hrun : Runs.run (HolderSystem.step V) s es = some s') :
    HolderInv V boot s' ∧ ∀ p, s.shown p ≤ s'.shown p :=
  Runs.invariant (fun _ x => HolderInv V boot x ∧ ∀ p, s.shown p ≤ x.shown p)
    ⟨h, fun _ => le_rfl⟩
    (fun _ _ _ _ hi hs => ⟨(holderInv_step hi.1 hs).1,
      fun p => (hi.2 p).trans ((holderInv_step hi.1 hs).2 p)⟩) hrun

end Invariant

/-! ## 6. Reloads converge -/

/-- **Reloads converge.**  Whatever the order in which reloads, refills, writes and failures of any
number of processes move: the holder of a process has the config of the boot or that of one of its
reloads; once a reload that began after a write had returned, with no write since, has ended with a
config, the holder has what `load_from_db` returns, whichever older reloads end after it; and no
holder ever goes back to an earlier read. -/
theorem reloads_converge (V : Json.Scalars) (db : ConfigTables) (cache : Option (Option Json))
    (boot : ℕ → Config) (es : List HolderEvent) (s : HolderSystem)
    (hrun : Runs.run (HolderSystem.step V) (.start db cache boot) es = some s) :
    (∀ p, s.Source boot p) ∧
      (∀ l ∈ s.caches.loads, l.force = true → l.quiet = true → ∀ cfg, l.pc = .done (.ok cfg) →
        loadFromDb V s.caches.db = .ok (s.value l.store)) ∧
      ∀ es' s', Runs.run (HolderSystem.step V) s es' = some s' → ∀ p, s.shown p ≤ s'.shown p := by
  have hinv := (holderInv_run (holderInv_start db cache) hrun).1
  refine ⟨hinv.source, fun l hl hforce hq cfg hdone => ?_, fun es' s' h => (holderInv_run hinv h).2⟩
  obtain ⟨hreloaded, hshown⟩ := (hinv.reloads l hl hforce).shown hq cfg hdone
  exact hinv.current l.store hreloaded hshown

/-- A reload has read one table when the config is written; a second one is waiting for it when the
answer to its `setex` is lost. -/
def overlapEvents : List HolderEvent :=
  .caches (.startLoad 0 true) :: List.replicate 2 (.caches (.load 0)) ++
    writeEvents.map .caches ++ .caches (.startLoad 0 true) ::
    List.replicate 2 (.caches (.load 0)) ++ .fail 0 .malformed true ::
    List.replicate 5 (.caches (.load 1))

/-- A reload that began after a write has returned a config. -/
def LoadTask.current (l : LoadTask) : Bool :=
  l.force && l.quiet && (match l.pc with | .done (.ok _) => true | _ => false)

/-- The law, on that run: the holder has the new config. -/
theorem reloads_converge_overlapEvents :
    ∃ s, Runs.run (HolderSystem.step .strict)
        (.start (ConfigTables.empty.write fastConfig) none fun _ => fastConfig) overlapEvents =
          some s ∧
      s.Source (fun _ => fastConfig) 0 ∧ ∃ p, loadFromDb .strict s.caches.db = .ok (s.value p) := by
  have hrun : (Runs.run (HolderSystem.step .strict)
      (.start (ConfigTables.empty.write fastConfig) none fun _ => fastConfig)
      overlapEvents).any (fun s => s.caches.loads.any LoadTask.current) = true := by decide +kernel
  obtain ⟨s, hs, hany⟩ := (Option.any_eq_true _ _).mp hrun
  obtain ⟨l, hl, hcurrent⟩ := List.any_eq_true.mp hany
  obtain ⟨hsource, hreload, -⟩ := reloads_converge .strict _ none _ overlapEvents s hs
  unfold LoadTask.current at hcurrent
  split at hcurrent
  · rename_i cfg hdone
    simp only [Bool.and_true, Bool.and_eq_true] at hcurrent
    exact ⟨s, hs, hsource 0, l.store, hreload l hl hcurrent.1 hcurrent.2 cfg hdone⟩
  · simp at hcurrent

end Librouter
