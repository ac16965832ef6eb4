/-
# One refill for a cold cache

When the key is missing or its bytes are corrupt, every caller of `load_or_refresh` misses, and
every one of them would read the database.  The refill lock lets one in; the others wait for it
and look at the cache again before they read themselves.

`single_flight` is the law: whatever the order in which the calls of one store move, with no
expiry, no write and no failure in between, one of them reads the database and stores the config,
every one returns that config, and none waits for ever.  What a follower returns is what the
stored JSON decodes to, so the law rests on the round trip of the config.
-/
import Librouter.ConfigStore.Cache
import Librouter.Foundations.Mutex

namespace Librouter

/-! ## 1. Where a call stands -/

/-- Inside `async with self._refill_lock`. -/
def RefreshPc.inside : RefreshPc → Bool
  | .recheck | .load _ | .setex _ => true
  | .get | .lock | .done _ => false

/-- Past the first read of `load_from_db`, and not done. -/
def RefreshPc.pastRead : RefreshPc → Bool
  | .load .routing => false
  | .load _ | .setex _ => true
  | .get | .lock | .recheck | .done _ => false

/-- At the first read of `load_from_db`. -/
def RefreshPc.reading : RefreshPc → Bool
  | .load .routing => true
  | .load _ | .get | .lock | .recheck | .setex _ | .done _ => false

/-- How many awaits are ahead, at most. -/
def RefreshPc.rank : RefreshPc → ℕ
  | .get => 7
  | .lock => 6
  | .recheck => 5
  | .load .routing => 4
  | .load (.tiers _) => 3
  | .load (.models _ _) => 2
  | .load (.done _) => 2
  | .setex _ => 1
  | .done _ => 0

section Moves

variable (V : Json.Scalars)

/-- The steps of a call that is not forced, with what each does to the lock and the cache. -/
inductive RefreshPc.Moves (cached : Option Config) (db : ConfigTables) :
    RefreshPc → RefreshPc → RefillEffect → Prop
  | served {cfg : Config} (h : cached = some cfg) : Moves cached db .get (.done (.ok cfg)) .nothing
  | missed (h : cached = none) : Moves cached db .get .lock .nothing
  | entered : Moves cached db .lock .recheck .acquire
  | followed {cfg : Config} (h : cached = some cfg) :
      Moves cached db .recheck (.done (.ok cfg)) .release
  | missedAgain (h : cached = none) : Moves cached db .recheck (.load .routing) .nothing
  | read {pc : LoadPc} (h : (pc.read V db).result = none) :
      Moves cached db (.load pc) (.load (pc.read V db)) .nothing
  | loaded {pc : LoadPc} {cfg : Config} (h : pc.read V db = .done (.ok cfg)) :
      Moves cached db (.load pc) (.setex cfg) .nothing
  | failed {pc : LoadPc} {e : LoadError} (h : pc.read V db = .done (.error e)) :
      Moves cached db (.load pc) (.done (.error e)) .release
  | stored {cfg : Config} :
      Moves cached db (.setex cfg) (.done (.ok cfg)) (.storeAndRelease cfg)

variable {V}

/-- Every step of such a call is one of these. -/
theorem LoadTask.next_moves {l l' : LoadTask} {cached : Option Config} {db : ConfigTables}
    {version : ℕ} {effect : RefillEffect} (hforce : l.force = false)
    (hnext : l.next V cached db version = some (l', effect)) :
    l'.store = l.store ∧ l'.force = false ∧ l.pc.Moves V cached db l'.pc effect := by
  unfold LoadTask.next at hnext
  cases h : l.pc with
  | get =>
    simp only [h] at hnext
    cases hc : cached with
    | some cfg =>
      rw [hc] at hnext
      cases hnext
      exact ⟨rfl, hforce, .served rfl⟩
    | none =>
      rw [hc] at hnext
      cases hnext
      exact ⟨rfl, hforce, .missed rfl⟩
  | lock =>
    simp only [h, hforce] at hnext
    cases hnext
    exact ⟨rfl, rfl, .entered⟩
  | recheck =>
    simp only [h] at hnext
    cases hc : cached with
    | some cfg =>
      rw [hc] at hnext
      cases hnext
      exact ⟨rfl, hforce, .followed rfl⟩
    | none =>
      rw [hc] at hnext
      cases hnext
      exact ⟨rfl, hforce, .missedAgain rfl⟩
  | load pc =>
    simp only [h] at hnext
    split at hnext
    · rename_i cfg hm
      cases hnext
      exact ⟨rfl, hforce, .loaded hm⟩
    · rename_i e hm
      cases hnext
      exact ⟨rfl, hforce, .failed hm⟩
    · rename_i pc' hok herr
      cases hnext
      refine ⟨rfl, hforce, .read ?_⟩
      cases hr : pc.read V db with
      | done result =>
        cases result with
        | ok cfg => exact absurd hr (hok cfg)
        | error e => exact absurd hr (herr e)
      | routing => rfl
      | tiers row => rfl
      | models row ts => rfl
  | setex cfg =>
    simp only [h] at hnext
    cases hnext
    exact ⟨rfl, hforce, .stored⟩
  | done result =>
    simp only [h] at hnext
    cases hnext

/-- A call that is not done can move, if the lock lets it. -/
theorem LoadTask.exists_next {l : LoadTask} (cached : Option Config) (db : ConfigTables)
    (version : ℕ) (h : l.pc.result = none) : ∃ p, l.next V cached db version = some p := by
  unfold LoadTask.next
  cases hpc : l.pc with
  | done result =>
    rw [hpc] at h
    cases h
  | get => cases cached <;> exact ⟨_, rfl⟩
  | lock => exact ⟨_, rfl⟩
  | recheck => cases cached <;> exact ⟨_, rfl⟩
  | load pc =>
    simp only
    split <;> exact ⟨_, rfl⟩
  | setex cfg => exact ⟨_, rfl⟩

namespace RefreshPc.Moves

variable {cached : Option Config} {db : ConfigTables} {pc pc' : RefreshPc} {effect : RefillEffect}

/-- Every step leaves fewer awaits. -/
theorem rank_lt (h : Moves V cached db pc pc' effect) : pc'.rank < pc.rank := by
  cases h with
  | served | missed | entered | followed | missedAgain | stored => simp [RefreshPc.rank]
  | @read pc hr =>
    cases pc with
    | routing =>
      simp only [LoadPc.read] at hr ⊢
      cases hf : db.fetchRoutingConfig with
      | none =>
        rw [hf] at hr
        cases hr
      | some row => simp [RefreshPc.rank]
    | tiers row => simp [LoadPc.read, RefreshPc.rank]
    | models row ts => cases hr
    | done result => cases hr
  | @loaded pc cfg hr | @failed pc e hr =>
    cases pc <;> simp [RefreshPc.rank]

/-- The lock and the border of the critical section go together. -/
theorem inside_eq (h : Moves V cached db pc pc' effect) :
    match effect with
    | .nothing => pc'.inside = pc.inside
    | .acquire => pc.inside = false ∧ pc'.inside = true
    | .release | .storeAndRelease _ => pc.inside = true ∧ pc'.inside = false := by
  cases h with
  | served | missed | missedAgain | read | loaded => rfl
  | entered | followed | failed | stored => exact ⟨rfl, rfl⟩

end RefreshPc.Moves

end Moves

/-! ## 2. Who reads and who stores -/

/-- The event is a call of `load_or_refresh` on the store, not forced, or a step of a call. -/
def CacheEvent.ofStore (store : ℕ) : CacheEvent → Bool
  | .startLoad store' force => store' == store && !force
  | .load _ => true
  | .startWrite _ | .write _ | .expire => false

/-- The event is a step of a call. -/
def CacheEvent.isStep : CacheEvent → Bool
  | .load _ => true
  | .startLoad _ _ | .startWrite _ | .write _ | .expire => false

/-- The call that moves now, if it stands where `here` says. -/
def mover (here : RefreshPc → Bool) (s : CacheSystem) : CacheEvent → List ℕ
  | .load i => if s.loads[i]?.any (fun l => here l.pc) then [i] else []
  | .startLoad _ _ | .startWrite _ | .write _ | .expire => []

/-- The calls that ran `load_from_db`, in the order of their first reads. -/
def dbLoads (V : Json.Scalars) : CacheSystem → List CacheEvent → List ℕ :=
  Runs.notes (CacheSystem.step V) (mover RefreshPc.reading)

/-- The calls that wrote the cache, in the order of their writes. -/
def redisWrites (V : Json.Scalars) : CacheSystem → List CacheEvent → List ℕ :=
  Runs.notes (CacheSystem.step V) (mover RefreshPc.storing)

theorem mover_load {here : RefreshPc → Bool} {s : CacheSystem} {i : ℕ} {l : LoadTask}
    (hl : s.loads[i]? = some l) : mover here s (.load i) = if here l.pc then [i] else [] := by
  simp [mover, hl]

/-! ## 3. The invariant -/

section Invariant

variable (V : Json.Scalars) (db : ConfigTables) (cfg : Config)

/-- Where a call can stand while the cache is cold: no call has returned, and the one that reads
the tables will have the config. -/
def ColdPc : RefreshPc → Prop
  | .get | .lock | .recheck => True
  | .load pc => pc.outcome V db = .ok cfg
  | .setex cfg' => cfg' = cfg
  | .done _ => False

/-- Where a call can stand once the cache is filled. -/
def WarmPc : RefreshPc → Prop
  | .get | .lock | .recheck => True
  | .load _ | .setex _ => False
  | .done result => result = .ok cfg

/-- The cache is cold and at most one call is between its first read and its store, or one call
has read and stored. -/
inductive FlightPhase (s : CacheSystem) (reads stores : List ℕ) : Prop
  | cold (hcached : s.cachedConfig V = none) (hpcs : ∀ l ∈ s.loads, ColdPc V db cfg l.pc)
      (hreads : ∀ i, i ∈ reads ↔ ∃ l, s.loads[i]? = some l ∧ l.pc.pastRead = true)
      (hlen : reads.length ≤ 1) (hstores : stores = [])
  | warm (i : ℕ) (hi : i < s.loads.length) (hcache : s.cache = some (some cfg.dump))
      (hpcs : ∀ l ∈ s.loads, WarmPc cfg l.pc) (hreads : reads = [i]) (hstores : stores = [i])

/-- The invariant of the runs without expiry, write and failure. -/
structure FlightInv (store : ℕ) (s : CacheSystem) (reads stores : List ℕ) (steps : ℕ) : Prop where
  db_eq : s.db = db
  calls : ∀ l ∈ s.loads, l.store = store ∧ l.force = false
  lock : Mutex.Guarded (fun l => l.pc.inside) (s.lockHeld store) s.loads
  phase : FlightPhase V db cfg s reads stores
  steps_le : steps + Mutex.totalRank (fun l => l.pc.rank) s.loads ≤ 7 * s.loads.length

variable {V db cfg}

theorem ColdPc.warm {pc : RefreshPc} (h : ColdPc V db cfg pc) (hout : pc.inside = false) :
    WarmPc cfg pc := by
  cases pc with
  | get | lock => trivial
  | recheck | load _ | setex _ => cases hout
  | done result => exact h.elim

theorem inside_of_pastRead {pc : RefreshPc} (h : pc.pastRead = true) : pc.inside = true := by
  cases pc with
  | load _ | setex _ => rfl
  | get | lock | recheck | done _ => cases h

theorem ColdPc.read {pc : LoadPc} (h : ColdPc V db cfg (.load pc)) :
    (pc.read V db).outcome V db = .ok cfg :=
  (LoadPc.outcome_read V db pc).trans h

/-- A step while the cache is cold: the call is still on its way, and past its first read if it
was there or makes it now; or it stores the config. -/
theorem ColdPc.move {pc pc' : RefreshPc} {effect : RefillEffect}
    (hload : loadFromDb V db = .ok cfg) (h : ColdPc V db cfg pc)
    (hm : pc.Moves V none db pc' effect) :
    (ColdPc V db cfg pc' ∧ pc.storing = false ∧ (∀ cfg', effect ≠ .storeAndRelease cfg') ∧
      (pc'.pastRead = true ↔ pc.pastRead = true ∨ pc.reading = true)) ∨
    (pc = .setex cfg ∧ pc' = .done (.ok cfg) ∧ effect = .storeAndRelease cfg) := by
  cases hm with
  | served hc | followed hc => cases hc
  | missed | entered => exact Or.inl ⟨trivial, rfl, nofun, by decide⟩
  | missedAgain => exact Or.inl ⟨hload, rfl, nofun, by decide⟩
  | @read pc hr =>
    refine Or.inl ⟨h.read, rfl, nofun, ?_⟩
    cases pc with
    | routing =>
      simp only [LoadPc.read] at hr ⊢
      cases hf : db.fetchRoutingConfig with
      | none =>
        rw [hf] at hr
        cases hr
      | some row => simp [RefreshPc.pastRead, RefreshPc.reading]
    | tiers row => simp [LoadPc.read, RefreshPc.pastRead]
    | models row ts => cases hr
    | done result => cases hr
  | @loaded pc cfg' hr =>
    have hout := h.read
    rw [hr] at hout
    refine Or.inl ⟨by cases hout; rfl, rfl, nofun, ?_⟩
    cases pc with
    | routing | tiers _ | models _ _ | done _ =>
      simp [RefreshPc.pastRead, RefreshPc.reading]
  | failed hr =>
    have hout := h.read
    rw [hr] at hout
    cases hout
  | stored =>
    obtain rfl := h
    exact Or.inr ⟨rfl, rfl, rfl⟩

/-- A step once the cache is filled: the call does not read the tables and stores nothing. -/
theorem WarmPc.move {pc pc' : RefreshPc} {effect : RefillEffect} (h : WarmPc cfg pc)
    (hm : pc.Moves V (some cfg) db pc' effect) :
    WarmPc cfg pc' ∧ pc.reading = false ∧ pc.storing = false ∧
      ∀ cfg', effect ≠ .storeAndRelease cfg' := by
  cases hm with
  | served hc | followed hc =>
    cases hc
    exact ⟨rfl, rfl, rfl, nofun⟩
  | entered => exact ⟨trivial, rfl, rfl, nofun⟩
  | missed hc | missedAgain hc => cases hc
  | read | loaded | failed | stored => exact h.elim

/-! ## 4. Every event keeps it -/

/-- What a step of a call does to the rest of the system: it takes the lock when it goes inside
and frees it when it comes out, and it writes the cache only to store. -/
theorem perform_moves {s s' : CacheSystem} {i : ℕ} {l l' : LoadTask} {effect : RefillEffect}
    (hlock : Mutex.Guarded (fun l => l.pc.inside) (s.lockHeld l.store) s.loads)
    (hl : s.loads[i]? = some l) (hm : l.pc.Moves V (s.cachedConfig V) s.db l'.pc effect)
    (h : s.perform l.store effect = some s') :
    s'.db = s.db ∧
      Mutex.Guarded (fun l => l.pc.inside) (s'.lockHeld l.store) (s.loads.set i l') ∧
      ((∀ cfg, effect ≠ .storeAndRelease cfg) → s'.cache = s.cache) ∧
      ∀ cfg, effect = .storeAndRelease cfg → s'.cache = some (some cfg.dump) := by
  have hside := hm.inside_eq
  cases effect with
  | nothing =>
    obtain rfl := Option.some.inj h
    exact ⟨rfl, hlock.stay hl hside, fun _ => rfl, fun cfg he => by cases he⟩
  | acquire =>
    simp only [CacheSystem.perform] at h
    split at h
    · cases h
    · rename_i hfree
      obtain rfl := Option.some.inj h
      have hfree' : s.lockHeld l.store = false := by simpa using hfree
      refine ⟨rfl, ?_, fun _ => rfl, fun cfg he => by cases he⟩
      simpa using (hfree' ▸ hlock).enter hl hside.2
  | release =>
    obtain rfl := Option.some.inj h
    refine ⟨rfl, ?_, fun _ => rfl, fun cfg he => by cases he⟩
    simpa using hlock.leave hl hside.1 hside.2
  | storeAndRelease cfg =>
    obtain rfl := Option.some.inj h
    refine ⟨rfl, ?_, fun hne => absurd rfl (hne cfg), fun cfg' he => by cases he; rfl⟩
    simpa using hlock.leave hl hside.1 hside.2

theorem inside_of_reading {pc : RefreshPc} (h : pc.reading = true) :
    pc.inside = true ∧ pc.pastRead = false := by
  cases pc with
  | load pc =>
    cases pc with
    | routing => exact ⟨rfl, rfl⟩
    | tiers _ | models _ _ | done _ => cases h
  | get | lock | recheck | setex _ | done _ => cases h

/-- Who has read: the mover joins the list when it makes the first read, and then the list was
empty, since a call that has read is still inside. -/
theorem cold_reads {s : CacheSystem} {i : ℕ} {l l' : LoadTask} {held : Bool} {reads : List ℕ}
    (hlock : Mutex.Guarded (fun l => l.pc.inside) held s.loads) (hl : s.loads[i]? = some l)
    (hpast : l'.pc.pastRead = true ↔ l.pc.pastRead = true ∨ l.pc.reading = true)
    (hreads : ∀ j, j ∈ reads ↔ ∃ x, s.loads[j]? = some x ∧ x.pc.pastRead = true)
    (hlen : reads.length ≤ 1) :
    (∀ j, j ∈ reads ++ mover RefreshPc.reading s (.load i) ↔
      ∃ x, (s.loads.set i l')[j]? = some x ∧ x.pc.pastRead = true) ∧
    (reads ++ mover RefreshPc.reading s (.load i)).length ≤ 1 := by
  have hi := (List.getElem?_eq_some_iff.mp hl).1
  have hmem : i ∈ reads ↔ l.pc.pastRead = true := by
    rw [hreads i]
    constructor
    · rintro ⟨x, hx, hpx⟩
      obtain rfl := Option.some.inj (hl.symm.trans hx)
      exact hpx
    · exact fun h => ⟨l, hl, h⟩
  rw [mover_load hl]
  constructor
  · intro j
    by_cases hij : i = j
    · subst hij
      rw [List.getElem?_set_self hi, List.mem_append, hmem]
      cases hr : l.pc.reading <;> simp [hpast, hr]
    · rw [List.getElem?_set_ne hij, ← hreads j, List.mem_append, or_iff_left]
      intro hj
      split at hj
      · exact hij (List.mem_singleton.mp hj).symm
      · cases hj
  · cases hr : l.pc.reading with
    | false => simpa using hlen
    | true =>
      obtain ⟨hin, hnot⟩ := inside_of_reading hr
      have hnil : reads = [] := by
        refine List.eq_nil_iff_forall_not_mem.mpr fun j hj => ?_
        obtain ⟨x, hx, hpx⟩ := (hreads j).mp hj
        have hji := hlock.exclusive j i x l hx hl (inside_of_pastRead hpx) hin
        subst hji
        rw [hmem.mp hj] at hnot
        cases hnot
      simp [hnil]

theorem length_le_one_eq_singleton {α : Type} {xs : List α} {x : α} (hlen : xs.length ≤ 1)
    (hx : x ∈ xs) : xs = [x] := by
  cases xs with
  | nil => cases hx
  | cons y ys =>
    obtain rfl : ys = [] := List.eq_nil_of_length_eq_zero (by simpa using hlen)
    rw [List.mem_singleton.mp hx]

/-- **A step of a call keeps the phase**, or ends the cold one. -/
theorem flightPhase_load {s s' : CacheSystem} {i : ℕ} {l l' : LoadTask} {effect : RefillEffect}
    {reads stores : List ℕ} {held : Bool} (hload : loadFromDb V db = .ok cfg)
    (hlock : Mutex.Guarded (fun l => l.pc.inside) held s.loads)
    (hphase : FlightPhase V db cfg s reads stores) (hl : s.loads[i]? = some l)
    (hm : l.pc.Moves V (s.cachedConfig V) db l'.pc effect) (hloads : s'.loads = s.loads.set i l')
    (hkeep : (∀ cfg, effect ≠ .storeAndRelease cfg) → s'.cache = s.cache)
    (hstore : ∀ cfg, effect = .storeAndRelease cfg → s'.cache = some (some cfg.dump)) :
    FlightPhase V db cfg s' (reads ++ mover RefreshPc.reading s (.load i))
      (stores ++ mover RefreshPc.storing s (.load i)) := by
  have hmem := List.mem_of_getElem? hl
  have hi := (List.getElem?_eq_some_iff.mp hl).1
  cases hphase with
  | cold hcached hpcs hreads hlen hstores =>
    rw [hcached] at hm
    rcases (hpcs l hmem).move hload hm with ⟨hpc', hns, hne, hpast⟩ | ⟨hpc, hpc', heff⟩
    · obtain ⟨hreads', hlen'⟩ := cold_reads hlock hl hpast hreads hlen
      refine .cold ?_ ?_ (hloads ▸ hreads') hlen' ?_
      · rw [CacheSystem.cachedConfig, hkeep hne]
        exact hcached
      · exact hloads ▸ forall_mem_set hpcs hpc'
      · simp [mover_load hl, hns, hstores]
    · -- the call that read stores; nobody else is inside
      have hin : l.pc.inside = true := by rw [hpc]; rfl
      have hread : i ∈ reads := (hreads i).mpr ⟨l, hl, by rw [hpc]; rfl⟩
      refine .warm i (by rwa [hloads, List.length_set]) (hstore cfg heff) ?_ ?_ ?_
      · intro x hx
        obtain ⟨j, hj⟩ := List.mem_iff_getElem?.mp (hloads ▸ hx)
        by_cases hij : i = j
        · subst hij
          rw [List.getElem?_set_self hi] at hj
          obtain rfl := Option.some.inj hj
          rw [hpc']
          exact rfl
        · rw [List.getElem?_set_ne hij] at hj
          exact (hpcs x (List.mem_of_getElem? hj)).warm (hlock.outside_of_ne hl hin hj hij)
      · rw [length_le_one_eq_singleton hlen hread, mover_load hl, hpc]
        rfl
      · rw [hstores, mover_load hl, hpc]
        rfl
  | warm k hk hcache hpcs hreads hstores =>
    have hcached : s.cachedConfig V = some cfg := by
      rw [CacheSystem.cachedConfig, hcache]
      exact Config.validate_dump V cfg
    rw [hcached] at hm
    obtain ⟨hpc', hnr, hns, hne⟩ := (hpcs l hmem).move hm
    refine .warm k (by rwa [hloads, List.length_set]) ((hkeep hne).trans hcache)
      (hloads ▸ forall_mem_set hpcs hpc') ?_ ?_
    · simp [mover_load hl, hnr, hreads]
    · simp [mover_load hl, hns, hstores]

/-- **Every event keeps the invariant.** -/
theorem flightInv_step {store : ℕ} {s s' : CacheSystem} {e : CacheEvent} {reads stores : List ℕ}
    {steps : ℕ} (hload : loadFromDb V db = .ok cfg)
    (hinv : FlightInv V db cfg store s reads stores steps) (he : e.ofStore store = true)
    (hstep : s.step V e = some s') :
    FlightInv V db cfg store s' (reads ++ mover RefreshPc.reading s e)
      (stores ++ mover RefreshPc.storing s e) (steps + if e.isStep then 1 else 0) := by
  cases e with
  | startWrite _ | write _ | expire => cases he
  | startLoad store' force =>
    obtain ⟨hst, hforce⟩ := Bool.and_eq_true_iff.mp he
    obtain rfl : store' = store := by simpa using hst
    obtain rfl : force = false := by simpa using hforce
    obtain rfl := Option.some.inj hstep
    have hsteps := hinv.steps_le
    refine ⟨hinv.db_eq, ?_, hinv.lock.join rfl, ?_, ?_⟩
    · intro l hl
      rcases List.mem_append.mp hl with hl | hl
      · exact hinv.calls l hl
      · obtain rfl := List.mem_singleton.mp hl
        exact ⟨rfl, rfl⟩
    · simp only [mover, List.append_nil]
      cases hinv.phase with
      | cold hcached hpcs hreads hlen hstores =>
        refine .cold hcached ?_ (fun i => (hreads i).trans ?_) hlen hstores
        · intro l hl
          rcases List.mem_append.mp hl with hl | hl
          · exact hpcs l hl
          · obtain rfl := List.mem_singleton.mp hl
            trivial
        · constructor
          · rintro ⟨l, hl, hp⟩
            have hi := (List.getElem?_eq_some_iff.mp hl).1
            exact ⟨l, (List.getElem?_append_left hi).trans hl, hp⟩
          · rintro ⟨l, hl, hp⟩
            rw [List.getElem?_append] at hl
            split at hl
            · exact ⟨l, hl, hp⟩
            · obtain rfl := List.mem_singleton.mp (List.mem_of_getElem? hl)
              cases hp
      | warm k hk hcache hpcs hreads hstores =>
        refine .warm k ?_ hcache ?_ hreads hstores
        · rw [List.length_append]
          exact Nat.lt_add_right _ hk
        · intro l hl
          rcases List.mem_append.mp hl with hl | hl
          · exact hpcs l hl
          · obtain rfl := List.mem_singleton.mp hl
            trivial
    · have hnew : RefreshPc.get.rank = 7 := rfl
      simp only [Mutex.totalRank_concat, List.length_append, List.length_singleton,
        CacheEvent.isStep, Bool.false_eq_true, if_false, hnew]
      omega
  | load i =>
    have hadvance : s.advanceLoad V i = some s' := hstep
    simp only [CacheSystem.advanceLoad, Option.bind_eq_bind, Option.bind_eq_some_iff,
      Option.pure_def, Option.some.injEq] at hadvance
    obtain ⟨l, hl, ⟨l', effect⟩, hnext, s₁, hperform, rfl⟩ := hadvance
    obtain ⟨rfl, hforce⟩ := hinv.calls l (List.mem_of_getElem? hl)
    obtain ⟨hstore', hforce', hm⟩ := LoadTask.next_moves hforce hnext
    obtain ⟨hdb, hlock, hkeep, hstored⟩ := perform_moves hinv.lock hl hm hperform
    refine ⟨hdb.trans hinv.db_eq, forall_mem_set hinv.calls ⟨hstore', hforce'⟩, hlock,
      flightPhase_load hload hinv.lock hinv.phase hl (hinv.db_eq ▸ hm) rfl hkeep hstored, ?_⟩
    have hsteps := hinv.steps_le
    have hrank := Mutex.totalRank_set (y := l') (fun l => l.pc.rank) hl
    have hlt := hm.rank_lt
    simp only [List.length_set, CacheEvent.isStep, if_true]
    omega

theorem flightInv_start {cache : Option (Option Json)} {store : ℕ}
    (hcold : (CacheSystem.start db cache).cachedConfig V = none) :
    FlightInv V db cfg store (.start db cache) [] [] 0 where
  db_eq := rfl
  calls := by simp [CacheSystem.start]
  lock := Mutex.guarded_nil
  phase := .cold hcold (by simp [CacheSystem.start]) (by simp [CacheSystem.start]) (by simp) rfl
  steps_le := by simp [CacheSystem.start, Mutex.totalRank]

/-- The invariant along a run. -/
theorem flightInv_run {cache : Option (Option Json)} {store : ℕ} {es : List CacheEvent}
    {s : CacheSystem} (hload : loadFromDb V db = .ok cfg)
    (hcold : (CacheSystem.start db cache).cachedConfig V = none)
    (hes : ∀ e ∈ es, e.ofStore store = true)
    (hrun : Runs.run (CacheSystem.step V) (.start db cache) es = some s) :
    FlightInv V db cfg store s (dbLoads V (.start db cache) es)
      (redisWrites V (.start db cache) es) (es.countP CacheEvent.isStep) := by
  have hboth := Runs.invariant_along (fun _ e => e.ofStore store = true)
    (fun es s => Runs.run (CacheSystem.step V) (.start db cache) es = some s ∧
      FlightInv V db cfg store s (dbLoads V (.start db cache) es)
        (redisWrites V (.start db cache) es) (es.countP CacheEvent.isStep))
    ⟨rfl, flightInv_start hcold⟩ ?_ hrun (Runs.along_of_forall es _ hes)
  · exact hboth.2
  · rintro es s e s' ⟨hrun, hinv⟩ he hstep
    refine ⟨Runs.run_concat_iff.mpr ⟨s, hrun, hstep⟩, ?_⟩
    have hnext := flightInv_step hload hinv he hstep
    rw [dbLoads, redisWrites, Runs.notes_concat hrun, Runs.notes_concat hrun, List.countP_append,
      List.countP_singleton]
    exact hnext

/-! ## 5. Progress -/

/-- An effect waits for nothing but the lock. -/
theorem exists_perform {s : CacheSystem} {store : ℕ} {effect : RefillEffect}
    (h : effect = .acquire → s.lockHeld store = false) :
    ∃ s', s.perform store effect = some s' := by
  cases effect with
  | acquire => exact ⟨_, by rw [CacheSystem.perform, h rfl]; rfl⟩
  | nothing | release | storeAndRelease _ => exact ⟨_, rfl⟩

theorem exists_advance {s : CacheSystem} {i : ℕ} {l : LoadTask} (hl : s.loads[i]? = some l)
    (hpc : l.pc.result = none) (hforce : l.force = false)
    (hwait : l.pc.inside = true ∨ s.lockHeld l.store = false) :
    ∃ s', s.step V (.load i) = some s' := by
  obtain ⟨⟨l', effect⟩, hnext⟩ := l.exists_next (V := V) (s.cachedConfig V) s.db s.version hpc
  obtain ⟨-, -, hm⟩ := LoadTask.next_moves hforce hnext
  have hfree : effect = .acquire → s.lockHeld l.store = false := by
    rintro rfl
    refine hwait.resolve_left ?_
    rw [hm.inside_eq.1]
    exact Bool.false_ne_true
  obtain ⟨s', hs'⟩ := exists_perform hfree
  exact ⟨{ s' with loads := s.loads.set i l' },
    by simp [CacheSystem.step, CacheSystem.advanceLoad, hl, hnext, hs']⟩

theorem result_of_inside {pc : RefreshPc} (h : pc.inside = true) : pc.result = none := by
  cases pc with
  | done result => cases h
  | get | lock | recheck | load _ | setex _ => rfl

/-- While a call is not done, a call can move: the one inside, or any of them if the lock is
free. -/
theorem FlightInv.exists_step {store : ℕ} {s : CacheSystem} {reads stores : List ℕ} {steps : ℕ}
    (hinv : FlightInv V db cfg store s reads stores steps) {l : LoadTask} (hl : l ∈ s.loads)
    (hpc : l.pc.result = none) : ∃ i s', s.step V (.load i) = some s' := by
  cases hheld : s.lockHeld store with
  | true =>
    obtain ⟨j, x, hx, hin⟩ := hinv.lock.held_iff.mp hheld
    have hforce := (hinv.calls x (List.mem_of_getElem? hx)).2
    exact ⟨j, exists_advance hx (result_of_inside hin) hforce (Or.inl hin)⟩
  | false =>
    obtain ⟨i, hi⟩ := List.mem_iff_getElem?.mp hl
    obtain ⟨rfl, hforce⟩ := hinv.calls l hl
    exact ⟨i, exists_advance hi hpc hforce (Or.inr hheld)⟩

end Invariant

/-! ## 6. The law -/

/-- One call read and stored, and every call returned what it read. -/
structure SingleFlight (V : Json.Scalars) (cfg : Config) (s₀ : CacheSystem) (es : List CacheEvent)
    (s : CacheSystem) : Prop where
  /-- while a call is not done, a call can move -/
  moves : ∀ l ∈ s.loads, l.pc.result = none → ∃ i s', s.step V (.load i) = some s'
  /-- and they do not move for ever -/
  bounded : es.countP CacheEvent.isStep ≤ 7 * s.loads.length
  results : ∀ l ∈ s.loads, ∀ result ∈ l.pc.result, result = .ok cfg
  atMostOne : (dbLoads V s₀ es).length ≤ 1 ∧ (redisWrites V s₀ es).length ≤ 1
  one : s.loads ≠ [] → (∀ l ∈ s.loads, l.pc.result ≠ none) →
    ∃ i < s.loads.length, dbLoads V s₀ es = [i] ∧ redisWrites V s₀ es = [i] ∧
      s.cachedConfig V = some cfg

/-- **Single flight.**  From a cache that holds no config, whatever the order in which any number
of calls on one store start and move: one of them reads the database and writes the cache, all
return its config, and none of them waits for ever. -/
theorem single_flight (V : Json.Scalars) (db : ConfigTables) (cfg : Config)
    (cache : Option (Option Json)) (store : ℕ) (es : List CacheEvent) (s : CacheSystem)
    (hload : loadFromDb V db = .ok cfg)
    (hcold : (CacheSystem.start db cache).cachedConfig V = none)
    (hes : ∀ e ∈ es, e.ofStore store = true)
    (hrun : Runs.run (CacheSystem.step V) (.start db cache) es = some s) :
    SingleFlight V cfg (.start db cache) es s := by
  have hinv := flightInv_run hload hcold hes hrun
  have hbounded : es.countP CacheEvent.isStep ≤ 7 * s.loads.length :=
    (Nat.le_add_right _ _).trans hinv.steps_le
  have hmoves : ∀ l ∈ s.loads, l.pc.result = none → ∃ i s', s.step V (.load i) = some s' :=
    fun l hl hpc => hinv.exists_step hl hpc
  cases hinv.phase with
  | cold hcached hpcs hreads hlen hstores =>
    have hdone : ∀ l ∈ s.loads, l.pc.result = none := by
      intro l hl
      have hpc := hpcs l hl
      cases h : l.pc with
      | done result =>
        rw [h] at hpc
        exact hpc.elim
      | get | lock | recheck | load _ | setex _ => rfl
    refine ⟨hmoves, hbounded, ?_, ⟨hlen, by simp [hstores]⟩, ?_⟩
    · intro l hl result hresult
      rw [hdone l hl] at hresult
      cases hresult
    · intro hne hall
      obtain ⟨l, hl⟩ := List.exists_mem_of_ne_nil _ hne
      exact absurd (hdone l hl) (hall l hl)
  | warm i hi hcache hpcs hreads hstores =>
    refine ⟨hmoves, hbounded, ?_, by simp [hreads, hstores], ?_⟩
    · intro l hl result hresult
      have hpc := hpcs l hl
      cases h : l.pc with
      | done result' =>
        rw [h] at hpc hresult
        obtain rfl := Option.some.inj hresult
        exact hpc
      | get | lock | recheck | load _ | setex _ =>
        rw [h] at hresult
        cases hresult
    · refine fun _ _ => ⟨i, hi, hreads, hstores, ?_⟩
      rw [CacheSystem.cachedConfig, hcache]
      exact Config.validate_dump V cfg

/-- Two callers meet a corrupt entry: the second waits for the lock and is served the value that
the first has stored. -/
def stampede : List CacheEvent :=
  [.startLoad 0 false, .startLoad 0 false, .load 0, .load 1, .load 0] ++
    List.replicate 5 (.load 0) ++ [.load 1, .load 1]

/-- The law, on that run: call 0 read and stored, and both returned. -/
theorem single_flight_stampede :
    ∃ cfg s, Runs.run (CacheSystem.step .strict)
        (.start (ConfigTables.empty.write fastConfig) (some none)) stampede = some s ∧
      (s.loads.map fun l => l.pc.result) = [some (.ok cfg), some (.ok cfg)] ∧
      SingleFlight .strict cfg (.start (ConfigTables.empty.write fastConfig) (some none))
        stampede s := by
  obtain ⟨cfg, hload⟩ : ∃ cfg, loadFromDb .strict (ConfigTables.empty.write fastConfig) = .ok cfg :=
    ⟨_, loadFromDb_writeAll [] fastConfig⟩
  have hdone : (Runs.run (CacheSystem.step .strict)
      (.start (ConfigTables.empty.write fastConfig) (some none)) stampede).any (fun s =>
        decide (s.loads.length = 2 ∧ ∀ l ∈ s.loads, l.pc.result.isSome = true)) = true := by
    decide +kernel
  obtain ⟨s, hs, hall⟩ := (Option.any_eq_true _ _).mp hdone
  obtain ⟨hlen, hall⟩ := of_decide_eq_true hall
  have hlaw := single_flight .strict _ cfg (some none) 0 stampede s hload rfl (by decide) hs
  obtain ⟨l₀, l₁, hl⟩ := List.length_eq_two.mp hlen
  have hresult : ∀ l ∈ s.loads, l.pc.result = some (.ok cfg) := by
    intro l hl
    obtain ⟨result, hr⟩ := Option.isSome_iff_exists.mp (hall l hl)
    rw [hr, hlaw.results l hl result hr]
  refine ⟨cfg, s, hs, ?_, hlaw⟩
  rw [hl] at hresult ⊢
  simp [hresult l₀ (by simp), hresult l₁ (by simp)]

end Librouter
