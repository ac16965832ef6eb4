/-
# The config cache in Redis

`load_or_refresh` serves the config from `gw:config:current` and refills the key from the database
when it is missing, corrupt or not wanted; `write` deletes the key after its last statement, "so
the next load_or_refresh fetches the fresh row".  A refill reads the database first and stores
what it read later.  The lock around it is a lock of one `ConfigStore`, and `write` does not take
it: a refill that read before the write can store after the delete, and the old config is back
for the whole time to live (`stale_after_write`).

The system is any number of processes, each with its `ConfigStore`, on one Redis and one database;
every call moves from await to await (`CacheSystem.step`).  `cache_coherent` is the law for the
runs in which no refill stores what it read before a write that has deleted the key since.
-/
import Librouter.ConfigStore.RoundTrip
import Librouter.Foundations.Runs

namespace Librouter

/-! ## 1. The calls -/

/-- `load_or_refresh` between its awaits. -/
inductive RefreshPc
  /-- in the first `get(_REDIS_KEY)` -/
  | get
  /-- entering `async with self._refill_lock` -/
  | lock
  /-- in the second `get(_REDIS_KEY)` -/
  | recheck
  /-- in `load_from_db()` -/
  | load (pc : LoadPc)
  /-- in `setex(_REDIS_KEY, ...)` -/
  | setex (cfg : Config)
  | done (result : Except LoadError Config)

/-- A call of `load_or_refresh`. -/
structure LoadTask where
  /-- the `ConfigStore`, and with it the refill lock -/
  store : ℕ
  force : Bool
  pc : RefreshPc
  /-- history: the statements executed before the first read of `load_from_db` -/
  readAt : ℕ := 0
  /-- history: a write had returned and none was running at the start, and none has started -/
  quiet : Bool

/-- A call of `write`. -/
structure WriteTask where
  pending : List Statement
  returned : Bool := false
  /-- history: the statements executed up to the latest of this call -/
  lastExec : ℕ := 0

/-- What a step of a call does to the refill lock and the cache. -/
inductive RefillEffect
  | nothing
  | acquire
  | release
  | storeAndRelease (cfg : Config)

/-- History: the first read of `load_from_db` is the one that counts. -/
def LoadPc.stamp (version readAt : ℕ) : LoadPc → ℕ
  | .routing => version
  | _ => readAt

section Load

variable (V : Json.Scalars)

/-- The next step of a `load_or_refresh`, on what it reads: the config in the cache, the tables,
and how many statements have been executed. -/
def LoadTask.next (l : LoadTask) (cached : Option Config) (db : ConfigTables) (version : ℕ) :
    Option (LoadTask × RefillEffect) :=
  match l.pc with
  | .get =>
    match cached with
    | some cfg => some ({ l with pc := .done (.ok cfg) }, .nothing)
    | none => some ({ l with pc := .lock }, .nothing)
  | .lock =>
    some ({ l with pc := if l.force then .load .routing else .recheck }, .acquire)
  | .recheck =>
    match cached with
    | some cfg => some ({ l with pc := .done (.ok cfg) }, .release)
    | none => some ({ l with pc := .load .routing }, .nothing)
  | .load pc =>
    let l := { l with readAt := pc.stamp version l.readAt }
    match pc.read V db with
    | .done (.ok cfg) => some ({ l with pc := .setex cfg }, .nothing)
    | .done (.error e) => some ({ l with pc := .done (.error e) }, .release)
    | pc' => some ({ l with pc := .load pc' }, .nothing)
  | .setex cfg => some ({ l with pc := .done (.ok cfg) }, .storeAndRelease cfg)
  | .done _ => none

end Load

/-! ## 2. The system -/

/-- Redis, the database, the refill locks, and the calls. -/
structure CacheSystem where
  db : ConfigTables
  /-- the value of `gw:config:current`, if there is one; bytes that are no JSON are `some none` -/
  cache : Option (Option Json)
  /-- whether the refill lock of a `ConfigStore` is held -/
  lockHeld : ℕ → Bool
  loads : List LoadTask
  writes : List WriteTask
  /-- history: the statements executed -/
  version : ℕ := 0
  /-- history: the latest statement of a write that has deleted the key -/
  deletedVersion : ℕ := 0

/-- What happens. -/
inductive CacheEvent
  | startLoad (store : ℕ) (force : Bool)
  | startWrite (cfg : Config)
  /-- call `i` of `load_or_refresh` moves on -/
  | load (i : ℕ)
  /-- call `i` of `write` moves on -/
  | write (i : ℕ)
  /-- the time to live of the key runs out -/
  | expire

namespace CacheSystem

variable (V : Json.Scalars)

/-- Nothing has been called yet; whatever was cached is still there. -/
def start (db : ConfigTables) (cache : Option (Option Json)) : CacheSystem where
  db := db
  cache := cache
  lockHeld := fun _ => false
  loads := []
  writes := []

/-- The cached config, if the cached bytes are one. -/
def cachedConfig (s : CacheSystem) : Option Config :=
  s.cache.bind fun bytes => bytes.bind (Config.validate V)

/-- The effect of a step of a call on the refill lock of its store and on the cache. -/
def perform (s : CacheSystem) (store : ℕ) : RefillEffect → Option CacheSystem
  | .nothing => some s
  | .acquire =>
    if s.lockHeld store then none
    else some { s with lockHeld := Function.update s.lockHeld store true }
  | .release => some { s with lockHeld := Function.update s.lockHeld store false }
  | .storeAndRelease cfg =>
    some { s with lockHeld := Function.update s.lockHeld store false, cache := some (some cfg.dump) }

/-- No write is running, and one has returned. -/
def settled (s : CacheSystem) : Bool :=
  !s.writes.isEmpty && s.writes.all WriteTask.returned

/-- A step of call `i` of `load_or_refresh`. -/
def advanceLoad (s : CacheSystem) (i : ℕ) : Option CacheSystem := do
  let l ← s.loads[i]?
  let (l', effect) ← l.next V (s.cachedConfig V) s.db s.version
  let s' ← s.perform l.store effect
  return { s' with loads := s.loads.set i l' }

/-- A step of call `i` of `write`: a statement, and after the last one the delete. -/
def advanceWrite (s : CacheSystem) (i : ℕ) : Option CacheSystem := do
  let w ← s.writes[i]?
  match w.pending with
  | st :: pending =>
    return { s with
      db := s.db.exec st
      version := s.version + 1
      writes := s.writes.set i { w with pending := pending, lastExec := s.version + 1 } }
  | [] =>
    if w.returned then none
    else return { s with
      cache := none
      deletedVersion := max s.deletedVersion w.lastExec
      writes := s.writes.set i { w with returned := true } }

/-- One event. -/
def step (s : CacheSystem) : CacheEvent → Option CacheSystem
  | .startLoad store force =>
    some { s with loads := s.loads ++ [{
      store := store, force := force, pc := if force then .lock else .get, quiet := s.settled }] }
  | .startWrite cfg =>
    some { s with
      writes := s.writes ++ [{ pending := writeStatements cfg }]
      loads := s.loads.map fun l => { l with quiet := false } }
  | .load i => s.advanceLoad V i
  | .write i => s.advanceWrite i
  | .expire => some { s with cache := none }

end CacheSystem

/-! ## 3. Coherence -/

/-- The call is about to store a config. -/
def RefreshPc.storing : RefreshPc → Bool
  | .setex _ => true
  | _ => false

/-- What the call returned, once it is done. -/
def RefreshPc.result : RefreshPc → Option (Except LoadError Config)
  | .done result => some result
  | _ => none

/-- The event is no store of a config that was read before the last statement of a write which has
deleted the key since. -/
def FreshStore (s : CacheSystem) : CacheEvent → Prop
  | .load i => ∀ l ∈ s.loads[i]?, l.pc.storing = true → s.deletedVersion ≤ l.readAt
  | _ => True

instance (s : CacheSystem) : ∀ e, Decidable (FreshStore s e)
  | .load i =>
    inferInstanceAs (Decidable (∀ l ∈ s.loads[i]?, l.pc.storing = true → s.deletedVersion ≤ l.readAt))
  | .startLoad _ _ | .startWrite _ | .write _ | .expire => isTrue trivial

/-- Every `load_or_refresh` that started after a write had returned, with no other write running
or starting before it ended, returned what `load_from_db` returns. -/
def Coherent (V : Json.Scalars) (s : CacheSystem) : Prop :=
  ∀ l ∈ s.loads, ∀ result ∈ l.pc.result, l.quiet = true → result = loadFromDb V s.db

instance (V : Json.Scalars) (s : CacheSystem) : Decidable (Coherent V s) :=
  inferInstanceAs (Decidable (∀ l ∈ s.loads, ∀ result ∈ l.pc.result, l.quiet = true →
    result = loadFromDb V s.db))

/-! ## 4. The invariant -/

section Invariant

variable (V : Json.Scalars)

/-- What a load that stands at `pc` will return if the tables stay as they are. -/
def LoadPc.outcome (d : ConfigTables) : LoadPc → Except LoadError Config
  | .routing => loadFromDb V d
  | .tiers row => loadRows V row d.fetchTiers d.fetchTierModels
  | .models row ts => loadRows V row ts d.fetchTierModels
  | .done result => result

/-- A read of the tables does not change what the load will return from them. -/
theorem LoadPc.outcome_read (d : ConfigTables) (pc : LoadPc) :
    (pc.read V d).outcome V d = pc.outcome V d := by
  cases pc with
  | routing =>
    simp only [LoadPc.read, LoadPc.outcome, loadFromDb]
    cases d.fetchRoutingConfig <;> rfl
  | tiers row => rfl
  | models row ts => rfl
  | done result => rfl

/-- What a refill has read is what is there, unless a statement was executed since it began; and
for a quiet call none was. -/
def PcOk (db : ConfigTables) (version readAt : ℕ) (quiet : Bool) : RefreshPc → Prop
  | .load pc =>
    (readAt = version → pc.outcome V db = loadFromDb V db) ∧
      (quiet = true → pc = .routing ∨ readAt = version)
  | .setex cfg =>
    (readAt = version → loadFromDb V db = .ok cfg) ∧ (quiet = true → readAt = version)
  | .done result => quiet = true → result = loadFromDb V db
  | _ => True

/-- A write executes at least one statement, and a returned one executed them all and deleted the
key. -/
structure WriteInv (version deletedVersion : ℕ) (w : WriteTask) : Prop where
  lastExec_le : w.lastExec ≤ version
  lastExec_pos : w.pending = [] → 0 < w.lastExec
  returned : w.returned = true → w.pending = [] ∧ w.lastExec ≤ deletedVersion

/-- The invariant. -/
structure CacheInv (s : CacheSystem) : Prop where
  loads : ∀ l ∈ s.loads, l.readAt ≤ s.version ∧ PcOk V s.db s.version l.readAt l.quiet l.pc
  writes : ∀ w ∈ s.writes, WriteInv s.version s.deletedVersion w
  /-- the latest statement is the latest of some write -/
  latest : s.version = 0 ∨ ∃ (j : ℕ) (w : WriteTask), s.writes[j]? = some w ∧ w.lastExec = s.version
  /-- once a write has deleted the key, what is cached was read after its last statement -/
  cached : ∀ bytes, s.cache = some bytes → s.deletedVersion = 0 ∨ ∃ cfg v,
    bytes = some cfg.dump ∧ s.deletedVersion ≤ v ∧ v ≤ s.version ∧
      (v = s.version → loadFromDb V s.db = .ok cfg)
  quiet : ∀ l ∈ s.loads, l.quiet = true → s.settled = true

variable {V}

theorem PcOk.of_not_quiet {db : ConfigTables} {version readAt : ℕ} {q : Bool} {pc : RefreshPc}
    (h : PcOk V db version readAt q pc) : PcOk V db version readAt false pc := by
  cases pc with
  | load pc => exact ⟨h.1, nofun⟩
  | setex cfg => exact ⟨h.1, nofun⟩
  | done result => exact nofun
  | get | lock | recheck => trivial

/-- After a further statement nothing is promised any more. -/
theorem PcOk.of_lt {db : ConfigTables} {version readAt : ℕ} {pc : RefreshPc}
    (h : readAt < version) : PcOk V db version readAt false pc := by
  cases pc with
  | load pc => exact ⟨fun heq => absurd heq h.ne, nofun⟩
  | setex cfg => exact ⟨fun heq => absurd heq h.ne, nofun⟩
  | done result => exact nofun
  | get | lock | recheck => trivial

theorem cacheInv_start (db : ConfigTables) (cache : Option (Option Json)) :
    CacheInv V (CacheSystem.start db cache) :=
  ⟨by simp [CacheSystem.start], by simp [CacheSystem.start], Or.inl rfl, fun _ _ => Or.inl rfl,
    by simp [CacheSystem.start]⟩

namespace CacheInv

variable {s : CacheSystem}

/-- When no write is running, every statement belongs to a write that has deleted the key. -/
theorem version_le_of_settled (h : CacheInv V s) (hs : s.settled = true) :
    0 < s.deletedVersion ∧ s.version ≤ s.deletedVersion := by
  obtain ⟨hne, hall⟩ := Bool.and_eq_true_iff.mp hs
  have hret : ∀ w ∈ s.writes, w.returned = true := List.all_eq_true.mp hall
  obtain ⟨w, hw⟩ := List.exists_mem_of_ne_nil s.writes (by simpa using hne)
  have hinv := h.writes w hw
  obtain ⟨hpend, hle⟩ := hinv.returned (hret w hw)
  have hpos : 0 < s.deletedVersion := (hinv.lastExec_pos hpend).trans_le hle
  refine ⟨hpos, ?_⟩
  rcases h.latest with h0 | ⟨j, w', hw', hlast⟩
  · omega
  · have hmem := List.mem_of_getElem? hw'
    exact hlast ▸ ((h.writes w' hmem).returned (hret w' hmem)).2

/-- **What is cached then is the current config.** -/
theorem cachedConfig_of_settled (h : CacheInv V s) (hs : s.settled = true) {cfg : Config}
    (hc : s.cachedConfig V = some cfg) : loadFromDb V s.db = .ok cfg := by
  obtain ⟨hpos, hle⟩ := h.version_le_of_settled hs
  obtain ⟨bytes, hbytes, hc⟩ := Option.bind_eq_some_iff.mp hc
  rcases h.cached bytes hbytes with h0 | ⟨cfg', v, rfl, hv, hv', hload⟩
  · omega
  · rw [Option.bind_some, Config.validate_dump] at hc
    obtain rfl := Option.some.inj hc
    exact hload (by omega)

/-- While some write is running, no call is quiet. -/
theorem not_quiet (h : CacheInv V s) {w : WriteTask} (hw : w ∈ s.writes)
    (hret : w.returned = false) {l : LoadTask} (hl : l ∈ s.loads) : l.quiet = false := by
  by_contra hq
  have hs := h.quiet l hl (by simpa using hq)
  have hall := List.all_eq_true.mp (Bool.and_eq_true_iff.mp hs).2 w hw
  rw [hret] at hall
  cases hall

end CacheInv

/-! ## 5. Every event keeps it -/

theorem PcOk.stamp {db : ConfigTables} {version readAt : ℕ} {q : Bool} {pc : LoadPc}
    (hle : readAt ≤ version) (h : PcOk V db version readAt q (.load pc)) :
    pc.stamp version readAt ≤ version ∧
      (pc.stamp version readAt = version → pc.outcome V db = loadFromDb V db) ∧
      (q = true → pc.stamp version readAt = version) := by
  cases pc with
  | routing => exact ⟨le_refl _, fun _ => rfl, fun _ => rfl⟩
  | tiers row => exact ⟨hle, h.1, fun hq => (h.2 hq).resolve_left nofun⟩
  | models row ts => exact ⟨hle, h.1, fun hq => (h.2 hq).resolve_left nofun⟩
  | done result => exact ⟨hle, h.1, fun hq => (h.2 hq).resolve_left nofun⟩

/-- A step of `load_or_refresh`: it keeps its own part of the invariant, and what it stores it
was about to store. -/
theorem LoadTask.next_spec {l l' : LoadTask} {cached : Option Config} {db : ConfigTables}
    {version : ℕ} {effect : RefillEffect} (hnext : l.next V cached db version = some (l', effect))
    (hle : l.readAt ≤ version) (hpc : PcOk V db version l.readAt l.quiet l.pc)
    (hcached : l.quiet = true → ∀ cfg, cached = some cfg → loadFromDb V db = .ok cfg) :
    l'.quiet = l.quiet ∧ l'.readAt ≤ version ∧ PcOk V db version l'.readAt l'.quiet l'.pc ∧
      ∀ cfg, effect = .storeAndRelease cfg → l.pc = .setex cfg := by
  unfold LoadTask.next at hnext
  cases h : l.pc with
  | get =>
    simp only [h] at hnext
    cases hc : cached with
    | some cfg =>
      rw [hc] at hnext
      cases hnext
      exact ⟨rfl, hle, fun hq => (hcached hq cfg hc).symm, nofun⟩
    | none =>
      rw [hc] at hnext
      cases hnext
      exact ⟨rfl, hle, trivial, nofun⟩
  | lock =>
    simp only [h] at hnext
    cases hnext
    refine ⟨rfl, hle, ?_, nofun⟩
    cases l.force
    · trivial
    · exact ⟨fun _ => rfl, fun _ => Or.inl rfl⟩
  | recheck =>
    simp only [h] at hnext
    cases hc : cached with
    | some cfg =>
      rw [hc] at hnext
      cases hnext
      exact ⟨rfl, hle, fun hq => (hcached hq cfg hc).symm, nofun⟩
    | none =>
      rw [hc] at hnext
      cases hnext
      exact ⟨rfl, hle, ⟨fun _ => rfl, fun _ => Or.inl rfl⟩, nofun⟩
  | load pc =>
    simp only [h] at hnext
    obtain ⟨hle', hread, hquiet⟩ := PcOk.stamp hle (h ▸ hpc)
    rw [← LoadPc.outcome_read] at hread
    split at hnext
    · rename_i cfg hm
      rw [hm] at hread
      cases hnext
      exact ⟨rfl, hle', ⟨fun heq => (hread heq).symm, hquiet⟩, nofun⟩
    · rename_i e hm
      rw [hm] at hread
      cases hnext
      exact ⟨rfl, hle', fun hq => hread (hquiet hq), nofun⟩
    · cases hnext
      exact ⟨rfl, hle', ⟨hread, fun hq => Or.inr (hquiet hq)⟩, nofun⟩
  | setex cfg =>
    simp only [h] at hnext
    rw [h] at hpc
    cases hnext
    exact ⟨rfl, hle, fun hq => (hpc.1 (hpc.2 hq)).symm, fun cfg' he => by cases he; rfl⟩
  | done result =>
    simp only [h] at hnext
    cases hnext

/-- The effect of a step is on the lock and the cache, and only a store writes to the cache. -/
theorem perform_spec {s s' : CacheSystem} {store : ℕ} {effect : RefillEffect}
    (h : s.perform store effect = some s') :
    ∃ locks cache, s' = { s with lockHeld := locks, cache := cache } ∧
      (cache = s.cache ∨ ∃ cfg, effect = .storeAndRelease cfg ∧ cache = some (some cfg.dump)) := by
  cases effect with
  | nothing =>
    obtain rfl := Option.some.inj h
    exact ⟨_, _, rfl, Or.inl rfl⟩
  | acquire =>
    simp only [CacheSystem.perform] at h
    split at h
    · cases h
    · obtain rfl := Option.some.inj h
      exact ⟨_, _, rfl, Or.inl rfl⟩
  | release =>
    obtain rfl := Option.some.inj h
    exact ⟨_, _, rfl, Or.inl rfl⟩
  | storeAndRelease cfg =>
    obtain rfl := Option.some.inj h
    exact ⟨_, _, rfl, Or.inr ⟨cfg, rfl, rfl⟩⟩

theorem forall_mem_set {α : Type} {P : α → Prop} {xs : List α} {i : ℕ} {x : α}
    (hxs : ∀ y ∈ xs, P y) (hx : P x) : ∀ y ∈ xs.set i x, P y := by
  intro y hy
  rcases List.mem_or_eq_of_mem_set hy with hy | rfl
  · exact hxs y hy
  · exact hx

theorem cacheInv_load {s s' : CacheSystem} {i : ℕ} (hinv : CacheInv V s)
    (hfresh : FreshStore s (.load i)) (hstep : s.advanceLoad V i = some s') : CacheInv V s' := by
  simp only [CacheSystem.advanceLoad, Option.bind_eq_bind, Option.bind_eq_some_iff, Option.pure_def,
    Option.some.injEq] at hstep
  obtain ⟨l, hl, ⟨l', effect⟩, hnext, s₁, hperform, rfl⟩ := hstep
  have hmem := List.mem_of_getElem? hl
  obtain ⟨hle, hpc⟩ := hinv.loads l hmem
  obtain ⟨hquiet, hle', hpc', hstore⟩ := LoadTask.next_spec hnext hle hpc
    fun hq cfg hc => hinv.cachedConfig_of_settled (hinv.quiet l hmem hq) hc
  obtain ⟨locks, cache, rfl, hcache⟩ := perform_spec hperform
  refine ⟨forall_mem_set hinv.loads ⟨hle', hpc'⟩, hinv.writes, hinv.latest, ?_,
    forall_mem_set hinv.quiet fun hq => hinv.quiet l hmem (hquiet ▸ hq)⟩
  rcases hcache with rfl | ⟨cfg, rfl, rfl⟩
  · exact hinv.cached
  · -- the store: what it stores was read late enough
    have hsetex := hstore cfg rfl
    have hv := hfresh l hl (by rw [hsetex]; rfl)
    rw [hsetex] at hpc
    intro bytes hbytes
    obtain rfl := Option.some.inj hbytes
    exact Or.inr ⟨cfg, l.readAt, rfl, hv, hle, hpc.1⟩

theorem cacheInv_write {s s' : CacheSystem} {i : ℕ} (hinv : CacheInv V s)
    (hstep : s.advanceWrite i = some s') : CacheInv V s' := by
  simp only [CacheSystem.advanceWrite, Option.bind_eq_bind, Option.bind_eq_some_iff] at hstep
  obtain ⟨w, hw, hstep⟩ := hstep
  have hmem := List.mem_of_getElem? hw
  have hlen := (List.getElem?_eq_some_iff.mp hw).1
  have hwinv := hinv.writes w hmem
  cases hpend : w.pending with
  | cons st pending =>
    rw [hpend] at hstep
    obtain rfl := Option.some.inj hstep
    have hret : w.returned = false := by
      by_contra hret
      have hnil := (hwinv.returned (by simpa using hret)).1
      rw [hpend] at hnil
      cases hnil
    have hnq : ∀ l ∈ s.loads, l.quiet = false := fun l hl => hinv.not_quiet hmem hret hl
    refine ⟨fun l hl => ?_, forall_mem_set (fun x hx => ?_) ?_,
      Or.inr ⟨i, { w with pending := pending, lastExec := s.version + 1 },
        List.getElem?_set_self hlen, rfl⟩, ?_, fun l hl hq => ?_⟩
    · have hle := (hinv.loads l hl).1
      rw [hnq l hl]
      exact ⟨hle.trans (Nat.le_succ _), PcOk.of_lt (Nat.lt_succ_of_le hle)⟩
    · have hx' := hinv.writes x hx
      exact ⟨hx'.lastExec_le.trans (Nat.le_succ _), hx'.lastExec_pos, hx'.returned⟩
    · refine ⟨le_refl _, fun _ => Nat.succ_pos _, fun h => ?_⟩
      rw [hret] at h
      cases h
    · intro bytes hbytes
      rcases hinv.cached bytes hbytes with h0 | ⟨cfg, v, hdump, hv, hv', -⟩
      · exact Or.inl h0
      · exact Or.inr ⟨cfg, v, hdump, hv, hv'.trans (Nat.le_succ _),
          fun heq => absurd heq (Nat.lt_succ_of_le hv').ne⟩
    · rw [hnq l hl] at hq
      cases hq
  | nil =>
    rw [hpend] at hstep
    cases hret : w.returned with
    | true => simp [hret] at hstep
    | false =>
      simp only [hret, Bool.false_eq_true, if_false] at hstep
      obtain rfl := Option.some.inj hstep
      have hnq : ∀ l ∈ s.loads, l.quiet = false := fun l hl => hinv.not_quiet hmem hret hl
      refine ⟨hinv.loads, forall_mem_set (fun x hx => ?_) ?_, ?_, nofun, fun l hl hq => ?_⟩
      · have hx' := hinv.writes x hx
        exact ⟨hx'.lastExec_le, hx'.lastExec_pos,
          fun h => ⟨(hx'.returned h).1, (hx'.returned h).2.trans (le_max_left _ _)⟩⟩
      · exact ⟨hwinv.lastExec_le, fun _ => hwinv.lastExec_pos hpend,
          fun _ => ⟨rfl, le_max_right _ _⟩⟩
      · rcases hinv.latest with h0 | ⟨j, w', hw', hlast⟩
        · exact Or.inl h0
        · refine Or.inr ?_
          by_cases hij : i = j
          · subst hij
            obtain rfl := Option.some.inj (hw.symm.trans hw')
            exact ⟨i, _, List.getElem?_set_self hlen, hlast⟩
          · exact ⟨j, w', (List.getElem?_set_ne hij).trans hw', hlast⟩
      · rw [hnq l hl] at hq
        cases hq

/-- **Every event keeps the invariant**, if it is no stale store. -/
theorem cacheInv_step {s s' : CacheSystem} {e : CacheEvent} (hinv : CacheInv V s)
    (hfresh : FreshStore s e) (hstep : s.step V e = some s') : CacheInv V s' := by
  cases e with
  | startLoad store force =>
    obtain rfl := Option.some.inj hstep
    refine ⟨fun l hl => ?_, hinv.writes, hinv.latest, hinv.cached, fun l hl hq => ?_⟩
    · rcases List.mem_append.mp hl with hl | hl
      · exact hinv.loads l hl
      · obtain rfl := List.mem_singleton.mp hl
        refine ⟨Nat.zero_le _, ?_⟩
        cases force <;> trivial
    · rcases List.mem_append.mp hl with hl | hl
      · exact hinv.quiet l hl hq
      · obtain rfl := List.mem_singleton.mp hl
        exact hq
  | startWrite cfg =>
    obtain rfl := Option.some.inj hstep
    refine ⟨fun l hl => ?_, fun w hw => ?_, ?_, hinv.cached, fun l hl hq => ?_⟩
    · obtain ⟨l₀, hl₀, rfl⟩ := List.mem_map.mp hl
      exact ⟨(hinv.loads l₀ hl₀).1, (hinv.loads l₀ hl₀).2.of_not_quiet⟩
    · rcases List.mem_append.mp hw with hw | hw
      · exact hinv.writes w hw
      · obtain rfl := List.mem_singleton.mp hw
        refine ⟨Nat.zero_le _, fun hnil => ?_, nofun⟩
        exact absurd (List.append_eq_nil_iff.mp hnil).2 (List.cons_ne_nil _ _)
    · rcases hinv.latest with h0 | ⟨j, w, hw, hlast⟩
      · exact Or.inl h0
      · refine Or.inr ⟨j, w, ?_, hlast⟩
        rw [List.getElem?_append_left (List.getElem?_eq_some_iff.mp hw).1, hw]
    · obtain ⟨l₀, -, rfl⟩ := List.mem_map.mp hl
      cases hq
  | load i => exact cacheInv_load hinv hfresh hstep
  | write i => exact cacheInv_write hinv hstep
  | expire =>
    obtain rfl := Option.some.inj hstep
    exact ⟨hinv.loads, hinv.writes, hinv.latest, nofun, hinv.quiet⟩

end Invariant

/-! ## 6. Which runs are coherent -/

/-- **Cache coherence.**  In every run in which no refill stores what it read before a write that
has deleted the key since, every load that starts after a write has returned, while no write runs
or starts, returns what the tables hold. -/
theorem cache_coherent (V : Json.Scalars) (db : ConfigTables) (cache : Option (Option Json))
    (es : List CacheEvent) (s : CacheSystem)
    (hrun : Runs.run (CacheSystem.step V) (.start db cache) es = some s)
    (hfresh : Runs.Along (CacheSystem.step V) FreshStore (.start db cache) es) :
    Coherent V s := by
  have hinv : CacheInv V s :=
    Runs.invariant_along FreshStore (fun _ s => CacheInv V s) (cacheInv_start db cache)
      (fun _ _ _ _ hi hf hs => cacheInv_step hi hf hs) hrun hfresh
  intro l hl result hresult hq
  have hpc := (hinv.loads l hl).2
  cases h : l.pc with
  | done result' =>
    rw [h] at hresult hpc
    obtain rfl := Option.some.inj hresult
    exact hpc hq
  | get | lock | recheck | load _ | setex _ =>
    rw [h] at hresult
    cases hresult

/-- All steps of call `i` of `load_or_refresh` before its store, when nothing is cached. -/
def refillEvents (i : ℕ) : List CacheEvent := List.replicate 6 (.load i)

/-- A whole write of a config with one tier and one provider. -/
def writeEvents : List CacheEvent := .startWrite slowConfig :: List.replicate 4 (.write 0)

/-- A write, a load that refills the cache, and one in another process that is served from it. -/
def freshEvents : List CacheEvent :=
  writeEvents ++ .startLoad 0 false :: refillEvents 0 ++ [.load 0, .startLoad 1 false, .load 1]

/-- The law, on that run. -/
theorem cache_coherent_freshEvents :
    ∃ s, Runs.run (CacheSystem.step .strict) (.start (ConfigTables.empty.write fastConfig) none)
        freshEvents = some s ∧ Coherent .strict s := by
  have hsome : (Runs.run (CacheSystem.step .strict)
      (.start (ConfigTables.empty.write fastConfig) none) freshEvents).isSome := by decide +kernel
  obtain ⟨s, hs⟩ := Option.isSome_iff_exists.mp hsome
  exact ⟨s, hs, cache_coherent .strict _ none freshEvents s hs (by decide +kernel)⟩

/-- The same calls, but the write takes place between the reads of the refill and its store. -/
def staleEvents : List CacheEvent :=
  .startLoad 0 false :: refillEvents 0 ++ writeEvents ++ [.load 0, .startLoad 1 false, .load 1]

/-- **The old config comes back after a write has returned.** -/
theorem stale_after_write :
    ∃ s, Runs.run (CacheSystem.step .strict) (.start (ConfigTables.empty.write fastConfig) none)
        staleEvents = some s ∧ ¬ Coherent .strict s := by
  have hstale : (Runs.run (CacheSystem.step .strict)
      (.start (ConfigTables.empty.write fastConfig) none) staleEvents).map
        (fun s => decide (Coherent .strict s)) = some false := by decide +kernel
  obtain ⟨s, hs, hnot⟩ := Option.map_eq_some_iff.mp hstale
  exact ⟨s, hs, of_decide_eq_false hnot⟩

end Librouter
