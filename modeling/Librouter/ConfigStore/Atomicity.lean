/-
# A write that fails half way

`write` says it persists a config atomically, `_write_to_db` that it writes in a single
transaction.  But every statement goes through its own connection and is committed by itself, so
an exception leaves the statements before it in place.  `write_atomic_iff` says at which failures
a load cannot tell: the write had changed nothing that a load reads, or the tables could not be
loaded before and still cannot.
-/
import Librouter.ConfigStore.RoundTrip

namespace Librouter

/-! ## 1. `write`, with exceptions -/

section Write

variable {E : Type}

/-- Statements one after another, until one raises.  `raises i` is the exception of statement `i`,
which then has no effect. -/
def execUntil (d : ConfigTables) (ss : List Statement) (raises : ℕ → Option E) :
    ConfigTables × Except E Unit :=
  match ss with
  | [] => (d, .ok ())
  | s :: ss =>
    match raises 0 with
    | some e => (d, .error e)
    | none => execUntil (d.exec s) ss fun i => raises (i + 1)

/-- How a `write` ended. -/
structure WriteOutcome (E : Type) where
  tables : ConfigTables
  /-- `delete(_REDIS_KEY)` was reached -/
  cacheDeleted : Bool
  result : Except E Unit

/-- `ConfigStore.write`. -/
def write (d : ConfigTables) (cfg : Config) (raises : ℕ → Option E) : WriteOutcome E :=
  match execUntil d (writeStatements cfg) raises with
  | (d', .ok ()) => ⟨d', true, .ok ()⟩
  | (d', .error e) => ⟨d', false, .error e⟩

/-- The statements a write has executed before its statement `k`. -/
abbrev executed (c : Config) (k : ℕ) : List Statement := (writeStatements c).take k

theorem execUntil_of_first {e : E} : ∀ {k : ℕ} {ss : List Statement} {d : ConfigTables}
    {raises : ℕ → Option E}, k < ss.length → raises k = some e → (∀ i < k, raises i = none) →
      execUntil d ss raises = (d.execAll (ss.take k), .error e)
  | _, [], _, _, hk, _, _ => absurd hk (Nat.not_lt_zero _)
  | 0, s :: ss, d, raises, _, he, _ => by
    rw [execUntil, he]
    rfl
  | k + 1, s :: ss, d, raises, hk, he, hfirst => by
    rw [execUntil, hfirst 0 (Nat.succ_pos k)]
    exact execUntil_of_first (Nat.lt_of_succ_lt_succ hk) he
      fun i hi => hfirst (i + 1) (Nat.succ_lt_succ hi)

/-- A write whose statement `k` is the first to raise. -/
theorem write_of_first {d : ConfigTables} {c : Config} {raises : ℕ → Option E} {k : ℕ} {e : E}
    (hk : k < (writeStatements c).length) (he : raises k = some e)
    (hfirst : ∀ i < k, raises i = none) :
    write d c raises = ⟨d.execAll (executed c k), false, .error e⟩ := by
  rw [write, execUntil_of_first hk he hfirst]

end Write

/-! ## 2. What a load can tell -/

section Visible

variable (V : Json.Scalars) (d : ConfigTables)

/-- The routing row is missing or out of bounds. -/
def NoRouting : Prop := ∀ row r, d.routingConfig = some row → row.decode ≠ .ok r

/-- A load that reads the tiers after the statements `preT` of a write of `c`, and the documents
after the statements `preM`, reads what was there before: the upserted tiers were, and the
replaced documents said the same of every listed tier. -/
def Invisible (c : Config) (preT preM : List Statement) : Prop :=
  (∀ t ∈ upsertedTiers preT, t ∈ d.tiers.keys) ∧
    ∀ t ∈ d.tiers.keys, ∀ p ∈ rewrittenProviders preM,
      cell V d.tierModels t p = .ok (lastOf p (c.candidates t))

/-- A document that the statements `preM` have not replaced cannot be read for a tier that is
listed after the statements `preT`. -/
def StillUnreadable (preT preM : List Statement) : Prop :=
  ∃ t, (t ∈ upsertedTiers preT ∨ t ∈ d.tiers.keys) ∧
    ∃ p, p ∉ rewrittenProviders preM ∧ ∀ r, cell V d.tierModels t p ≠ .ok r

variable {V d} {c : Config} {preT preM : List Statement}

theorem readable_execAll_iff (hT : preT <+: writeStatements c) (hM : preM <+: writeStatements c) :
    Readable V (d.execAll preT).tiers.keys (d.execAll preM).tierModels ↔
      ¬ StillUnreadable V d preT preM := by
  unfold Readable StillUnreadable
  simp only [mem_tiers_execAll hT, cell_execAll hM]
  push Not
  refine forall₂_congr fun t _ => forall_congr' fun p => ?_
  constructor
  · intro hr hp
    rwa [if_neg hp] at hr
  · intro hr
    split
    · exact ⟨_, rfl⟩
    · exact hr ‹_›

/-- With a routing config, a load returns what can be read or raises. -/
theorem loadFromDb_of_routing {row : RoutingRow} {r : RoutingConfig}
    (hrow : d.routingConfig = some row) (hdec : row.decode = .ok r) :
    (Readable V d.tiers.keys d.tierModels →
        loadFromDb V d = .ok (loadedConfig V d.tiers d.tierModels r)) ∧
      (¬ Readable V d.tiers.keys d.tierModels → loadFromDb V d = .error .malformed) := by
  refine ⟨fun hread => loadFromDb_ok_iff.mpr ⟨row, r, hrow, hdec, hread, rfl⟩, fun hread => ?_⟩
  cases hload : loadFromDb V d with
  | ok cfg =>
    obtain ⟨_, _, _, _, hread', _⟩ := loadFromDb_ok_iff.mp hload
    exact absurd hread' hread
  | error err =>
    rw [loadFromDb, ConfigTables.fetchRoutingConfig, hrow] at hload
    rw [loadRows_error hload]

/-- Without one it raises, whatever the other tables hold. -/
theorem loadFromDb_of_noRouting {d' : ConfigTables} (h : NoRouting d)
    (hd : d'.routingConfig = d.routingConfig) : loadFromDb V d' = loadFromDb V d := by
  unfold loadFromDb ConfigTables.fetchRoutingConfig
  rw [hd]
  cases hrow : d.routingConfig with
  | none => rfl
  | some row =>
    have herr : ∀ x : ConfigTables, loadRows V row x.tiers.rows x.tierModels.rows
        = .error .malformed := fun x => by
      cases hload : loadRows V row x.tiers.rows x.tierModels.rows with
      | ok cfg =>
        obtain ⟨-, r, hdec, -⟩ := loadRows_ok_iff.mp hload
        exact absurd hdec (h row r hrow)
      | error err => rw [loadRows_error hload]
    exact (herr d').trans (herr d).symm

/-- A load during the write equals one before it iff what it reads is invisible. -/
theorem loadedConfig_execAll_eq_iff {r r' : RoutingConfig} (hT : preT <+: writeStatements c)
    (hM : preM <+: writeStatements c) (hread : Readable V d.tiers.keys d.tierModels) :
    loadedConfig V (d.execAll preT).tiers (d.execAll preM).tierModels r'
        = loadedConfig V d.tiers d.tierModels r ↔ Invisible V d c preT preM ∧ r' = r := by
  rw [loadedConfig_eq_iff]
  constructor
  · rintro ⟨hkeys, htables, hr⟩
    have htiers : ∀ t ∈ upsertedTiers preT, t ∈ d.tiers.keys := fun t ht =>
      hkeys ▸ (mem_tiers_execAll hT d).mpr (Or.inl ht)
    refine ⟨⟨htiers, fun t ht p hp => ?_⟩, hr⟩
    have hcell := tierTable_ext.mp (htables t (hkeys ▸ ht)) p
    rw [cell_execAll hM, if_pos hp] at hcell
    obtain ⟨x, hx⟩ := hread t ht p
    rw [hx] at hcell ⊢
    exact congrArg Except.ok hcell.symm
  · rintro ⟨⟨htiers, hcells⟩, hr⟩
    have hkeys : (d.execAll preT).tiers.keys = d.tiers.keys := Table.keys_eq_iff.mpr fun t => by
      rw [mem_tiers_execAll hT]
      exact ⟨fun ht => ht.elim (htiers t) id, Or.inr⟩
    refine ⟨hkeys, fun t ht => tierTable_ext.mpr fun p => ?_, hr⟩
    rw [cell_execAll hM]
    split
    · rw [hcells t (hkeys ▸ ht) p ‹_›]
    · rfl

/-- An invisible change leaves readable what was readable. -/
theorem readable_iff_of_invisible (h : Invisible V d c preT preM) :
    Readable V d.tiers.keys d.tierModels ↔ ¬ StillUnreadable V d preT preM := by
  unfold Readable StillUnreadable
  push Not
  constructor
  · intro hread t ht p _
    exact hread t (ht.elim (h.1 t) id) p
  · intro hnot t ht p
    by_cases hp : p ∈ rewrittenProviders preM
    · exact ⟨_, h.2 t ht p hp⟩
    · exact hnot t (Or.inr ht) p hp

end Visible

/-! ## 3. At which failures a write is atomic -/

/-- **Atomicity.**  Let statement `k` of a write be the first to raise.  The exception reaches the
caller; and a load returns what it returned before iff the statements that were executed are
invisible, or there is no routing config, or documents could not be read before and still
cannot. -/
theorem write_atomic_iff {E : Type} (V : Json.Scalars) (d : ConfigTables) (c : Config)
    (raises : ℕ → Option E) (k : ℕ) (e : E) (hk : k < (writeStatements c).length)
    (he : raises k = some e) (hfirst : ∀ i < k, raises i = none) :
    (write d c raises).result = .error e ∧
        loadFromDb V (write d c raises).tables = loadFromDb V d ↔
      Invisible V d c (executed c k) (executed c k) ∨ NoRouting d ∨
        ¬ Readable V d.tiers.keys d.tierModels ∧
          StillUnreadable V d (executed c k) (executed c k) := by
  have hpre : executed c k <+: writeStatements c := List.take_prefix _ _
  have hproper : executed c k ≠ writeStatements c := fun h => by
    have hlen := congrArg List.length h
    rw [List.length_take] at hlen
    omega
  have hrouting := routingConfig_execAll_proper hpre d hproper
  rw [write_of_first hk he hfirst]
  simp only [true_and]
  by_cases hno : NoRouting d
  · exact iff_of_true (loadFromDb_of_noRouting hno hrouting) (Or.inr (Or.inl hno))
  · obtain ⟨row, r, hrow, hdec⟩ : ∃ row r, d.routingConfig = some row ∧ row.decode = .ok r := by
      unfold NoRouting at hno
      push Not at hno
      exact hno
    obtain ⟨hok, herr⟩ := loadFromDb_of_routing (V := V) hrow hdec
    obtain ⟨hok', herr'⟩ := loadFromDb_of_routing (V := V) (hrouting.trans hrow) hdec
    rw [readable_execAll_iff hpre hpre] at hok' herr'
    by_cases hread : Readable V d.tiers.keys d.tierModels
    · by_cases hstill : StillUnreadable V d (executed c k) (executed c k)
      · rw [herr' (not_not.mpr hstill), hok hread]
        refine iff_of_false nofun ?_
        rintro (hinv | hno' | ⟨hnot, -⟩)
        · exact (readable_iff_of_invisible hinv).mp hread hstill
        · exact hno hno'
        · exact hnot hread
      · rw [hok' hstill, hok hread, Except.ok.injEq, loadedConfig_execAll_eq_iff hpre hpre hread]
        constructor
        · exact fun h => Or.inl h.1
        · rintro (hinv | hno' | ⟨hnot, -⟩)
          · exact ⟨hinv, rfl⟩
          · exact absurd hno' hno
          · exact absurd hread hnot
    · by_cases hstill : StillUnreadable V d (executed c k) (executed c k)
      · rw [herr' (not_not.mpr hstill), herr hread]
        exact iff_of_true rfl (Or.inr (Or.inr ⟨hread, hstill⟩))
      · rw [hok' hstill, herr hread]
        refine iff_of_false nofun ?_
        rintro (hinv | hno' | ⟨-, hs⟩)
        · exact hread ((readable_iff_of_invisible hinv).mpr hstill)
        · exact hno hno'
        · exact hstill hs

/-- The second statement of a write raises. -/
def secondRaises : ℕ → Option String := fun i => if i = 1 then some "connection lost" else none

/-- The condition, for a write of the other tier that stops after its first statement. -/
theorem write_atomic_iff_secondRaises :
    (write (ConfigTables.empty.write fastConfig) smartConfig secondRaises).result
          = .error "connection lost" ∧
        loadFromDb .strict
            (write (ConfigTables.empty.write fastConfig) smartConfig secondRaises).tables
          = loadFromDb .strict (ConfigTables.empty.write fastConfig) ↔
      Invisible .strict (ConfigTables.empty.write fastConfig) smartConfig (executed smartConfig 1)
          (executed smartConfig 1) ∨
        NoRouting (ConfigTables.empty.write fastConfig) ∨
        ¬ Readable .strict (ConfigTables.empty.write fastConfig).tiers.keys
              (ConfigTables.empty.write fastConfig).tierModels ∧
          StillUnreadable .strict (ConfigTables.empty.write fastConfig)
            (executed smartConfig 1) (executed smartConfig 1) :=
  write_atomic_iff .strict (ConfigTables.empty.write fastConfig) smartConfig secondRaises 1
    "connection lost" (by decide) rfl (by decide)

/-- **A failed write leaves half of its config behind**: a tier without candidates. -/
theorem failed_write_visible :
    ¬ ((write (ConfigTables.empty.write fastConfig) smartConfig secondRaises).result
          = .error "connection lost" ∧
        loadFromDb .strict
            (write (ConfigTables.empty.write fastConfig) smartConfig secondRaises).tables
          = loadFromDb .strict (ConfigTables.empty.write fastConfig)) := by
  decide +kernel

end Librouter
