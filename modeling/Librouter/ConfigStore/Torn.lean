/-
# A load that overlaps a write

`load_from_db` reads the three tables one after another, `write` commits its statements one after
another, and nothing keeps the one from happening between the others.  So a load returns the
routing of one moment, the tiers of a later one and the documents of a third
(`result_of_overlap`).  `load_overlap_iff` says which interleavings give the config from before
the write or the new one: those in which nothing that is read has changed yet, and those in which
nothing that is not read yet would have changed it.
-/
import Librouter.ConfigStore.Atomicity
import Librouter.Foundations.Runs

namespace Librouter

variable {V : Json.Scalars}

/-! ## 1. Interleavings -/

/-- A write and a load under way. -/
structure Overlap where
  tables : ConfigTables
  /-- the statements the write has still to execute -/
  pending : List Statement
  load : LoadPc

/-- Who moves next. -/
inductive OverlapEvent
  | exec
  | read
deriving DecidableEq

/-- One statement of the write, or one read of the load. -/
def Overlap.step (V : Json.Scalars) (s : Overlap) : OverlapEvent → Option Overlap
  | .exec =>
    match s.pending with
    | [] => none
    | st :: pending => some { s with tables := s.tables.exec st, pending := pending }
  | .read =>
    match s.load with
    | .done _ => none
    | load => some { s with load := load.read V s.tables }

/-- The runs of a `load_from_db()` and a `write(c)` that begin on the tables `d`. -/
abbrev OverlapRun (V : Json.Scalars) (d : ConfigTables) (c : Config) (es : List OverlapEvent)
    (s : Overlap) : Prop :=
  Runs.run (Overlap.step V) ⟨d, writeStatements c, .routing⟩ es = some s

/-- How many statements were executed before read `n`. -/
def execsBefore : ℕ → List OverlapEvent → ℕ
  | _, [] => 0
  | n, .exec :: es => execsBefore n es + 1
  | 0, .read :: _ => 0
  | n + 1, .read :: es => execsBefore n es

/-- A load that reads the tables after `i`, `j` and `k` of the statements. -/
def loadAt (V : Json.Scalars) (d : ConfigTables) (ss : List Statement) (i j k : ℕ) :
    Except LoadError Config :=
  match (d.execAll (ss.take i)).fetchRoutingConfig with
  | none => .error noRoutingRow
  | some routingRow => loadRows V routingRow (d.execAll (ss.take j)).fetchTiers
      (d.execAll (ss.take k)).fetchTierModels

/-! ## 2. What a load that overlaps a write returns -/

section Positions

variable {es : List OverlapEvent} {d : ConfigTables} {ss : List Statement} {s : Overlap}
  {result : Except LoadError Config}

theorem step_exec_iff {load : LoadPc} {s : Overlap} :
    Overlap.step V ⟨d, ss, load⟩ .exec = some s ↔
      ∃ st pending, ss = st :: pending ∧ s = ⟨d.exec st, pending, load⟩ := by
  cases ss <;> simp [Overlap.step, eq_comm]

theorem result_of_done {result' : Except LoadError Config}
    (hrun : Runs.run (Overlap.step V) ⟨d, ss, .done result'⟩ es = some s)
    (hdone : s.load = .done result) : result = result' := by
  induction es generalizing d ss with
  | nil =>
    obtain rfl := Option.some.inj hrun
    exact (LoadPc.done.inj hdone).symm
  | cons e es ih =>
    obtain ⟨m, hm, hrun⟩ := Runs.run_cons_iff.mp hrun
    cases e with
    | exec =>
      obtain ⟨st, pending, rfl, rfl⟩ := step_exec_iff.mp hm
      exact ih hrun
    | read => cases hm

theorem result_of_models {row : RoutingRow} {ts : List (String × Option String)}
    (hrun : Runs.run (Overlap.step V) ⟨d, ss, .models row ts⟩ es = some s)
    (hdone : s.load = .done result) :
    result = loadRows V row ts (d.execAll (ss.take (execsBefore 0 es))).fetchTierModels := by
  induction es generalizing d ss with
  | nil =>
    obtain rfl := Option.some.inj hrun
    cases hdone
  | cons e es ih =>
    obtain ⟨m, hm, hrun⟩ := Runs.run_cons_iff.mp hrun
    cases e with
    | exec =>
      obtain ⟨st, pending, rfl, rfl⟩ := step_exec_iff.mp hm
      exact ih hrun
    | read =>
      obtain rfl := Option.some.inj hm
      exact result_of_done hrun hdone

theorem result_of_tiers {row : RoutingRow}
    (hrun : Runs.run (Overlap.step V) ⟨d, ss, .tiers row⟩ es = some s)
    (hdone : s.load = .done result) :
    result = loadRows V row (d.execAll (ss.take (execsBefore 0 es))).fetchTiers
      (d.execAll (ss.take (execsBefore 1 es))).fetchTierModels := by
  induction es generalizing d ss with
  | nil =>
    obtain rfl := Option.some.inj hrun
    cases hdone
  | cons e es ih =>
    obtain ⟨m, hm, hrun⟩ := Runs.run_cons_iff.mp hrun
    cases e with
    | exec =>
      obtain ⟨st, pending, rfl, rfl⟩ := step_exec_iff.mp hm
      exact ih hrun
    | read =>
      obtain rfl := Option.some.inj hm
      exact result_of_models hrun hdone

/-- **Each table as of its own moment.** -/
theorem result_of_overlap (hrun : Runs.run (Overlap.step V) ⟨d, ss, .routing⟩ es = some s)
    (hdone : s.load = .done result) :
    result = loadAt V d ss (execsBefore 0 es) (execsBefore 1 es) (execsBefore 2 es) := by
  induction es generalizing d ss with
  | nil =>
    obtain rfl := Option.some.inj hrun
    cases hdone
  | cons e es ih =>
    obtain ⟨m, hm, hrun⟩ := Runs.run_cons_iff.mp hrun
    cases e with
    | exec =>
      obtain ⟨st, pending, rfl, rfl⟩ := step_exec_iff.mp hm
      exact ih hrun
    | read =>
      obtain rfl := Option.some.inj hm
      unfold loadAt
      simp only [execsBefore, List.take_zero, ConfigTables.execAll_nil]
      unfold LoadPc.read at hrun
      cases hrow : d.fetchRoutingConfig with
      | none =>
        simp only [hrow] at hrun
        exact result_of_done hrun hdone
      | some row =>
        simp only [hrow] at hrun
        exact result_of_tiers hrun hdone

end Positions

/-! ## 3. Which interleavings are torn -/

section TornLoads

variable (V) (d : ConfigTables) (old c : Config) (i j k : ℕ)

/-- With reads after `i`, `j` and `k` statements: what has changed before it was read, has not
changed. -/
def SeesOld : Prop :=
  (i < (writeStatements c).length ∨ c.routing = old.routing) ∧
    Invisible V d c (executed c j) (executed c k)

/-- With reads after `i`, `j` and `k` statements: what has not changed before it was read, is what
the write would have made of it. -/
def SeesNew : Prop :=
  ((writeStatements c).length ≤ i ∨ c.routing = old.routing) ∧
    (∀ t, t ∈ c.tiers.keys ↔ t ∈ upsertedTiers (executed c j) ∨ t ∈ d.tiers.keys) ∧
    ∀ t ∈ c.tiers.keys, DistinctProviders (c.candidates t) ∧
      ∀ p, p ∉ rewrittenProviders (executed c k) →
        cell V d.tierModels t p = .ok (lastOf p (c.candidates t))

end TornLoads

section LoadAt

variable {d : ConfigTables} {old c : Config} {i j k : ℕ}

/-- The routing row is the last that is written. -/
theorem routingConfig_executed (d : ConfigTables) (c : Config) (i : ℕ) :
    (d.execAll (executed c i)).routingConfig =
      if (writeStatements c).length ≤ i then some c.routing.row else d.routingConfig := by
  split
  · rw [executed, List.take_of_length_le ‹_›]
    exact routingConfig_write d c
  · refine routingConfig_execAll_proper (List.take_prefix _ _) d fun h => ?_
    have hlen := congrArg List.length h
    rw [List.length_take] at hlen
    omega

/-- A load of a config, when it is spread over a write. -/
theorem loadAt_ok_iff (hold : loadFromDb V d = .ok old) {r : Config} :
    loadAt V d (writeStatements c) i j k = .ok r ↔
      ¬ StillUnreadable V d (executed c j) (executed c k) ∧
        r = loadedConfig V (d.execAll (executed c j)).tiers (d.execAll (executed c k)).tierModels
          (if (writeStatements c).length ≤ i then c.routing else old.routing) := by
  obtain ⟨row₀, r₀, hrow₀, hdec₀, -, rfl⟩ := loadFromDb_ok_iff.mp hold
  obtain ⟨row, hrow, hdec⟩ : ∃ row, (d.execAll (executed c i)).routingConfig = some row ∧
      row.decode = .ok (if (writeStatements c).length ≤ i then c.routing else r₀) := by
    rw [routingConfig_executed]
    split
    · exact ⟨_, rfl, row_decode _⟩
    · exact ⟨row₀, hrow₀, hdec₀⟩
  unfold loadAt ConfigTables.fetchRoutingConfig
  rw [hrow]
  refine loadRows_ok_iff.trans ?_
  rw [readable_execAll_iff (List.take_prefix _ _) (List.take_prefix _ _)]
  constructor
  · rintro ⟨hread, routing, hrouting, rfl⟩
    obtain rfl := Except.ok.inj (hdec.symm.trans hrouting)
    exact ⟨hread, rfl⟩
  · rintro ⟨hread, rfl⟩
    exact ⟨hread, _, hdec, rfl⟩

/-- When it is the config from before the write. -/
theorem sameConfig_old_iff (hold : loadFromDb V d = .ok old) :
    SameConfig (loadedConfig V (d.execAll (executed c j)).tiers
        (d.execAll (executed c k)).tierModels
        (if (writeStatements c).length ≤ i then c.routing else old.routing)) old ↔
      SeesOld V d old c i j k := by
  obtain ⟨row₀, r₀, hrow₀, hdec₀, hread, rfl⟩ := loadFromDb_ok_iff.mp hold
  rw [sameConfig_loadedConfig_iff,
    loadedConfig_execAll_eq_iff (List.take_prefix _ _) (List.take_prefix _ _) hread, SeesOld,
    and_comm]
  refine and_congr_left fun _ => ?_
  split
  · rename_i hle
    exact ⟨Or.inr, fun h => h.resolve_left hle.not_gt⟩
  · rename_i hlt
    exact iff_of_true rfl (Or.inl (not_le.mp hlt))

/-- When it is the config that was written. -/
theorem sameConfig_new_iff (hread : ¬ StillUnreadable V d (executed c j) (executed c k)) :
    SameConfig (loadedConfig V (d.execAll (executed c j)).tiers
        (d.execAll (executed c k)).tierModels
        (if (writeStatements c).length ≤ i then c.routing else old.routing)) c ↔
      SeesNew V d old c i j k := by
  have hj : executed c j <+: writeStatements c := List.take_prefix _ _
  have hk : executed c k <+: writeStatements c := List.take_prefix _ _
  rw [sameConfig_loaded_iff, SeesNew]
  simp only [mem_tiers_execAll hj, cell_execAll hk]
  constructor
  · rintro ⟨hkeys, hcells, hrouting⟩
    refine ⟨?_, fun t => (hkeys t).symm, fun t ht => ?_⟩
    · split at hrouting
      · exact Or.inl ‹_›
      · exact Or.inr hrouting.symm
    · obtain ⟨hd, hcell⟩ := hcells t ((hkeys t).mpr ht)
      refine ⟨hd, fun p hp => ?_⟩
      obtain ⟨x, hx⟩ : ∃ x, cell V d.tierModels t p = .ok x := by
        by_contra hnot
        exact hread ⟨t, (hkeys t).mpr ht, p, hp, not_exists.mp hnot⟩
      have hp' := hcell p
      rw [if_neg hp, hx] at hp'
      rw [hx]
      exact congrArg Except.ok hp'
  · rintro ⟨hrouting, hkeys, hcells⟩
    refine ⟨fun t => (hkeys t).symm, fun t ht => ?_, ?_⟩
    · obtain ⟨hd, hcell⟩ := hcells t ((hkeys t).mpr ht)
      refine ⟨hd, fun p => ?_⟩
      split
      · rfl
      · rw [hcell p ‹_›]
        rfl
    · split
      · rfl
      · rename_i hlt
        exact (hrouting.resolve_left hlt).symm

end LoadAt

/-- **Torn loads.**  A load that overlaps a write returns the config from before the write or the
new one iff what it reads before the write changes it is the new content already, or what it
reads afterwards is the old content still, or it raises over a document. -/
theorem load_overlap_iff (V : Json.Scalars) (d : ConfigTables) (old c : Config)
    (es : List OverlapEvent) (s : Overlap) (result : Except LoadError Config)
    (hold : loadFromDb V d = .ok old) (hrun : OverlapRun V d c es s)
    (hdone : s.load = .done result) :
    (∀ r, result = .ok r → SameConfig r old ∨ SameConfig r c) ↔
      SeesOld V d old c (execsBefore 0 es) (execsBefore 1 es) (execsBefore 2 es) ∨
        SeesNew V d old c (execsBefore 0 es) (execsBefore 1 es) (execsBefore 2 es) ∨
        StillUnreadable V d (executed c (execsBefore 1 es)) (executed c (execsBefore 2 es)) := by
  obtain rfl := result_of_overlap hrun hdone
  by_cases hstill : StillUnreadable V d (executed c (execsBefore 1 es))
      (executed c (execsBefore 2 es))
  · refine iff_of_true (fun r hr => ?_) (Or.inr (Or.inr hstill))
    exact absurd hstill ((loadAt_ok_iff hold).mp hr).1
  · constructor
    · intro h
      rcases h _ ((loadAt_ok_iff hold).mpr ⟨hstill, rfl⟩) with hsame | hsame
      · exact Or.inl ((sameConfig_old_iff hold).mp hsame)
      · exact Or.inr (Or.inl ((sameConfig_new_iff hstill).mp hsame))
    · intro h r hr
      obtain ⟨-, rfl⟩ := (loadAt_ok_iff hold).mp hr
      rcases h with hold' | hnew | hstill'
      · exact Or.inl ((sameConfig_old_iff hold).mpr hold')
      · exact Or.inr ((sameConfig_new_iff hstill).mpr hnew)
      · exact absurd hstill' hstill

/-! ## 4. A torn load -/

theorem result_eq_some_iff {load : LoadPc} {result : Except LoadError Config} :
    load.result = some result ↔ load = .done result := by
  cases load <;> simp [LoadPc.result]

/-- The routing row is read before the write, tiers and documents after it. -/
def tornEvents : List OverlapEvent := [.read, .exec, .exec, .exec, .read, .read]

/-- The new model with the old refresh. -/
def tornConfig : Config := sampleConfig "fast" [sampleEntry "openai" "gpt-4o"]

theorem exists_tornRun : ∃ s,
    OverlapRun .strict (ConfigTables.empty.write fastConfig) slowConfig tornEvents s ∧
      s.load = .done (.ok tornConfig) := by
  have hrun : (Runs.run (Overlap.step .strict)
      ⟨ConfigTables.empty.write fastConfig, writeStatements slowConfig, .routing⟩ tornEvents).bind
        (fun s => s.load.result) = some (.ok tornConfig) := by decide +kernel
  obtain ⟨s, hs, hresult⟩ := Option.bind_eq_some_iff.mp hrun
  exact ⟨s, hs, result_eq_some_iff.mp hresult⟩

theorem loadFromDb_fastConfig :
    loadFromDb .strict (ConfigTables.empty.write fastConfig) = .ok fastConfig := by
  decide +kernel

/-- The condition, for this interleaving. -/
theorem load_overlap_iff_torn :
    ∃ s, OverlapRun .strict (ConfigTables.empty.write fastConfig) slowConfig tornEvents s ∧
      ((∀ r, (Except.ok tornConfig : Except LoadError Config) = .ok r →
          SameConfig r fastConfig ∨ SameConfig r slowConfig) ↔
        SeesOld .strict (ConfigTables.empty.write fastConfig) fastConfig slowConfig 0 3 3 ∨
          SeesNew .strict (ConfigTables.empty.write fastConfig) fastConfig slowConfig 0 3 3 ∨
          StillUnreadable .strict (ConfigTables.empty.write fastConfig) (executed slowConfig 3)
            (executed slowConfig 3)) := by
  obtain ⟨s, hrun, hdone⟩ := exists_tornRun
  exact ⟨s, hrun, load_overlap_iff .strict _ fastConfig slowConfig tornEvents s (.ok tornConfig)
    loadFromDb_fastConfig hrun hdone⟩

/-- **A load can be torn**: here it returns the new candidates with the old routing. -/
theorem torn_load :
    loadFromDb .strict (ConfigTables.empty.write fastConfig) = .ok fastConfig ∧
      ∃ s, OverlapRun .strict (ConfigTables.empty.write fastConfig) slowConfig tornEvents s ∧
        s.load = .done (.ok tornConfig) ∧
        ¬ (SameConfig tornConfig fastConfig ∨ SameConfig tornConfig slowConfig) := by
  refine ⟨loadFromDb_fastConfig, ?_⟩
  obtain ⟨s, hrun, hdone⟩ := exists_tornRun
  refine ⟨s, hrun, hdone, ?_⟩
  rintro (hsame | hsame)
  · have hcands := (hsame.candidates "fast").mem_iff (a := sampleEntry "openai" "gpt-4o")
    exact absurd hcands (by decide)
  · exact absurd hsame.routing (by decide)

end Librouter
