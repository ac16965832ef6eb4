/-
# `db.py`: `run_migrations`

The files in `migrations/` are executed one after another in one transaction, under an advisory
lock.  `scripts/apply_migrations.py`, `scripts/seed_config.py` and the tests call it whenever they
like; at a rollout, several releases do so at once, each with the files of its own.

Every statement is of the kind `... IF NOT EXISTS`, so it settles (`settling_exec`), and the lock
puts the runs in an order (`Transactions`).  Hence `migrations_safe`: whoever runs, fails or loses
its connection, the catalog is that of the newest release that has committed, nothing is ever
dropped, and the statements of `Database` work exactly once the last of the files is in.
-/
import Librouter.Foundations.Transactions
import Librouter.Foundations.Dict

namespace Librouter

open Transactions

/-! ## 1. The catalog -/

/-- A column of a `CREATE TABLE`. -/
structure Column where
  name : String
  type : String
  notNull : Bool := false
  default : Option String := none
  primaryKey : Bool := false
deriving DecidableEq

/-- An `INSERT` has to give it a value. -/
def Column.required (c : Column) : Bool := (c.notNull || c.primaryKey) && c.default.isNone

/-- What a name stands for. -/
inductive Relation
  | table (columns : List Column)
  /-- with the columns, and whether each is descending -/
  | index (table : String) (columns : List (String × Bool))
deriving DecidableEq

/-- The relations of the schema. -/
abbrev Catalog := Dict String Relation

/-- The statements of the migrations. -/
inductive Ddl
  /-- `CREATE TABLE IF NOT EXISTS` -/
  | createTable (name : String) (columns : List Column)
  /-- `CREATE INDEX IF NOT EXISTS` -/
  | createIndex (name table : String) (columns : List (String × Bool))
  /-- `ALTER TABLE ... ADD COLUMN IF NOT EXISTS` -/
  | addColumn (table : String) (column : Column)
deriving DecidableEq

namespace Catalog

/-- The columns of a table. -/
def columns? (c : Catalog) (table : String) : Option (List Column) :=
  match c.get? table with
  | some (.table columns) => some columns
  | _ => none

/-- One statement; `none` if the table or a column is not there. -/
def exec (c : Catalog) : Ddl → Option Catalog
  | .createTable name columns =>
    some (if (c.get? name).isSome then c else c.set name (.table columns))
  | .createIndex name table columns => (c.columns? table).bind fun cols =>
    if columns.map Prod.fst ⊆ cols.map Column.name then
      some (if (c.get? name).isSome then c else c.set name (.index table columns))
    else none
  | .addColumn table column => (c.columns? table).map fun cols =>
    if column.name ∈ cols.map Column.name then c
    else c.set table (.table (cols ++ [column]))

end Catalog

/-! ## 2. The migrations -/

/-- A file in `migrations/`. -/
structure Migration where
  name : String
  statements : List Ddl
deriving DecidableEq

/-- `conn.execute(sql)` for a file. -/
def Catalog.apply (c : Catalog) (m : Migration) : Option Catalog := execAll exec c m.statements

def migration0001 : Migration where
  name := "0001_init.sql"
  statements :=
    [.createTable "requests"
      [{ name := "id", type := "BIGSERIAL", default := some "nextval", primaryKey := true },
        { name := "request_id", type := "TEXT", notNull := true },
        { name := "caller", type := "TEXT", notNull := true },
        { name := "tier", type := "TEXT", notNull := true },
        { name := "provider", type := "TEXT", notNull := true },
        { name := "model", type := "TEXT", notNull := true },
        { name := "attempt_idx", type := "SMALLINT", notNull := true },
        { name := "input_tokens", type := "INTEGER", notNull := true, default := some "0" },
        { name := "output_tokens", type := "INTEGER", notNull := true, default := some "0" },
        { name := "cost_usd", type := "NUMERIC(12,6)", notNull := true, default := some "0" },
        { name := "latency_ms", type := "INTEGER", notNull := true },
        { name := "status", type := "TEXT", notNull := true },
        { name := "vendor_req_id", type := "TEXT" },
        { name := "ts", type := "TIMESTAMPTZ", notNull := true, default := some "NOW()" }],
      .createIndex "requests_caller_ts_idx" "requests" [("caller", false), ("ts", true)],
      .createIndex "requests_ts_idx" "requests" [("ts", true)],
      .createTable "callers"
        [{ name := "name", type := "TEXT", primaryKey := true },
          { name := "key_hash", type := "TEXT", notNull := true },
          { name := "daily_token_cap", type := "BIGINT" },
          { name := "enabled", type := "BOOLEAN", notNull := true, default := some "TRUE" }]]

def migration0002 : Migration where
  name := "0002_client_trace_id.sql"
  statements := [.addColumn "requests" { name := "client_trace_id", type := "TEXT" }]

def migration0003 : Migration where
  name := "0003_gateway_config.sql"
  statements :=
    [.createTable "tiers"
      [{ name := "name", type := "TEXT", primaryKey := true },
        { name := "fallback_tier", type := "TEXT" }],
      .createTable "tier_models"
        [{ name := "provider", type := "TEXT", primaryKey := true },
          { name := "config", type := "JSONB", notNull := true }],
      .createTable "routing_config"
        [{ name := "id", type := "INT CHECK (id = 1)", default := some "1", primaryKey := true },
          { name := "refresh_interval_ms", type := "INT", notNull := true, default := some "1000" },
          { name := "health_window_s", type := "INT", notNull := true, default := some "60" },
          { name := "target_latency_s", type := "NUMERIC", notNull := true, default := some "3.0" },
          { name := "min_weight_floor", type := "NUMERIC", notNull := true,
            default := some "0.02" },
          { name := "rng_seed_env", type := "TEXT" }]]

/-- The files of this release; an older one has the first of them. -/
def migrations : List Migration := [migration0001, migration0002, migration0003]

/-- What `run_migrations` executes when the directory lists `files`, in whatever order; an empty
directory is a `RuntimeError`. -/
def migrationProgram (files : List Migration) : Option (List Migration) :=
  if files = [] then none
  else some (files.mergeSort fun m m' => decide (m.name ≤ m'.name))

/-! ## 3. What `Database` needs -/

/-- The tables and columns of a statement of `Database`. -/
inductive Query
  /-- `INSERT`, and the column of its `ON CONFLICT` -/
  | insert (table : String) (columns : List String) (conflict : Option String)
  | select (table : String) (columns : List String)

def Query.table : Query → String
  | .insert table _ _ => table
  | .select table _ => table

/-- The statement finds its table, its columns and its key, and leaves out no required column. -/
def Catalog.runs (c : Catalog) : Query → Bool
  | .insert table columns conflict =>
    match c.columns? table with
    | none => false
    | some cols => decide (columns ⊆ cols.map Column.name) &&
        cols.all (fun col => !col.required || decide (col.name ∈ columns)) &&
        conflict.all fun key => cols.any fun col => decide (col.name = key) && col.primaryKey
  | .select table columns =>
    match c.columns? table with
    | none => false
    | some cols => decide (columns ⊆ cols.map Column.name)

/-- The statements of `db.py`, and the count of the callers at boot. -/
def databaseQueries : List Query :=
  [ -- write_batch
    .insert "requests" ["request_id", "caller", "tier", "provider", "model", "attempt_idx",
      "input_tokens", "output_tokens", "cost_usd", "latency_ms", "status", "vendor_req_id",
      "client_trace_id"] none,
    -- upsert_caller
    .insert "callers" ["name", "key_hash", "daily_token_cap", "enabled"] (some "name"),
    -- caller_by_key_hash
    .select "callers" ["name", "daily_token_cap", "enabled", "key_hash"],
    -- caller_tokens_used_today
    .select "requests" ["input_tokens", "output_tokens", "caller", "ts"],
    -- fetch_tiers, upsert_tier
    .select "tiers" ["name", "fallback_tier"],
    .insert "tiers" ["name", "fallback_tier"] (some "name"),
    -- fetch_tier_models, upsert_tier_models
    .select "tier_models" ["provider", "config"],
    .insert "tier_models" ["provider", "config"] (some "provider"),
    -- fetch_routing_config, upsert_routing_config
    .select "routing_config" ["refresh_interval_ms", "health_window_s", "target_latency_s",
      "min_weight_floor", "rng_seed_env", "id"],
    .insert "routing_config" ["id", "refresh_interval_ms", "health_window_s", "target_latency_s",
      "min_weight_floor", "rng_seed_env"] (some "id"),
    -- usage_summary
    .select "requests" ["caller", "provider", "model", "input_tokens", "output_tokens", "cost_usd",
      "ts"],
    -- lifespan
    .select "callers" []]

/-- The gateway can work on the catalog. -/
def Catalog.Serves (c : Catalog) : Prop := ∀ q ∈ databaseQueries, c.runs q = true

instance (c : Catalog) : Decidable c.Serves :=
  inferInstanceAs (Decidable (∀ q ∈ databaseQueries, _))

/-! ## 4. The statements settle -/

/-- Nothing is dropped. -/
structure Catalog.Grows (c c' : Catalog) : Prop where
  names : ∀ name, (c.get? name).isSome = true → (c'.get? name).isSome = true
  columns : ∀ table cols, c.columns? table = some cols →
    ∃ cols', c'.columns? table = some cols' ∧ cols <+: cols'

/-- The statement has nothing to do. -/
def Catalog.Done (c : Catalog) : Ddl → Prop
  | .createTable name _ => (c.get? name).isSome = true
  | .createIndex name table columns => (c.get? name).isSome = true ∧
    ∃ cols, c.columns? table = some cols ∧ columns.map Prod.fst ⊆ cols.map Column.name
  | .addColumn table column =>
    ∃ cols, c.columns? table = some cols ∧ column.name ∈ cols.map Column.name

namespace Catalog

variable {c c' c'' : Catalog} {d : Ddl}

theorem columns?_set (c : Catalog) (name : String) (rel : Relation) (table : String) :
    columns? (c.set name rel) table = if table = name then
      match rel with
      | .table columns => some columns
      | .index _ _ => none
    else c.columns? table := by
  unfold columns?
  rw [Dict.get?_set]
  by_cases h : table = name
  · rw [if_pos h, if_pos h]
    cases rel <;> rfl
  · rw [if_neg h, if_neg h]

theorem isSome_of_columns? {table : String} {cols : List Column}
    (h : c.columns? table = some cols) : (c.get? table).isSome = true := by
  unfold columns? at h
  split at h
  · rename_i hget
    rw [hget]
    rfl
  · cases h

theorem Grows.refl (c : Catalog) : c.Grows c :=
  ⟨fun _ h => h, fun _ cols h => ⟨cols, h, List.prefix_rfl⟩⟩

theorem Grows.trans (h : c.Grows c') (h' : c'.Grows c'') : c.Grows c'' := by
  refine ⟨fun name hname => h'.names name (h.names name hname), fun table cols hcols => ?_⟩
  obtain ⟨cols', hcols', hle⟩ := h.columns table cols hcols
  obtain ⟨cols'', hcols'', hle'⟩ := h'.columns table cols' hcols'
  exact ⟨cols'', hcols'', hle.trans hle'⟩

/-- A new relation. -/
theorem grows_set {name : String} (hnew : c.get? name = none) (rel : Relation) :
    c.Grows (c.set name rel) := by
  have hne : ∀ other, (c.get? other).isSome = true → other ≠ name := by
    rintro other hother rfl
    rw [hnew] at hother
    cases hother
  refine ⟨fun other hother => ?_, fun table cols hcols => ⟨cols, ?_, List.prefix_rfl⟩⟩
  · rw [Dict.get?_set_ne c rel (hne other hother)]
    exact hother
  · rw [columns?_set, if_neg (hne table (isSome_of_columns? hcols))]
    exact hcols

/-- A longer table. -/
theorem grows_set_table {name : String} {cols : List Column} (hcols : c.columns? name = some cols)
    (column : Column) : c.Grows (c.set name (.table (cols ++ [column]))) := by
  constructor
  · intro other hother
    rw [Dict.get?_set]
    split
    · rfl
    · exact hother
  · intro table cols' hcols'
    rw [columns?_set]
    by_cases htable : table = name
    · subst htable
      rw [hcols] at hcols'
      cases hcols'
      exact ⟨cols ++ [column], if_pos rfl, List.prefix_append _ _⟩
    · exact ⟨cols', (if_neg htable).trans hcols', List.prefix_rfl⟩

/-- **A statement**: nothing is dropped, and then it has nothing more to do. -/
theorem exec_spec (h : c.exec d = some c') : c.Grows c' ∧ c'.Done d := by
  cases d with
  | createTable name columns =>
    obtain rfl := Option.some.inj h
    split
    · exact ⟨.refl c, ‹_›⟩
    · rename_i hnew
      have hnone : c.get? name = none := by simpa using hnew
      refine ⟨grows_set hnone _, ?_⟩
      rw [Done, Dict.get?_set_self]
      rfl
  | createIndex name table columns =>
    obtain ⟨cols, hcols, h⟩ := Option.bind_eq_some_iff.mp h
    obtain ⟨hsub, h⟩ := Option.ite_none_right_eq_some.mp h
    obtain rfl := Option.some.inj h
    split
    · exact ⟨.refl c, ‹_›, cols, hcols, hsub⟩
    · rename_i hnew
      have hnone : c.get? name = none := by simpa using hnew
      have hgrows := grows_set hnone (.index table columns)
      obtain ⟨cols', hcols', hle⟩ := hgrows.columns table cols hcols
      refine ⟨hgrows, ?_, cols', hcols', List.Subset.trans hsub (List.map_subset _ hle.subset)⟩
      rw [Dict.get?_set_self]
      rfl
  | addColumn table column =>
    obtain ⟨cols, hcols, rfl⟩ := Option.map_eq_some_iff.mp h
    split
    · exact ⟨.refl c, cols, hcols, ‹_›⟩
    · refine ⟨grows_set_table hcols column, cols ++ [column], ?_, by simp⟩
      rw [columns?_set, if_pos rfl]

theorem Done.mono (h : c.Done d) (hgrows : c.Grows c') : c'.Done d := by
  have hcolumns : ∀ (table : String) (names : List String), (∃ cols, c.columns? table = some cols ∧
      names ⊆ cols.map Column.name) → ∃ cols, c'.columns? table = some cols ∧
        names ⊆ cols.map Column.name := by
    rintro table names ⟨cols, hcols, hsub⟩
    obtain ⟨cols', hcols', hle⟩ := hgrows.columns table cols hcols
    exact ⟨cols', hcols', List.Subset.trans hsub (List.map_subset _ hle.subset)⟩
  cases d with
  | createTable name columns => exact hgrows.names name h
  | createIndex name table columns => exact ⟨hgrows.names name h.1, hcolumns table _ h.2⟩
  | addColumn table column =>
    obtain ⟨cols, hcols, hmem⟩ := h
    obtain ⟨cols', hcols', hsub⟩ := hcolumns table [column.name]
      ⟨cols, hcols, by simpa using hmem⟩
    exact ⟨cols', hcols', by simpa using hsub⟩

theorem exec_of_done (h : c.Done d) : c.exec d = some c := by
  cases d with
  | createTable name columns =>
    have hname : (c.get? name).isSome = true := h
    simp [exec, hname]
  | createIndex name table columns =>
    obtain ⟨hname, cols, hcols, hsub⟩ := h
    simp [exec, hname, hcols, hsub]
  | addColumn table column =>
    obtain ⟨cols, hcols, hmem⟩ := h
    rw [exec, hcols, Option.map_some, if_pos hmem]

end Catalog

/-- **Every statement of the migrations settles.** -/
theorem settling_exec : Settling Catalog.exec where
  settles _ _ _ h := Catalog.exec_of_done (Catalog.exec_spec h).2
  stays _ _ _ _ ha hb :=
    Catalog.exec_of_done ((Catalog.exec_spec ha).2.mono (Catalog.exec_spec hb).1)

/-- So does every file. -/
theorem settling_apply : Settling Catalog.apply := settling_exec.blocks Migration.statements

theorem Catalog.grows_of_execAll {c c' : Catalog} {p : List Ddl} (h : execAll exec c p = some c') :
    c.Grows c' := by
  induction p generalizing c with
  | nil =>
    obtain rfl : c = c' := by simpa using h
    exact .refl c
  | cons d p ih =>
    obtain ⟨m, hm, hrest⟩ := Option.bind_eq_some_iff.mp h
    exact (exec_spec hm).1.trans (ih hrest)

theorem Catalog.grows_of_apply {c c' : Catalog} {p : List Migration}
    (h : execAll apply c p = some c') : c.Grows c' := by
  induction p generalizing c with
  | nil =>
    obtain rfl : c = c' := by simpa using h
    exact .refl c
  | cons m p ih =>
    obtain ⟨c₁, hc₁, hrest⟩ := Option.bind_eq_some_iff.mp h
    exact (grows_of_execAll hc₁).trans (ih hrest)

/-! ## 5. From a catalog without these names -/

/-- The names of the migrations. -/
def migrationNames : List String :=
  ["requests", "requests_caller_ts_idx", "requests_ts_idx", "callers", "tiers", "tier_models",
    "routing_config"]

/-- None of the names is taken. -/
def Catalog.Fresh (c : Catalog) : Prop := ∀ name ∈ migrationNames, c.get? name = none

/-- The names that a statement is about. -/
def Ddl.names : Ddl → List String
  | .createTable name _ => [name]
  | .createIndex name table _ => [name, table]
  | .addColumn table _ => [table]

namespace Catalog

variable {names : List String} {c c' e : Catalog}

/-- The names stand for the same in both. -/
def Agree (names : List String) (c c' : Catalog) : Prop :=
  ∀ name ∈ names, c.get? name = c'.get? name

theorem Agree.symm (h : Agree names c c') : Agree names c' c :=
  fun name hname => (h name hname).symm

theorem Agree.columns? (h : Agree names c c') {table : String} (htable : table ∈ names) :
    c.columns? table = c'.columns? table := by
  unfold Catalog.columns?
  rw [h table htable]

theorem Agree.set (h : Agree names c c') (name : String) (rel : Relation) :
    Agree names (c.set name rel) (c'.set name rel) := by
  intro other hother
  rw [Dict.get?_set, Dict.get?_set, h other hother]

/-- A statement asks for its names only. -/
theorem Agree.exec (h : Agree names c c') {d : Ddl} (hd : d.names ⊆ names)
    (hexec : c.exec d = some e) : ∃ e', c'.exec d = some e' ∧ Agree names e e' := by
  cases d with
  | createTable name columns =>
    obtain rfl := Option.some.inj hexec
    have hname : c.get? name = c'.get? name := h name (hd List.mem_cons_self)
    refine ⟨_, rfl, ?_⟩
    rw [hname]
    split
    · exact h
    · exact h.set name _
  | createIndex name table columns =>
    obtain ⟨cols, hcols, hexec⟩ := Option.bind_eq_some_iff.mp hexec
    obtain ⟨hsub, hexec⟩ := Option.ite_none_right_eq_some.mp hexec
    obtain rfl := Option.some.inj hexec
    have hname : c.get? name = c'.get? name := h name (hd List.mem_cons_self)
    rw [h.columns? (hd (by simp [Ddl.names]))] at hcols
    refine ⟨_, by rw [Catalog.exec, hcols, Option.bind_some, if_pos hsub], ?_⟩
    rw [hname]
    split
    · exact h
    · exact h.set name _
  | addColumn table column =>
    obtain ⟨cols, hcols, rfl⟩ := Option.map_eq_some_iff.mp hexec
    rw [h.columns? (hd (by simp [Ddl.names]))] at hcols
    refine ⟨_, by rw [Catalog.exec, hcols, Option.map_some], ?_⟩
    split
    · exact h
    · exact h.set table _

/-- So does a release. -/
theorem Agree.apply (h : Agree migrationNames c c') {release : List Migration}
    (hrelease : release <+: migrations) (hexec : execAll Catalog.apply c release = some e) :
    ∃ e', execAll Catalog.apply c' release = some e' ∧ Agree migrationNames e e' := by
  have hnames : ∀ m ∈ migrations, ∀ d ∈ m.statements, d.names ⊆ migrationNames := by decide
  refine execAll_rel (fun m hm s s' t hs hstep => ?_) h hexec
  exact execAll_rel (fun d hd s s' t hs hstep =>
    hs.exec (hnames m (hrelease.subset hm) d hd) hstep) hs hstep

theorem Agree.serves (h : Agree migrationNames c c') (hserves : c.Serves) : c'.Serves := by
  have hruns : ∀ table ∈ migrationNames, c'.columns? table = c.columns? table :=
    fun table htable => (h.columns? htable).symm
  have htables : ∀ q ∈ databaseQueries, q.table ∈ migrationNames := by decide
  intro q hq
  have htable := htables q hq
  have hq := hserves q hq
  cases q with
  | insert table columns conflict =>
    rw [runs, hruns table htable]
    exact hq
  | select table columns =>
    rw [runs, hruns table htable]
    exact hq

end Catalog

/-- The catalogs that the releases leave, from nothing: the last one serves, and no other. -/
theorem releases_from_empty : ∀ k ≤ 3, (execAll Catalog.apply Dict.empty (migrations.take k)).any
    (fun c => decide (c.Serves ↔ k = 3)) = true := by
  decide

/-- **From a fresh catalog** every release can be executed, and `Database` works after the whole of
them, not before. -/
theorem Catalog.Fresh.release {start : Catalog} (h : start.Fresh) {release : List Migration}
    (hrelease : release <+: migrations) :
    ∃ c, execAll Catalog.apply start release = some c ∧ (c.Serves ↔ release = migrations) := by
  obtain ⟨k, hk, rfl⟩ : ∃ k ≤ 3, release = migrations.take k :=
    ⟨release.length, hrelease.length_le, List.prefix_iff_eq_take.mp hrelease⟩
  obtain ⟨c₀, hc₀, hserves⟩ := (Option.any_eq_true _ _).mp (releases_from_empty k hk)
  have hserves := of_decide_eq_true hserves
  have hagree : Catalog.Agree migrationNames Dict.empty start := fun name hname => by
    rw [h name hname, Dict.get?_empty]
  obtain ⟨c, hc, hagree⟩ := hagree.apply hrelease hc₀
  refine ⟨c, hc, ?_⟩
  have hall : migrations.take k = migrations ↔ k = 3 := by
    rw [List.take_eq_self_iff]
    exact ⟨fun hle => le_antisymm hk hle, fun heq => heq.ge⟩
  rw [hall, ← hserves]
  exact ⟨hagree.symm.serves, hagree.serves⟩

/-! ## 6. What a release executes -/

/-- **The files of a release are executed in their order**, however the directory lists them. -/
theorem migrationProgram_of_perm {files release : List Migration}
    (hrelease : release <+: migrations) (hfiles : files.Perm release) :
    migrationProgram files = if release = [] then none else some release := by
  have hempty : files = [] ↔ release = [] := by
    rw [← List.length_eq_zero_iff, ← List.length_eq_zero_iff, hfiles.length_eq]
  have hnames : ∀ m ∈ migrations, ∀ m' ∈ migrations, m.name = m'.name → m = m' := by decide
  have hordered : migrations.Pairwise fun m m' => decide (m.name ≤ m'.name) = true := by decide
  have hperm : (files.mergeSort fun m m' => decide (m.name ≤ m'.name)).Perm release :=
    (List.mergeSort_perm files _).trans hfiles
  have hsorted : files.mergeSort (fun m m' => decide (m.name ≤ m'.name)) = release := by
    refine hperm.eq_of_pairwise (fun m m' hm hm' hle hle' => ?_)
      (List.pairwise_mergeSort (fun m m' m'' => ?_) (fun m m' => ?_) files)
      (hordered.sublist hrelease.sublist)
    · exact hnames m (hrelease.subset (hperm.mem_iff.mp hm)) m' (hrelease.subset hm')
        (le_antisymm (of_decide_eq_true hle) (of_decide_eq_true hle'))
    · simp only [decide_eq_true_eq]
      exact le_trans
    · simpa using le_total m.name m'.name
  rw [migrationProgram, hsorted]
  exact if_congr hempty rfl rfl

/-- A program that `run_migrations` has, in this release or an older one. -/
def OfRelease (program : List Migration) : Prop :=
  ∃ files release, release <+: migrations ∧ files.Perm release ∧
    migrationProgram files = some program

/-- The releases have the beginnings of the files, in their order. -/
theorem ofRelease_iff {program : List Migration} :
    OfRelease program ↔ program ≠ [] ∧ program <+: migrations := by
  constructor
  · rintro ⟨files, release, hrelease, hfiles, hprogram⟩
    rw [migrationProgram_of_perm hrelease hfiles] at hprogram
    obtain ⟨hne, hprogram⟩ := Option.ite_none_left_eq_some.mp hprogram
    obtain rfl := Option.some.inj hprogram
    exact ⟨hne, hrelease⟩
  · rintro ⟨hne, hle⟩
    refine ⟨program, program, hle, .refl _, ?_⟩
    rw [migrationProgram_of_perm hle (.refl _), if_neg hne]

/-! ## 7. Any number of runs -/

section Runs

variable {start : Catalog} {actions : List (Action Migration)} {db db' : Database Catalog Migration}

/-- Whatever happens next, nothing that is committed is dropped. -/
theorem grows_of_step {action : Action Migration} (h : Sound Catalog.apply start db)
    (hstep : step Catalog.apply db action = some db') : db.committed.Grows db'.committed := by
  cases action with
  | begin program =>
    cases hstep
    exact .refl _
  | commit i answered =>
    obtain ⟨x, hx, hstep⟩ := Option.bind_eq_some_iff.mp hstep
    split at hstep
    · rename_i view hphase
      cases hstep
      obtain ⟨done, -, hdone⟩ := h.views i x view [] hx hphase
      exact Catalog.grows_of_apply hdone
    · cases hstep
  | lock i | rollback i =>
    obtain ⟨x, hx, hstep⟩ := Option.bind_eq_some_iff.mp hstep
    split at hstep <;> cases hstep <;> exact .refl _
  | statement i =>
    obtain ⟨x, hx, hstep⟩ := Option.bind_eq_some_iff.mp hstep
    split at hstep
    · obtain ⟨view, -, rfl⟩ := Option.map_eq_some_iff.mp hstep
      exact .refl _
    · cases hstep

theorem grows_of_run (h : Sound Catalog.apply start db)
    (hrun : Runs.run (step Catalog.apply) db actions = some db') :
    db.committed.Grows db'.committed :=
  (Runs.invariant (fun _ m => Sound Catalog.apply start m ∧ db.committed.Grows m.committed)
    ⟨h, .refl _⟩ (fun _ _ _ _ hm hstep =>
      ⟨hm.1.step hstep, hm.2.trans (grows_of_step hm.1 hstep)⟩) hrun).2

/-- What holds of the database after any actions of any runs of `run_migrations`. -/
structure MigrationsSafe (start : Catalog) (actions : List (Action Migration))
    (db : Database Catalog Migration) : Prop where
  /-- the committed runs are as if executed whole, one after another; of the others nothing is
  left -/
  linear : Journal.Linear (whole Catalog.apply) start (db.sessions.map Session.party) db.journal
    db.committed
  /-- the catalog is that of the newest release that has committed -/
  newest : ∃ release, release <+: migrations ∧
    execAll Catalog.apply start release = some db.committed ∧
    (∀ e ∈ db.journal, e.op <+: release) ∧ (release = [] ∨ ∃ e ∈ db.journal, e.op = release)
  /-- nothing that was ever committed has been dropped -/
  kept : ∀ past later before, actions = past ++ later →
    Runs.run (step Catalog.apply) (init start) past = some before →
      before.committed.Grows db.committed
  /-- a run that has returned is in, whoever has run since -/
  returned : ∀ x ∈ db.sessions, ∀ ended, x.phase = .committed ended →
    execAll Catalog.apply db.committed x.program = some db.committed
  /-- nobody waits for a lock that nobody holds -/
  goesOn : ∀ (i : ℕ) (x : Session Catalog Migration), db.sessions[i]? = some x →
    x.phase = .waiting →
      (db.locked = false → (step Catalog.apply db (.lock i)).isSome = true) ∧
        (db.locked = true → ∃ (j : ℕ) (y : Session Catalog Migration) (view : Catalog)
          (rest : List Migration), db.sessions[j]? = some y ∧ y.phase = .inside view rest)
  /-- if none of the names was taken no file fails, and `Database` works exactly once the last file
  is in -/
  fresh : start.Fresh →
    (∀ (i : ℕ) (x : Session Catalog Migration) (view : Catalog) (m : Migration)
      (rest : List Migration), db.sessions[i]? = some x → x.phase = .inside view (m :: rest) →
        (view.apply m).isSome = true) ∧
    (db.committed.Serves ↔ ∃ e ∈ db.journal, e.op = migrations)

/-- **Migrations are safe**: in every run of any number of sessions, of this release and older ones,
that interleave, fail and lose their connections. -/
theorem migrations_safe (hreleases : ∀ program, .begin program ∈ actions → OfRelease program)
    (hrun : Runs.run (step Catalog.apply) (init start) actions = some db) :
    MigrationsSafe start actions db := by
  have hsound : Sound Catalog.apply start db := .of_run hrun
  have hprograms : ∀ x ∈ db.sessions, x.program <+: migrations :=
    program_of_run (fun program hprogram => (ofRelease_iff.mp (hreleases program hprogram)).2) hrun
  obtain ⟨release, hrelease, hcommitted, hjournal, hlongest, hgoes⟩ :=
    hsound.longest settling_apply hprograms
  refine ⟨hsound.linear, ⟨release, hrelease, hcommitted, hjournal, hlongest⟩, ?_, ?_,
    fun i x hx hphase => hsound.goesOn hx hphase, fun hfresh => ⟨?_, ?_⟩⟩
  · rintro past later before rfl hbefore
    obtain ⟨m, hm, hlater⟩ := Runs.run_append_iff.mp hrun
    obtain rfl : m = before := Option.some.inj (hm.symm.trans hbefore)
    exact grows_of_run (.of_run hm) hlater
  · intro x hx ended hphase
    obtain ⟨e, he, hop⟩ := hsound.exists_entry hx hphase
    exact settling_apply.again hcommitted (hop ▸ hjournal e he).subset
  · obtain ⟨final, hfinal, -⟩ := hfresh.release (List.prefix_refl migrations)
    exact hgoes final hfinal
  · obtain ⟨c, hc, hserves⟩ := hfresh.release hrelease
    obtain rfl : c = db.committed := Option.some.inj (hc.symm.trans hcommitted)
    rw [hserves]
    constructor
    · rintro rfl
      refine hlongest.resolve_left fun hnil => ?_
      cases hnil
    · rintro ⟨e, he, hop⟩
      exact hrelease.eq_of_length_le (hop ▸ (hjournal e he).length_le)

/-- A rollout: a run of this release loses its connection, one of an older release commits and its
answer is lost, and a second one of this release commits. -/
def rolloutActions : List (Action Migration) :=
  [.begin migrations, .begin (migrations.take 2), .lock 0, .statement 0, .begin migrations,
    .rollback 0, .lock 1, .statement 1, .statement 1, .commit 1 false, .lock 2, .statement 2,
    .statement 2, .statement 2, .commit 2 true]

/-- At its end the gateway can work. -/
theorem migrations_safe_rollout : ∃ db : Database Catalog Migration,
    Runs.run (step Catalog.apply) (init Dict.empty) rolloutActions = some db ∧
      db.journal.map (fun e => e.op.length) = [2, 3] ∧ db.committed.Serves ∧
      MigrationsSafe Dict.empty rolloutActions db := by
  have hrun : (Runs.run (step Catalog.apply) (init Dict.empty) rolloutActions).any (fun db =>
      decide (db.journal.map (fun e => e.op.length) = [2, 3] ∧ db.committed.Serves)) = true := by
    decide +kernel
  have hreleases : ∀ program, .begin program ∈ rolloutActions → OfRelease program := by
    intro program hprogram
    have hcases : program = migrations ∨ program = migrations.take 2 ∨ program = migrations := by
      simpa [rolloutActions] using hprogram
    rcases hcases with rfl | rfl | rfl
    · exact ofRelease_iff.mpr ⟨by simp [migrations], List.prefix_refl _⟩
    · exact ofRelease_iff.mpr ⟨by simp [migrations], List.take_prefix 2 _⟩
    · exact ofRelease_iff.mpr ⟨by simp [migrations], List.prefix_refl _⟩
  obtain ⟨db, hdb, hstate⟩ := (Option.any_eq_true _ _).mp hrun
  obtain ⟨hjournal, hserves⟩ := of_decide_eq_true hstate
  exact ⟨db, hdb, hjournal, hserves, migrations_safe hreleases hdb⟩

end Runs

end Librouter
