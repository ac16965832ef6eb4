/-
# `db.py`: the three config tables

`tiers`, `tier_models` and `routing_config`, with the statements and queries of `Database` on
them.  Each method acquires its own connection and executes one statement, which is committed by
itself.  `tier_models.config` is a JSON document of any shape.  `ORDER BY` is the order of the
keys.
-/
import Librouter.Models.Validate
import Librouter.Foundations.Table

namespace Librouter

/-- The one row `routing_config` can have. -/
structure RoutingRow where
  refreshIntervalMs : ℤ
  healthWindowS : ℤ
  targetLatencyS : ℚ
  minWeightFloor : ℚ
  rngSeedEnv : Option String
deriving DecidableEq

/-- The config tables. -/
structure ConfigTables where
  /-- `name`, `fallback_tier` -/
  tiers : Table String (Option String)
  /-- `provider`, `config` -/
  tierModels : Table String Json
  routingConfig : Option RoutingRow

/-- The statements that write to them. -/
inductive Statement
  | upsertTier (name : String) (fallbackTier : Option String)
  | upsertTierModels (provider : String) (config : Json)
  | upsertRoutingConfig (row : RoutingRow)

namespace ConfigTables

/-- Tables without rows. -/
def empty : ConfigTables := ⟨.empty, .empty, none⟩

/-- One statement. -/
def exec (d : ConfigTables) : Statement → ConfigTables
  | .upsertTier name fallbackTier => { d with tiers := d.tiers.upsert name fallbackTier }
  | .upsertTierModels provider config =>
    { d with tierModels := d.tierModels.upsert provider config }
  | .upsertRoutingConfig row => { d with routingConfig := some row }

/-- Statements one after another. -/
def execAll (d : ConfigTables) (ss : List Statement) : ConfigTables := ss.foldl exec d

/-- `fetch_tiers`. -/
def fetchTiers (d : ConfigTables) : List (String × Option String) := d.tiers.rows

/-- `fetch_tier_models`. -/
def fetchTierModels (d : ConfigTables) : List (String × Json) := d.tierModels.rows

/-- `fetch_routing_config`. -/
def fetchRoutingConfig (d : ConfigTables) : Option RoutingRow := d.routingConfig

end ConfigTables

/-! ## What statements leave in each table -/

/-- The rows a list of statements writes to `tiers`. -/
def tierRowsOf (ss : List Statement) : List (String × Option String) :=
  ss.filterMap fun s => match s with
    | .upsertTier name fallbackTier => some (name, fallbackTier)
    | _ => none

/-- The rows a list of statements writes to `tier_models`. -/
def modelRowsOf (ss : List Statement) : List (String × Json) :=
  ss.filterMap fun s => match s with
    | .upsertTierModels provider config => some (provider, config)
    | _ => none

/-- The rows a list of statements writes to `routing_config`. -/
def routingRowsOf (ss : List Statement) : List RoutingRow :=
  ss.filterMap fun s => match s with
    | .upsertRoutingConfig row => some row
    | _ => none

namespace ConfigTables

variable (d : ConfigTables) (ss : List Statement)

@[simp] theorem execAll_nil : d.execAll [] = d := rfl

@[simp] theorem execAll_cons (s : Statement) : d.execAll (s :: ss) = (d.exec s).execAll ss := rfl

/-- **Statements on different tables do not interfere**: each table sees its own rows. -/
theorem execAll_eq : d.execAll ss =
    ⟨d.tiers.upsertAll (tierRowsOf ss), d.tierModels.upsertAll (modelRowsOf ss),
      (routingRowsOf ss).getLast?.or d.routingConfig⟩ := by
  induction ss generalizing d with
  | nil => rfl
  | cons s ss ih =>
    rw [execAll_cons, ih]
    cases s with
    | upsertTier name fallbackTier => rfl
    | upsertTierModels provider config => rfl
    | upsertRoutingConfig row =>
      have hrows : routingRowsOf (.upsertRoutingConfig row :: ss) = row :: routingRowsOf ss := rfl
      rw [hrows, List.getLast?_cons]
      cases h : (routingRowsOf ss).getLast? <;> simp [exec, tierRowsOf, modelRowsOf]

theorem tiers_execAll : (d.execAll ss).tiers = d.tiers.upsertAll (tierRowsOf ss) := by
  rw [execAll_eq]

theorem tierModels_execAll :
    (d.execAll ss).tierModels = d.tierModels.upsertAll (modelRowsOf ss) := by
  rw [execAll_eq]

theorem routingConfig_execAll :
    (d.execAll ss).routingConfig = (routingRowsOf ss).getLast?.or d.routingConfig := by
  rw [execAll_eq]

end ConfigTables

end Librouter
