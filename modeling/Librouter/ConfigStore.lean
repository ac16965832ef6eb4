/-
# `config_store.py`: writing and loading the gateway config

`_write_to_db` turns tiers of candidates into one row a tier and one row a provider, the latter a
document `tier -> candidate`; `load_from_db` turns them back.  Both are translated here;
`ConfigStore.Spec` says what each does to the tables and returns, `ConfigStore.RoundTrip` is about
writes followed by a load, `ConfigStore.Atomicity` about writes that stop half way,
`ConfigStore.Torn` about loads that overlap a write, `ConfigStore.Cache` about the cache in Redis.
-/
import Librouter.Db

namespace Librouter

open Json

/-! ## 1. `load_from_db` -/

/-- What `load_from_db` raises. -/
inductive LoadError
  /-- `ConfigStoreError` -/
  | configStoreError (message : String)
  /-- a stored row is no config: `KeyError`, `TypeError` or `ValidationError` -/
  | malformed
deriving DecidableEq

/-- `routing_config table has no row`. -/
def noRoutingRow : LoadError :=
  .configStoreError "routing_config table has no row — run ./scripts/setup.sh to bootstrap"

/-- The value, or the error of a malformed row. -/
def orMalformed {α : Type} : Option α → Except LoadError α
  | some x => .ok x
  | none => .error .malformed

section Load

variable (V : Scalars)

/-- The candidate of `provider` in the tier, by the document in its `tier_models` row. -/
def tierEntryOf (tierName provider : String) (tierMap : Json) :
    Except LoadError (Option TierEntry) :=
  match tierMap.contains? tierName with
  | none => .error .malformed
  | some false => .ok none
  | some true => orMalformed do
    let entry ← tierMap.field? tierName
    return some (← TierEntry.ofFields provider (← required V.str "model" entry)
      (← required V.float "weight" entry)
      (← required (RateLimitEntry.validate V) "rate_limits" entry))

/-- The candidates of a tier, one for each provider that has the tier. -/
def tierCandidates (providerTierMap : Dict String Json) (tierName : String) :
    Except LoadError (List TierEntry) :=
  (providerTierMap.items.mapM fun e => tierEntryOf V tierName e.1 e.2).map List.reduceOption

/-- The `RoutingConfig` of the routing row. -/
def RoutingRow.decode (row : RoutingRow) : Except LoadError RoutingConfig :=
  orMalformed (RoutingConfig.ofFields row.refreshIntervalMs row.healthWindowS row.targetLatencyS
    row.minWeightFloor row.rngSeedEnv)

/-- `load_from_db`, given the rows it has fetched. -/
def loadRows (routingRow : RoutingRow) (tierRows : List (String × Option String))
    (tierModelRows : List (String × Json)) : Except LoadError Config := do
  let providerTierMap := Dict.ofList tierModelRows
  let tiers ← tierRows.mapM fun row =>
    (tierCandidates V providerTierMap row.1).map fun cs => (row.1, TierConfig.mk cs)
  let routing ← routingRow.decode
  return { providerMode := .mock, secretsMode := .mock, tiers := Dict.ofList tiers,
           routing := routing, callers := [] }

/-- `load_from_db`, when nothing else runs. -/
def loadFromDb (d : ConfigTables) : Except LoadError Config :=
  match d.fetchRoutingConfig with
  | none => .error noRoutingRow
  | some routingRow => loadRows V routingRow d.fetchTiers d.fetchTierModels

/-- `load_from_db` between its reads. -/
inductive LoadPc
  /-- in `fetch_routing_config()` -/
  | routing
  /-- in `fetch_tiers()` -/
  | tiers (routingRow : RoutingRow)
  /-- in `fetch_tier_models()` -/
  | models (routingRow : RoutingRow) (tierRows : List (String × Option String))
  /-- done -/
  | done (result : Except LoadError Config)

/-- One read of `load_from_db`. -/
def LoadPc.read (d : ConfigTables) : LoadPc → LoadPc
  | .routing =>
    match d.fetchRoutingConfig with
    | none => .done (.error noRoutingRow)
    | some routingRow => .tiers routingRow
  | .tiers routingRow => .models routingRow d.fetchTiers
  | .models routingRow tierRows => .done (loadRows V routingRow tierRows d.fetchTierModels)
  | .done result => .done result

/-- What `load_from_db` returned, once it is done. -/
def LoadPc.result : LoadPc → Option (Except LoadError Config)
  | .done result => some result
  | _ => none

end Load

/-! ## 2. `_write_to_db` -/

/-- The document entry of a candidate. -/
def candidateDoc (cand : TierEntry) : Json :=
  .obj [("model", .str cand.model), ("weight", .float cand.weight),
    ("rate_limits", .obj [("rpm", .int cand.rateLimits.rpm), ("tpm", .int cand.rateLimits.tpm)])]

/-- `provider → {tier_name → {model, weight, rate_limits}}`. -/
abbrev ProviderMap := Dict String (Dict String Json)

/-- One candidate enters the provider map. -/
def addCandidate (tierName : String) (providerMap : ProviderMap) (cand : TierEntry) : ProviderMap :=
  let providerMap := providerMap.setDefault cand.provider Dict.empty
  providerMap.set cand.provider
    (((providerMap.get? cand.provider).getD Dict.empty).set tierName (candidateDoc cand))

/-- The provider map of a config. -/
def Config.providerMap (cfg : Config) : ProviderMap :=
  cfg.tiers.items.foldl (fun m tier => tier.2.candidates.foldl (addCandidate tier.1) m) Dict.empty

/-- The routing row of a config. -/
def RoutingConfig.row (routing : RoutingConfig) : RoutingRow where
  refreshIntervalMs := routing.refreshIntervalMs
  healthWindowS := routing.healthWindowS
  targetLatencyS := routing.targetLatencyS
  minWeightFloor := routing.minWeightFloor
  rngSeedEnv := routing.rngSeedEnv

/-- The statements of `_write_to_db`, in order. -/
def writeStatements (cfg : Config) : List Statement :=
  cfg.tiers.keys.map (fun tierName => .upsertTier tierName none) ++
    cfg.providerMap.items.map (fun e => .upsertTierModels e.1 (ofDict id e.2)) ++
    [.upsertRoutingConfig cfg.routing.row]

/-- `_write_to_db`, when nothing fails and nothing else runs. -/
def ConfigTables.write (d : ConfigTables) (cfg : Config) : ConfigTables :=
  d.execAll (writeStatements cfg)

end Librouter
