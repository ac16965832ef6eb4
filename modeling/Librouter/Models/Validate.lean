/-
# `models.py`: dumping and validating the configuration

`model_dump` and `model_validate` of the configuration models.  Bounds, defaults, literals and
`extra="forbid"` are the models' own; the conversion of scalars is the validation library's, a
`Json.Scalars`.  Whatever that is, a dumped `Config` validates to itself
(`Config.validate_dump`), which is what the config cache relies on.
-/
import Librouter.Models
import Librouter.Foundations.Json

namespace Librouter

open Json

/-! ## 1. Bounds

Each model is built from field values of the right type if they are in bounds. -/

/-- Both `PositiveInt`. -/
def RateLimitEntry.ofFields (rpm tpm : ℤ) : Option RateLimitEntry :=
  if h : 0 < rpm ∧ 0 < tpm then some ⟨rpm.toNat, tpm.toNat, by omega, by omega⟩ else none

/-- `weight: NonNegativeFloat`. -/
def TierEntry.ofFields (provider model : String) (weight : ℚ) (rateLimits : RateLimitEntry) :
    Option TierEntry :=
  if h : 0 ≤ weight then some ⟨provider, model, weight, rateLimits, h⟩ else none

/-- `PositiveInt`, `PositiveInt`, `gt=0.0` and `NonNegativeFloat`. -/
def RoutingConfig.ofFields (refreshIntervalMs healthWindowS : ℤ)
    (targetLatencyS minWeightFloor : ℚ) (rngSeedEnv : Option String) : Option RoutingConfig :=
  if h : (0 < refreshIntervalMs ∧ 0 < healthWindowS) ∧ 0 < targetLatencyS ∧ 0 ≤ minWeightFloor then
    some ⟨refreshIntervalMs.toNat, healthWindowS.toNat, targetLatencyS, minWeightFloor, rngSeedEnv,
      by omega, by omega, h.2.1, h.2.2⟩
  else none

/-- The name pattern, and `NonNegativeInt | None`. -/
def CallerEntry.ofFields (name keyHash : String) (dailyTokenCap : Option ℤ) (enabled : Bool) :
    Option CallerEntry :=
  if h : isCallerName name = true then
    if ∀ cap ∈ dailyTokenCap, 0 ≤ cap then
      some ⟨name, keyHash, dailyTokenCap.map Int.toNat, enabled, h⟩
    else none
  else none

@[simp] theorem RateLimitEntry.ofFields_self (r : RateLimitEntry) :
    RateLimitEntry.ofFields r.rpm r.tpm = some r := by
  have h : 0 < (r.rpm : ℤ) ∧ 0 < (r.tpm : ℤ) :=
    ⟨Int.natCast_pos.mpr r.rpm_pos, Int.natCast_pos.mpr r.tpm_pos⟩
  rw [RateLimitEntry.ofFields, dif_pos h]
  rfl

@[simp] theorem TierEntry.ofFields_self (t : TierEntry) :
    TierEntry.ofFields t.provider t.model t.weight t.rateLimits = some t :=
  dif_pos t.weight_nonneg

@[simp] theorem RoutingConfig.ofFields_self (r : RoutingConfig) :
    RoutingConfig.ofFields r.refreshIntervalMs r.healthWindowS r.targetLatencyS r.minWeightFloor
      r.rngSeedEnv = some r := by
  have h : (0 < (r.refreshIntervalMs : ℤ) ∧ 0 < (r.healthWindowS : ℤ)) ∧
      0 < r.targetLatencyS ∧ 0 ≤ r.minWeightFloor :=
    ⟨⟨Int.natCast_pos.mpr r.refreshIntervalMs_pos, Int.natCast_pos.mpr r.healthWindowS_pos⟩,
      r.targetLatencyS_pos, r.minWeightFloor_nonneg⟩
  rw [RoutingConfig.ofFields, dif_pos h]
  rfl

@[simp] theorem CallerEntry.ofFields_self (c : CallerEntry) :
    CallerEntry.ofFields c.name c.keyHash (c.dailyTokenCap.map Int.ofNat) c.enabled = some c := by
  have hcap : ∀ cap ∈ c.dailyTokenCap.map Int.ofNat, 0 ≤ cap := by
    intro cap h
    obtain ⟨n, -, rfl⟩ := Option.mem_map.mp h
    exact Int.natCast_nonneg n
  rw [CallerEntry.ofFields, dif_pos c.name_ok, if_pos hcap, Option.map_map]
  cases c with
  | mk name keyHash cap enabled ok => cases cap <;> rfl

/-! ## 2. `model_dump` -/

/-- `RateLimitEntry.model_dump`. -/
def RateLimitEntry.dump (r : RateLimitEntry) : Json :=
  .obj [("rpm", .int r.rpm), ("tpm", .int r.tpm)]

/-- `TierEntry.model_dump`. -/
def TierEntry.dump (t : TierEntry) : Json :=
  .obj [("provider", .str t.provider), ("model", .str t.model), ("weight", .float t.weight),
    ("rate_limits", t.rateLimits.dump)]

/-- `TierConfig.model_dump`. -/
def TierConfig.dump (t : TierConfig) : Json :=
  .obj [("candidates", .arr (t.candidates.map TierEntry.dump))]

/-- `RoutingConfig.model_dump`. -/
def RoutingConfig.dump (r : RoutingConfig) : Json :=
  .obj [("refresh_interval_ms", .int r.refreshIntervalMs),
    ("health_window_s", .int r.healthWindowS), ("target_latency_s", .float r.targetLatencyS),
    ("min_weight_floor", .float r.minWeightFloor), ("rng_seed_env", ofOption .str r.rngSeedEnv)]

/-- `CallerEntry.model_dump`. -/
def CallerEntry.dump (c : CallerEntry) : Json :=
  .obj [("name", .str c.name), ("key_hash", .str c.keyHash),
    ("daily_token_cap", ofOption .int (c.dailyTokenCap.map Int.ofNat)),
    ("enabled", .bool c.enabled)]

/-- A `ProviderMode` is its literal. -/
def ProviderMode.dump : ProviderMode → Json
  | .mock => .str "mock"
  | .real => .str "real"

/-- A `SecretsMode` is its literal. -/
def SecretsMode.dump : SecretsMode → Json
  | .mock => .str "mock"
  | .env => .str "env"

/-- `Config.model_dump`. -/
def Config.dump (c : Config) : Json :=
  .obj [("provider_mode", c.providerMode.dump), ("secrets_mode", c.secretsMode.dump),
    ("tiers", ofDict TierConfig.dump c.tiers), ("routing", c.routing.dump),
    ("callers", .arr (c.callers.map CallerEntry.dump))]

/-! ## 3. `model_validate` -/

section Validate

variable (V : Scalars)

/-- `RateLimitEntry.model_validate`. -/
def RateLimitEntry.validate (j : Json) : Option RateLimitEntry := do
  RateLimitEntry.ofFields (← required V.int "rpm" j) (← required V.int "tpm" j)

/-- `TierEntry.model_validate`. -/
def TierEntry.validate (j : Json) : Option TierEntry := do
  TierEntry.ofFields (← required V.str "provider" j) (← required V.str "model" j)
    (← required V.float "weight" j) (← required (RateLimitEntry.validate V) "rate_limits" j)

/-- `TierConfig.model_validate`. -/
def TierConfig.validate (j : Json) : Option TierConfig :=
  (required (listOf (TierEntry.validate V)) "candidates" j).map TierConfig.mk

/-- `RoutingConfig.model_validate`: every field has a default. -/
def RoutingConfig.validate : Json → Option RoutingConfig
  | .obj fields => do
    let j := Json.obj fields
    let d := RoutingConfig.default
    RoutingConfig.ofFields (← withDefault V.int d.refreshIntervalMs "refresh_interval_ms" j)
      (← withDefault V.int d.healthWindowS "health_window_s" j)
      (← withDefault V.float d.targetLatencyS "target_latency_s" j)
      (← withDefault V.float d.minWeightFloor "min_weight_floor" j)
      (← withDefault (nullable V.str) d.rngSeedEnv "rng_seed_env" j)
  | _ => none

/-- `CallerEntry.model_validate`. -/
def CallerEntry.validate (j : Json) : Option CallerEntry := do
  CallerEntry.ofFields (← required V.str "name" j) (← required V.str "key_hash" j)
    (← withDefault (nullable V.int) none "daily_token_cap" j) (← withDefault V.bool true "enabled" j)

/-- `Literal["mock", "real"]`. -/
def ProviderMode.validate : Json → Option ProviderMode
  | .str s => if s = "mock" then some .mock else if s = "real" then some .real else none
  | _ => none

/-- `Literal["mock", "env"]`. -/
def SecretsMode.validate : Json → Option SecretsMode
  | .str s => if s = "mock" then some .mock else if s = "env" then some .env else none
  | _ => none

/-- `Config.model_validate`; no other keys are allowed. -/
def Config.validate (j : Json) : Option Config :=
  if j.onlyKeys ["provider_mode", "secrets_mode", "tiers", "routing", "callers"] then do
    return {
      providerMode := ← required ProviderMode.validate "provider_mode" j
      secretsMode := ← required SecretsMode.validate "secrets_mode" j
      tiers := ← required (dictOf (TierConfig.validate V)) "tiers" j
      routing := ← withDefault (RoutingConfig.validate V) RoutingConfig.default "routing" j
      callers := ← withDefault (listOf (CallerEntry.validate V)) [] "callers" j }
  else none

/-! ## 4. Round trips -/

@[simp] theorem RateLimitEntry.validate_dump (r : RateLimitEntry) :
    RateLimitEntry.validate V r.dump = some r := by
  simp [RateLimitEntry.validate, RateLimitEntry.dump, required, field?, Dict.lookup]

@[simp] theorem TierEntry.validate_dump (t : TierEntry) : TierEntry.validate V t.dump = some t := by
  simp [TierEntry.validate, TierEntry.dump, required, field?, Dict.lookup]

@[simp] theorem TierConfig.validate_dump (t : TierConfig) :
    TierConfig.validate V t.dump = some t := by
  simp [TierConfig.validate, TierConfig.dump, required, field?, Dict.lookup,
    listOf_arr (TierEntry.validate_dump V)]

@[simp] theorem RoutingConfig.validate_dump (r : RoutingConfig) :
    RoutingConfig.validate V r.dump = some r := by
  have hseed := nullable_ofOption (f := V.str) (g := .str) V.str_str (fun _ => nofun) r.rngSeedEnv
  simp [RoutingConfig.validate, RoutingConfig.dump, withDefault, field?, Dict.lookup, hseed]

@[simp] theorem CallerEntry.validate_dump (c : CallerEntry) :
    CallerEntry.validate V c.dump = some c := by
  have hcap := nullable_ofOption (f := V.int) (g := .int) V.int_int (fun _ => nofun)
    (c.dailyTokenCap.map Int.ofNat)
  simp [CallerEntry.validate, CallerEntry.dump, required, withDefault, field?, Dict.lookup, hcap]

@[simp] theorem ProviderMode.validate_dump (m : ProviderMode) :
    ProviderMode.validate m.dump = some m := by
  cases m <;> decide

@[simp] theorem SecretsMode.validate_dump (m : SecretsMode) :
    SecretsMode.validate m.dump = some m := by
  cases m <;> decide

/-- **A dumped `Config` validates to itself.** -/
theorem Config.validate_dump (c : Config) : Config.validate V c.dump = some c := by
  have hkeys : c.dump.onlyKeys ["provider_mode", "secrets_mode", "tiers", "routing", "callers"] := by
    simp [Config.dump, onlyKeys]
  rw [Config.validate, if_pos hkeys]
  simp [Config.dump, required, withDefault, field?, Dict.lookup,
    dictOf_ofDict (TierConfig.validate_dump V), listOf_arr (CallerEntry.validate_dump V)]

end Validate

end Librouter
