/-
# `models.py`: the data the gateway exchanges

The Pydantic models, with what their validators guarantee as fields of the structures: a
`RateLimitEntry` with a zero limit or a `TierEntry` with a negative weight cannot be built.
Floats are exact rationals.

A `str` with a constraint must be one that can be encoded, so it is a `String`; without one it is a
`PyStr` where a caller or a vendor sends it.  (The tier of a request is a `String` all the same: the
config has no other names, so any other is as good as one that it does not have.)
-/
import Librouter.Foundations.Dict
import Librouter.Python

namespace Librouter

/-! ## 1. Configuration -/

/-- `RateLimitEntry`: per-minute fleet-wide limits, both `PositiveInt`. -/
structure RateLimitEntry where
  rpm : ℕ
  tpm : ℕ
  rpm_pos : 0 < rpm
  tpm_pos : 0 < tpm
deriving DecidableEq

theorem RateLimitEntry.eq_of {a b : RateLimitEntry} (hrpm : a.rpm = b.rpm) (htpm : a.tpm = b.tpm) :
    a = b := by
  cases a
  cases b
  cases hrpm
  cases htpm
  rfl

/-- `TierEntry`: one candidate in a tier's candidate list. -/
structure TierEntry where
  provider : String
  model : String
  weight : ℚ
  rateLimits : RateLimitEntry
  weight_nonneg : 0 ≤ weight
deriving DecidableEq

/-- `TierConfig`: the candidates of one logical tier, in order. -/
structure TierConfig where
  candidates : List TierEntry
deriving DecidableEq

/-- `RoutingConfig`, with its defaults. -/
structure RoutingConfig where
  refreshIntervalMs : ℕ := 1000
  healthWindowS : ℕ := 60
  targetLatencyS : ℚ := 3
  minWeightFloor : ℚ := 1 / 50
  rngSeedEnv : Option String := none
  refreshIntervalMs_pos : 0 < refreshIntervalMs := by decide
  healthWindowS_pos : 0 < healthWindowS := by decide
  targetLatencyS_pos : 0 < targetLatencyS := by norm_num
  minWeightFloor_nonneg : 0 ≤ minWeightFloor := by norm_num
deriving DecidableEq

/-- `ProviderMode`. -/
inductive ProviderMode
  | mock
  | real
deriving DecidableEq

/-- `SecretsMode`. -/
inductive SecretsMode
  | mock
  | env
deriving DecidableEq

/-- `^[a-z0-9_-]{1,64}$`. -/
def isCallerName (s : String) : Bool :=
  decide (1 ≤ s.length ∧ s.length ≤ 64) &&
    s.toList.all fun c => c.isLower || c.isDigit || c == '_' || c == '-'

/-- `CallerEntry`: one internal backend authorized to call the gateway. -/
structure CallerEntry where
  name : String
  keyHash : String
  dailyTokenCap : Option ℕ := none
  enabled : Bool := true
  name_ok : isCallerName name = true
deriving DecidableEq

/-- `Config`: the top-level gateway configuration. -/
structure Config where
  providerMode : ProviderMode
  secretsMode : SecretsMode
  tiers : Dict String TierConfig
  routing : RoutingConfig := {}
  callers : List CallerEntry := []
deriving DecidableEq

/-- `CandidateRef`: hashable handle for a (provider, model) pair. -/
structure CandidateRef where
  provider : String
  model : String
deriving DecidableEq

/-- `CandidateRef(provider=t.provider, model=t.model)`. -/
def TierEntry.ref (t : TierEntry) : CandidateRef := ⟨t.provider, t.model⟩

/-! ## 2. Requests and responses -/

/-- `Role`. -/
inductive Role
  | system
  | user
  | assistant
  | tool
deriving DecidableEq

/-- `Message`. -/
structure Message where
  role : Role
  content : String
  content_length : content.length ≤ 200000

/-- `Message(role=..., content=...)`: the content can be encoded, and is not too long. -/
def Message.ofContent (role : Role) (content : PyStr) : Option Message :=
  content.text?.bind fun text =>
    if h : text.length ≤ 200000 then some ⟨role, text, h⟩ else none

/-- What can be a message. -/
theorem Message.ofContent_eq_some_iff {role : Role} {content : PyStr} {m : Message} :
    Message.ofContent role content = some m ↔ m.role = role ∧ PyStr.of m.content = content := by
  rw [ofContent, Option.bind_eq_some_iff]
  constructor
  · rintro ⟨text, htext, hm⟩
    split at hm <;> cases hm
    exact ⟨rfl, (PyStr.text?_eq_some_iff.mp htext).symm⟩
  · rintro ⟨rfl, rfl⟩
    exact ⟨m.content, PyStr.text?_of _, dif_pos m.content_length⟩

theorem Message.ofContent_isSome_iff {role : Role} {content : PyStr} :
    (Message.ofContent role content).isSome = true ↔
      content.isText = true ∧ content.length ≤ 200000 := by
  rw [PyStr.isText, Option.isSome_iff_exists, Option.isSome_iff_exists]
  constructor
  · rintro ⟨m, hm⟩
    obtain ⟨-, rfl⟩ := ofContent_eq_some_iff.mp hm
    exact ⟨⟨m.content, PyStr.text?_of _⟩, PyStr.length_of _ ▸ m.content_length⟩
  · rintro ⟨⟨text, htext⟩, hlength⟩
    obtain rfl := PyStr.text?_eq_some_iff.mp htext
    rw [PyStr.length_of] at hlength
    exact ⟨⟨role, text, hlength⟩, ofContent_eq_some_iff.mpr ⟨rfl, rfl⟩⟩

/-- `ChatCompletionRequest`; `model` is the name of a tier. -/
structure ChatCompletionRequest where
  model : String
  messages : List Message
  maxTokens : ℕ := 1024
  temperature : Option ℚ := none
  topP : Option ℚ := none
  metadata : Option (Dict PyStr PyStr) := none
  messages_length : 1 ≤ messages.length ∧ messages.length ≤ 512
  content_length : (messages.map fun m => m.content.length).sum < 1000000
  maxTokens_range : 0 < maxTokens ∧ maxTokens ≤ 16384 := by decide
  temperature_range : ∀ x ∈ temperature, 0 ≤ x ∧ x ≤ 2 := by simp
  topP_range : ∀ x ∈ topP, 0 ≤ x ∧ x ≤ 1 := by simp
  metadata_bounds : ∀ d ∈ metadata, d.items.length ≤ 16 ∧
    ∀ e ∈ d.items, e.1.length ≤ 64 ∧ e.2.length ≤ 256 := by simp

/-- `Usage`. -/
structure Usage where
  promptTokens : ℕ
  completionTokens : ℕ
  totalTokens : ℕ

/-- `Choice`. -/
structure Choice where
  index : ℕ
  message : Message
  finishReason : Option PyStr

/-- `ChatCompletionResponse`. -/
structure ChatCompletionResponse where
  id : String
  model : String
  choices : List Choice
  usage : Usage

/-- `ErrorBody`. -/
structure ErrorBody where
  type : String
  message : String
  retryable : Bool := false
deriving DecidableEq

/-! ## 3. Internal records -/

/-- `ChatResult`: the normalized response of a vendor. -/
structure ChatResult where
  text : PyStr
  finishReason : Option PyStr := none
  inputTokens : ℕ
  outputTokens : ℕ
  vendorRequestId : Option PyStr := none

/-- `AttemptRecord`: one row of the requests table. -/
structure AttemptRecord where
  requestId : String
  caller : String
  tier : String
  provider : String
  model : String
  attemptIdx : ℕ
  inputTokens : ℕ := 0
  outputTokens : ℕ := 0
  costUsd : ℚ := 0
  latencyMs : ℕ
  status : String
  vendorReqId : Option PyStr := none
  clientTraceId : Option String := none

/-- `Caller`. -/
structure Caller where
  name : String
  dailyTokenCap : Option ℕ := none
  enabled : Bool := true
  name_ok : isCallerName name = true

/-! ## 4. Samples -/

theorem isCallerName_web : isCallerName "web" = true := by decide

/-- A caller without a cap. -/
def webCaller : Caller := ⟨"web", none, true, isCallerName_web⟩

/-- A request with the one message "hi". -/
def hiRequest : ChatCompletionRequest where
  model := "fast"
  messages := [⟨.user, "hi", by decide⟩]
  messages_length := by decide
  content_length := by decide

/-- The record of a first attempt. -/
def sampleRecord (requestId : String) : AttemptRecord where
  requestId := requestId
  caller := "web"
  tier := "fast"
  provider := "openai"
  model := "gpt-4o-mini"
  attemptIdx := 0
  latencyMs := 0
  status := "ok"

/-- The routing knobs nobody has set. -/
def RoutingConfig.default : RoutingConfig := {}

/-- Two requests a minute. -/
def twicePerMinute : RateLimitEntry := ⟨2, 1000, by decide, by decide⟩

/-- A candidate with fixed weight and limits. -/
def sampleEntry (provider model : String) : TierEntry where
  provider := provider
  model := model
  weight := 1
  rateLimits := ⟨1000, 100000, by decide, by decide⟩
  weight_nonneg := zero_le_one

/-- A config of one tier. -/
def sampleConfig (tierName : String) (cands : List TierEntry) : Config where
  providerMode := .mock
  secretsMode := .mock
  tiers := ⟨[(tierName, ⟨cands⟩)], List.nodup_singleton _⟩
  routing := RoutingConfig.default

/-- A config with the one tier `fast`. -/
def fastConfig : Config := sampleConfig "fast" [sampleEntry "openai" "gpt-4o-mini"]

end Librouter
