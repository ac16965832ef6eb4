/-
# `providers/`: the vendor adapters

`OpenAIVendor`, `AnthropicVendor` and `GoogleVendor` turn the messages of a request into those of
their SDK, await its call, and turn the response into a `ChatResult`.  The call is in a `try` that
translates the exceptions of the SDK into the taxonomy of `errors.py`; what comes after it is not.

The SDKs are not part of the gateway: what their calls return or raise is given.  A response is what
the adapters read of it, and any attribute may be `None`, or not be there at all.  One is no field
of its object but a property: the `text` of Google's response is computed when it is read, and this
may raise.
-/
import Librouter.Errors
import Librouter.Python

namespace Librouter

/-! ## 1. Messages -/

/-- `{"role": ..., "content": ...}`, as OpenAI and Anthropic take it. -/
structure VendorMessage where
  role : String
  content : String
deriving DecidableEq

/-- `{"role": ..., "parts": [{"text": ...}]}`, as Google takes it. -/
structure GoogleContent where
  role : String
  parts : List String
deriving DecidableEq

/-- The values of the literal type. -/
def Role.text : Role → String
  | system => "system"
  | user => "user"
  | assistant => "assistant"
  | tool => "tool"

/-- `m.model_dump()`. -/
def Message.modelDump (m : Message) : VendorMessage := ⟨m.role.text, m.content⟩

/-- `"\n\n".join(system_parts) if system_parts else None`. -/
def joinSystem (systemParts : List String) : Option String :=
  if systemParts = [] then none else some ("\n\n".intercalate systemParts)

/-- The body of the loops of `_split_system` and `_convert_messages`: the system parts so far, and
what the other messages have become. -/
def splitStep {α : Type} (convert : Message → α) (acc : List String × List α) (m : Message) :
    List String × List α :=
  if m.role = .system then (acc.1 ++ [m.content], acc.2) else (acc.1, acc.2 ++ [convert m])

/-- The loops. -/
def splitLoop {α : Type} (convert : Message → α) (messages : List Message) :
    List String × List α :=
  messages.foldl (splitStep convert) ([], [])

/-- `[m.model_dump() for m in messages]`. -/
def openaiMessages (messages : List Message) : List VendorMessage := messages.map Message.modelDump

/-- `_split_system`. -/
def splitSystem (messages : List Message) : Option String × List VendorMessage :=
  let (systemParts, rest) := splitLoop (fun m => ⟨m.role.text, m.content⟩) messages
  (joinSystem systemParts, rest)

/-- `_convert_messages`. -/
def convertMessages (messages : List Message) : Option String × List GoogleContent :=
  let (systemParts, contents) := splitLoop
    (fun m => ⟨if m.role = .user then "user" else "model", [m.content]⟩) messages
  (joinSystem systemParts, contents)

/-! ## 2. Exceptions -/

/-- An exception that is no `ProviderError`. -/
inductive OtherError
  | attributeError
  | indexError
  | typeError
  | valueError
  /-- of pydantic -/
  | validationError
  /-- one of the SDK that no `except` clause names -/
  | sdkError (typeName : String)
deriving DecidableEq

/-- What `chat` raises. -/
inductive ChatError
  | provider (e : ProviderError)
  | other (e : OtherError)
deriving DecidableEq

def timeoutError : ChatError := .provider { cls := .timeout, typeName := "Timeout" }
def rateLimitedError : ChatError := .provider { cls := .rateLimited, typeName := "RateLimited" }
def authError : ChatError := .provider { cls := .authError, typeName := "AuthError" }
def badRequestError : ChatError := .provider { cls := .badRequest, typeName := "BadRequest" }
def transient5xxError : ChatError := .provider { cls := .transient5xx, typeName := "Transient5xx" }

def contentFilteredError : ChatError :=
  .provider { cls := .contentFiltered, typeName := "ContentFiltered" }

/-- What the SDKs of OpenAI and Anthropic raise, by the first `except` clause that takes it. -/
inductive SdkError
  /-- `asyncio.TimeoutError` or `APITimeoutError` -/
  | timeout
  | rateLimit
  | authentication
  | badRequest
  | internalServer
  | apiConnection
  | apiStatus (statusCode : ℤ)
  | other (typeName : String)

/-- The `except` clauses of `OpenAIVendor.chat` and `AnthropicVendor.chat`. -/
def SdkError.translate : SdkError → ChatError
  | timeout => timeoutError
  | rateLimit => rateLimitedError
  | authentication => authError
  | badRequest => badRequestError
  | internalServer => transient5xxError
  | apiConnection => transient5xxError
  | apiStatus statusCode =>
    if 500 ≤ statusCode ∧ statusCode < 600 then transient5xxError
    else if statusCode = 429 then rateLimitedError
    else badRequestError
  | other typeName => .other (.sdkError typeName)

/-- What the SDK of Google raises. -/
inductive GoogleError
  | timeout
  /-- `APIError`; `status` is what is found of `code` and `status_code`, else 0 -/
  | apiError (status : ℤ)
  | other

/-- The `except` clauses of `GoogleVendor.chat`. -/
def GoogleError.translate : GoogleError → ChatError
  | timeout => timeoutError
  | apiError status =>
    if status = 429 then rateLimitedError
    else if status = 401 ∨ status = 403 then authError
    else if 500 ≤ status then transient5xxError
    else badRequestError
  | other => transient5xxError

/-! ## 3. Attributes -/

/-- An attribute of an object of an SDK. -/
inductive Attr (α : Type)
  /-- the object has no such attribute -/
  | missing
  /-- it is `None` -/
  | null
  | value (a : α)

namespace Attr

variable {α : Type}

/-- `obj.name`. -/
def get : Attr α → Except ChatError (Option α)
  | missing => .error (.other .attributeError)
  | null => .ok none
  | value a => .ok (some a)

/-- `getattr(obj, name, None)`. -/
def get? : Attr α → Option α
  | missing => none
  | null => none
  | value a => some a

end Attr

/-- `getattr(obj, name, None)` of a property.  Of what computing it raises, an `AttributeError` is
taken for the absence of the attribute. -/
def getProperty {α : Type} : Except OtherError (Attr α) → Except ChatError (Option α)
  | .ok a => .ok a.get?
  | .error .attributeError => .ok none
  | .error e => .error (.other e)

/-- `getattr(obj, name, 0) or 0`, for an `obj` that may be `None`. -/
def countOf {α : Type} (obj : Option α) (name : α → Attr ℤ) : ℤ :=
  (obj.bind fun o => (name o).get?).getD 0

/-- `None` has none of the attributes that are read. -/
def deref {α : Type} : Option α → Except ChatError α
  | none => .error (.other .attributeError)
  | some a => .ok a

/-- `ChatResult(...)`: the token counts are not negative. -/
def chatResult (text : PyStr) (finishReason : Option PyStr) (inputTokens outputTokens : ℤ)
    (vendorRequestId : Option PyStr) : Except ChatError ChatResult :=
  if 0 ≤ inputTokens ∧ 0 ≤ outputTokens then
    .ok ⟨text, finishReason, inputTokens.toNat, outputTokens.toNat, vendorRequestId⟩
  else .error (.other .validationError)

/-! ## 4. `OpenAIVendor` -/

structure OpenAIMessage where
  content : Attr PyStr

structure OpenAIChoice where
  finishReason : Attr PyStr
  message : Attr OpenAIMessage

structure OpenAIUsage where
  promptTokens : Attr ℤ
  completionTokens : Attr ℤ

/-- What `chat.completions.create` returns. -/
structure OpenAIResponse where
  choices : Attr (List OpenAIChoice)
  usage : Attr OpenAIUsage
  id : Attr PyStr

/-- `choices[0]`. -/
def firstChoice : Option (List OpenAIChoice) → Except ChatError OpenAIChoice
  | none => .error (.other .typeError)
  | some [] => .error (.other .indexError)
  | some (choice :: _) => .ok choice

/-- What `OpenAIVendor.chat` does with the response. -/
def OpenAIResponse.decode (resp : OpenAIResponse) : Except ChatError ChatResult := do
  let choice ← firstChoice (← resp.choices.get)
  let finish ← choice.finishReason.get
  if finish = some (PyStr.of "content_filter") then throw contentFilteredError
  else
    let message ← deref (← choice.message.get)
    let content ← message.content.get
    let usage ← resp.usage.get
    chatResult (content.getD (PyStr.of "")) finish (countOf usage OpenAIUsage.promptTokens)
      (countOf usage OpenAIUsage.completionTokens) resp.id.get?

/-- `OpenAIVendor.chat`, from its await on. -/
def openaiChat : Except SdkError OpenAIResponse → Except ChatError ChatResult
  | .error e => .error e.translate
  | .ok resp => resp.decode

/-! ## 5. `AnthropicVendor` -/

structure AnthropicBlock where
  type : Attr PyStr
  text : Attr PyStr

structure AnthropicUsage where
  inputTokens : Attr ℤ
  outputTokens : Attr ℤ

/-- What `messages.create` returns. -/
structure AnthropicResponse where
  content : Attr (List AnthropicBlock)
  stopReason : Attr PyStr
  usage : Attr AnthropicUsage
  id : Attr PyStr

/-- `for block in content`. -/
def iterBlocks : Option (List AnthropicBlock) → Except ChatError (List AnthropicBlock)
  | none => .error (.other .typeError)
  | some blocks => .ok blocks

/-- The concatenated text blocks. -/
def blocksText (blocks : List AnthropicBlock) : PyStr :=
  PyStr.join ((blocks.filter fun b => b.type.get? = some (PyStr.of "text")).map fun b =>
    b.text.get?.getD (PyStr.of ""))

/-- What `AnthropicVendor.chat` does with the response. -/
def AnthropicResponse.decode (resp : AnthropicResponse) : Except ChatError ChatResult := do
  let blocks ← iterBlocks (← resp.content.get)
  let stopReason ← resp.stopReason.get
  if stopReason = some (PyStr.of "refusal") then throw contentFilteredError
  else
    let usage ← resp.usage.get
    chatResult (blocksText blocks) stopReason (countOf usage AnthropicUsage.inputTokens)
      (countOf usage AnthropicUsage.outputTokens) resp.id.get?

/-- `AnthropicVendor.chat`, from its await on. -/
def anthropicChat : Except SdkError AnthropicResponse → Except ChatError ChatResult
  | .error e => .error e.translate
  | .ok resp => resp.decode

/-! ## 6. `GoogleVendor` -/

/-- `finish_reason and "SAFETY" in finish_reason.upper()`. -/
def isSafety (upper : PyStr → PyStr) (reason : PyStr) : Bool :=
  reason ≠ PyStr.of "" && occursIn (PyStr.of "SAFETY").points (upper reason).points

structure GooglePart where
  text : Attr PyStr

structure GoogleCandidateContent where
  parts : Attr (List GooglePart)

/-- `finishReason` is `str(...)` of what is there. -/
structure GoogleCandidate where
  content : Attr GoogleCandidateContent
  finishReason : Attr PyStr

structure GoogleUsage where
  promptTokenCount : Attr ℤ
  candidatesTokenCount : Attr ℤ

/-- What `generate_content` returns.  `text` is a property: it raises `ValueError` when a part of
the first candidate is no text. -/
structure GoogleResponse where
  text : Except OtherError (Attr PyStr)
  candidates : Attr (List GoogleCandidate)
  usageMetadata : Attr GoogleUsage
  responseId : Attr PyStr

namespace GoogleResponse

variable (resp : GoogleResponse)

/-- `getattr(resp, "candidates", []) or []`. -/
def candidateList : List GoogleCandidate := resp.candidates.get?.getD []

/-- The text that was read, or else the texts of all parts of all candidates. -/
def joinedText : Option PyStr → PyStr
  | some text => text
  | none => PyStr.join (resp.candidateList.flatMap fun cand =>
      (((cand.content.get?.bind fun c => c.parts.get?).getD []).filterMap fun part =>
        part.text.get?))

/-- The finish reason of the first candidate. -/
def finishReason : Option PyStr := resp.candidateList.head?.bind fun cand => cand.finishReason.get?

/-- What `GoogleVendor.chat` does with the response; `upper` is `str.upper`. -/
def decode (upper : PyStr → PyStr) : Except ChatError ChatResult := do
  let text ← getProperty resp.text
  if resp.finishReason.any (isSafety upper) then throw contentFilteredError
  else
    let usage := resp.usageMetadata.get?
    chatResult (resp.joinedText text) resp.finishReason (countOf usage GoogleUsage.promptTokenCount)
      (countOf usage GoogleUsage.candidatesTokenCount) resp.responseId.get?

end GoogleResponse

/-- `GoogleVendor.chat`, from its await on. -/
def googleChat (upper : PyStr → PyStr) :
    Except GoogleError GoogleResponse → Except ChatError ChatResult
  | .error e => .error e.translate
  | .ok resp => resp.decode upper

end Librouter
