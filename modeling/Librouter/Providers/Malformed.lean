/-
# Malformed responses

The design notes want a malformed response treated as `Transient5xx`, with failover.  But the
decoding is outside the `try` of `chat`, so what goes wrong in it is no `ProviderError`:
`IndexError` for a response without choices, `AttributeError` and `TypeError` for what is not there,
`ValidationError` for a negative token count, and the `ValueError` of Google's SDK for the `text` of
a response with a part that is no text.  The router does not catch these, and answers 500.

`VendorResponse.WellFormed` says of which responses that is not so (`adapterLaw_iff`).  The only
`ProviderError` of the decoding is the content filter's, which is not retryable
(`nonRetryable_of_decode`).
-/
import Librouter.Providers
import Librouter.Router

namespace Librouter

/-! ## 1. The law -/

/-- A response of one of the three SDKs. -/
inductive VendorResponse
  | openai (resp : OpenAIResponse)
  | anthropic (resp : AnthropicResponse)
  | google (resp : GoogleResponse)

/-- `chat`, when the call of the SDK has succeeded; `upper` is `str.upper`. -/
def VendorResponse.chat (upper : PyStr → PyStr) : VendorResponse → Except ChatError ChatResult
  | openai resp => openaiChat (.ok resp)
  | anthropic resp => anthropicChat (.ok resp)
  | google resp => googleChat upper (.ok resp)

/-- What `route` sees of it: a reply, or an exception that it does not catch. -/
def replyEvent (now : ℚ) : Except ChatError ChatResult → RouteEvent
  | .ok result => .replied (.ok result) now
  | .error (.provider e) => .replied (.error e) now
  | .error (.other _) => .failed

/-- `chat` returns a `ChatResult` or raises a `ProviderError`, and so `route` goes on, if it can make
a record of the attempt. -/
structure AdapterLaw (outcome : Except ChatError ChatResult) : Prop where
  normal : (∃ result, outcome = .ok result) ∨ ∃ e, outcome = .error (.provider e)
  goesOn : ∀ (router : Router) (t t' : RouteTask) (cand : CandidateRef) (t0 timeout now : ℚ),
    t.pc = .chatting cand t0 timeout → t.req.traceRaises = false →
      t.step router (replyEvent now outcome) = some t' → t'.pc ≠ .finished .crashed

/-- It is enough that no other exception is raised. -/
theorem adapterLaw_iff_forall {outcome : Except ChatError ChatResult} :
    AdapterLaw outcome ↔ ∀ e, outcome ≠ .error (.other e) := by
  constructor
  · rintro h e rfl
    rcases h.normal with ⟨result, heq⟩ | ⟨e', heq⟩
    · cases heq
    · cases heq
  · intro h
    refine ⟨?_, fun router t t' cand t0 timeout now hpc htrace hstep => ?_⟩
    · cases outcome with
      | ok result => exact Or.inl ⟨result, rfl⟩
      | error e =>
        cases e with
        | provider e => exact Or.inr ⟨e, rfl⟩
        | other e => exact absurd rfl (h e)
    · cases outcome with
      | ok result =>
        simp only [replyEvent, RouteTask.step, hpc, Option.some.injEq] at hstep
        rw [← hstep]
        intro hcrash
        cases hcrash
      | error e =>
        cases e with
        | provider e =>
          simp only [replyEvent, RouteTask.step, hpc, Router.recordRaises_zero, htrace,
            Bool.false_eq_true, if_false, Option.some.injEq] at hstep
          rw [← hstep]
          intro hcrash
          cases hcrash
        | other e => exact absurd rfl (h e)

/-! ## 2. The steps of the decoding -/

/-- No other exception than a `ProviderError`. -/
def NoOther {α : Type} (x : Except ChatError α) : Prop := ∀ e, x ≠ .error (.other e)

section Steps

variable {α β : Type} {f : α → Except ChatError β}

theorem noOther_get_bind_iff (a : Attr α) {f : Option α → Except ChatError β} :
    NoOther (a.get >>= f) ↔ a ≠ .missing ∧ NoOther (f a.get?) := by
  cases a with
  | missing =>
    refine ⟨fun h => absurd rfl (h .attributeError), fun h => absurd rfl h.1⟩
  | null => exact ⟨fun h => ⟨nofun, h⟩, And.right⟩
  | value a => exact ⟨fun h => ⟨nofun, h⟩, And.right⟩

theorem noOther_getProperty_bind_iff (a : Except OtherError (Attr α))
    {f : Option α → Except ChatError β} : NoOther (getProperty a >>= f) ↔
      ∃ x, getProperty a = .ok x ∧ NoOther (f x) := by
  cases h : getProperty a with
  | ok x => exact ⟨fun hno => ⟨x, rfl, hno⟩, fun ⟨_, hx, hno⟩ => Except.ok.inj hx ▸ hno⟩
  | error e =>
    have hother : ∃ e', e = .other e' := by
      unfold getProperty at h
      split at h <;> cases h
      exact ⟨_, rfl⟩
    obtain ⟨e', rfl⟩ := hother
    exact ⟨fun hno => absurd rfl (hno e'), nofun⟩

theorem noOther_deref_bind_iff (o : Option α) :
    NoOther (deref o >>= f) ↔ ∃ a, o = some a ∧ NoOther (f a) := by
  cases o with
  | none => exact ⟨fun h => absurd rfl (h .attributeError), nofun⟩
  | some a => exact ⟨fun h => ⟨a, rfl, h⟩, fun ⟨_, ha, h⟩ => Option.some.inj ha ▸ h⟩

theorem noOther_firstChoice_bind_iff (o : Option (List OpenAIChoice))
    {f : OpenAIChoice → Except ChatError β} : NoOther (firstChoice o >>= f) ↔
      ∃ choice rest, o = some (choice :: rest) ∧ NoOther (f choice) := by
  match o with
  | none => exact ⟨fun h => absurd rfl (h .typeError), nofun⟩
  | some [] => exact ⟨fun h => absurd rfl (h .indexError), nofun⟩
  | some (choice :: rest) =>
    refine ⟨fun h => ⟨choice, rest, rfl, h⟩, ?_⟩
    rintro ⟨_, _, heq, h⟩
    cases heq
    exact h

theorem noOther_iterBlocks_bind_iff (o : Option (List AnthropicBlock))
    {f : List AnthropicBlock → Except ChatError β} : NoOther (iterBlocks o >>= f) ↔
      ∃ blocks, o = some blocks ∧ NoOther (f blocks) := by
  cases o with
  | none => exact ⟨fun h => absurd rfl (h .typeError), nofun⟩
  | some blocks => exact ⟨fun h => ⟨blocks, rfl, h⟩, fun ⟨_, ha, h⟩ => Option.some.inj ha ▸ h⟩

/-- The content filter raises a `ProviderError`. -/
theorem noOther_filter_iff {p : Prop} [Decidable p] (x : Except ChatError α) :
    NoOther (if p then throw contentFilteredError else x) ↔ p ∨ NoOther x := by
  by_cases hp : p
  · rw [if_pos hp]
    exact ⟨fun _ => Or.inl hp, fun _ _ h => by cases h⟩
  · rw [if_neg hp]
    exact ⟨Or.inr, fun h => h.resolve_left hp⟩

theorem noOther_chatResult_iff (text : PyStr) (finishReason : Option PyStr)
    (inputTokens outputTokens : ℤ) (id : Option PyStr) :
    NoOther (chatResult text finishReason inputTokens outputTokens id) ↔
      0 ≤ inputTokens ∧ 0 ≤ outputTokens := by
  unfold chatResult
  split
  · rename_i h
    exact ⟨fun _ => h, fun _ _ heq => by cases heq⟩
  · rename_i h
    exact ⟨fun hno => absurd rfl (hno .validationError), fun hpos => absurd hpos h⟩

/-- A count that is there is not negative. -/
def Attr.NonNeg (a : Attr ℤ) : Prop := ∀ n, a = .value n → 0 ≤ n

theorem countOf_nonneg_iff (usage : Attr α) (name : α → Attr ℤ) :
    0 ≤ countOf usage.get? name ↔ ∀ u, usage = .value u → (name u).NonNeg := by
  cases usage with
  | missing => exact ⟨fun _ => nofun, fun _ => le_refl _⟩
  | null => exact ⟨fun _ => nofun, fun _ => le_refl _⟩
  | value u =>
    have hname : 0 ≤ countOf (some u) name ↔ (name u).NonNeg := by
      unfold countOf
      cases hn : name u with
      | missing => exact ⟨fun _ => by simp [Attr.NonNeg], fun _ => by simp [Attr.get?, hn]⟩
      | null => exact ⟨fun _ => by simp [Attr.NonNeg], fun _ => by simp [Attr.get?, hn]⟩
      | value n => simp [Attr.NonNeg, Attr.get?, hn]
    refine hname.trans ⟨fun h u' hu' => ?_, fun h => h u rfl⟩
    cases hu'
    exact h

end Steps

/-! ## 3. Well-formed responses -/

/-- Neither token count is negative, if it is there. -/
def CountsOk {α : Type} (usage : Attr α) (input output : α → Attr ℤ) : Prop :=
  ∀ u, usage = .value u → (input u).NonNeg ∧ (output u).NonNeg

theorem countsOk_iff {α : Type} (usage : Attr α) (input output : α → Attr ℤ) :
    CountsOk usage input output ↔
      0 ≤ countOf usage.get? input ∧ 0 ≤ countOf usage.get? output := by
  rw [countOf_nonneg_iff, countOf_nonneg_iff]
  exact ⟨fun h => ⟨fun u hu => (h u hu).1, fun u hu => (h u hu).2⟩,
    fun h u hu => ⟨h.1 u hu, h.2 u hu⟩⟩

/-- There is a choice with a finish reason, if only `None`; and unless that is the content filter's,
the choice has a message with a content, and the response a usage, if only `None`. -/
def OpenAIResponse.WellFormed (resp : OpenAIResponse) : Prop :=
  ∃ choice rest, resp.choices = .value (choice :: rest) ∧ choice.finishReason ≠ .missing ∧
    (choice.finishReason = .value (PyStr.of "content_filter") ∨
      ∃ message, choice.message = .value message ∧ message.content ≠ .missing ∧
        resp.usage ≠ .missing ∧
        CountsOk resp.usage OpenAIUsage.promptTokens OpenAIUsage.completionTokens)

/-- There is a list of blocks, and a stop reason, if only `None`; and unless that is a refusal, a
usage, if only `None`. -/
def AnthropicResponse.WellFormed (resp : AnthropicResponse) : Prop :=
  ∃ blocks, resp.content = .value blocks ∧ resp.stopReason ≠ .missing ∧
    (resp.stopReason = .value (PyStr.of "refusal") ∨ resp.usage ≠ .missing ∧
      CountsOk resp.usage AnthropicUsage.inputTokens AnthropicUsage.outputTokens)

/-- Computing the property raises nothing, or what is taken for the absence of the attribute. -/
def CanRead {α : Type} (a : Except OtherError (Attr α)) : Prop :=
  ∀ e, a = .error e → e = .attributeError

theorem canRead_iff {α : Type} (a : Except OtherError (Attr α)) :
    CanRead a ↔ ∃ x, getProperty a = .ok x := by
  match a with
  | .ok a => exact ⟨fun _ => ⟨_, rfl⟩, fun _ => nofun⟩
  | .error e =>
    unfold CanRead
    cases e <;> simp [getProperty]

/-- The text can be read; and the first candidate was stopped for safety, or the token counts are
not negative. -/
def GoogleResponse.WellFormed (upper : PyStr → PyStr) (resp : GoogleResponse) : Prop :=
  CanRead resp.text ∧
  ((∃ cand rest reason, resp.candidates = .value (cand :: rest) ∧
    cand.finishReason = .value reason ∧ isSafety upper reason = true) ∨
    CountsOk resp.usageMetadata GoogleUsage.promptTokenCount GoogleUsage.candidatesTokenCount)

def VendorResponse.WellFormed (upper : PyStr → PyStr) : VendorResponse → Prop
  | openai resp => resp.WellFormed
  | anthropic resp => resp.WellFormed
  | google resp => resp.WellFormed upper

theorem Attr.get?_eq_some_iff {α : Type} {a : Attr α} {x : α} :
    a.get? = some x ↔ a = .value x := by
  cases a with
  | missing => exact ⟨nofun, nofun⟩
  | null => exact ⟨nofun, nofun⟩
  | value y => simp [get?]

/-- What has a value is there. -/
theorem Attr.ne_missing_and_iff {α : Type} {a : Attr α} {P : α → Prop} :
    (a ≠ .missing ∧ ∃ x, a = .value x ∧ P x) ↔ ∃ x, a = .value x ∧ P x := by
  refine and_iff_right_of_imp ?_
  rintro ⟨x, rfl, -⟩ hmissing
  cases hmissing

theorem OpenAIResponse.noOther_decode_iff (resp : OpenAIResponse) :
    NoOther resp.decode ↔ resp.WellFormed := by
  unfold decode WellFormed
  rw [noOther_get_bind_iff, noOther_firstChoice_bind_iff]
  simp only [noOther_get_bind_iff, noOther_filter_iff, noOther_deref_bind_iff,
    noOther_chatResult_iff, ← countsOk_iff, Attr.get?_eq_some_iff, Attr.ne_missing_and_iff]
  refine and_iff_right_of_imp ?_
  rintro ⟨choice, rest, hchoices, -⟩ hmissing
  rw [hchoices] at hmissing
  cases hmissing

theorem AnthropicResponse.noOther_decode_iff (resp : AnthropicResponse) :
    NoOther resp.decode ↔ resp.WellFormed := by
  unfold decode WellFormed
  rw [noOther_get_bind_iff, noOther_iterBlocks_bind_iff]
  simp only [noOther_get_bind_iff, noOther_filter_iff, noOther_chatResult_iff, ← countsOk_iff,
    Attr.get?_eq_some_iff, Attr.ne_missing_and_iff]

theorem GoogleResponse.noOther_decode_iff (upper : PyStr → PyStr) (resp : GoogleResponse) :
    NoOther (resp.decode upper) ↔ resp.WellFormed upper := by
  have hsafety : resp.finishReason.any (isSafety upper) = true ↔
      ∃ cand rest reason, resp.candidates = .value (cand :: rest) ∧
        cand.finishReason = .value reason ∧ isSafety upper reason = true := by
    rw [finishReason, candidateList]
    cases hcand : resp.candidates with
    | missing => simp [Attr.get?]
    | null => simp [Attr.get?]
    | value l =>
      cases l with
      | nil => simp [Attr.get?]
      | cons cand rest =>
        simp only [Attr.get?, Option.getD_some, List.head?_cons, Option.bind_some,
          Option.any_eq_true]
        constructor
        · rintro ⟨reason, hreason, hsafety⟩
          exact ⟨cand, rest, reason, rfl, Attr.get?_eq_some_iff.mp hreason, hsafety⟩
        · rintro ⟨cand', rest', reason, heq, hreason, hsafety⟩
          cases heq
          exact ⟨reason, Attr.get?_eq_some_iff.mpr hreason, hsafety⟩
  have hrest : ∀ text, NoOther (if resp.finishReason.any (isSafety upper) then
        throw contentFilteredError
      else chatResult (resp.joinedText text) resp.finishReason
        (countOf resp.usageMetadata.get? GoogleUsage.promptTokenCount)
        (countOf resp.usageMetadata.get? GoogleUsage.candidatesTokenCount)
        resp.responseId.get?) ↔ _ :=
    fun text => (noOther_filter_iff _).trans
      (or_congr hsafety ((noOther_chatResult_iff _ _ _ _ _).trans (countsOk_iff _ _ _).symm))
  unfold decode WellFormed
  rw [noOther_getProperty_bind_iff, canRead_iff]
  constructor
  · rintro ⟨x, hx, hno⟩
    exact ⟨⟨x, hx⟩, (hrest x).mp hno⟩
  · rintro ⟨⟨x, hx⟩, hok⟩
    exact ⟨x, hx, (hrest x).mpr hok⟩

/-! ## 4. When the law holds -/

/-- **The adapters obey the law on well-formed responses, and on no others.** -/
theorem adapterLaw_iff (upper : PyStr → PyStr) (resp : VendorResponse) :
    AdapterLaw (resp.chat upper) ↔ resp.WellFormed upper := by
  rw [adapterLaw_iff_forall]
  cases resp with
  | openai resp => exact resp.noOther_decode_iff
  | anthropic resp => exact resp.noOther_decode_iff
  | google resp => exact resp.noOther_decode_iff upper

/-- Of the `ProviderError`s only the content filter's is raised. -/
def OnlyFiltered {α : Type} (x : Except ChatError α) : Prop :=
  ∀ e, x = .error (.provider e) → .provider e = contentFilteredError

section OnlyFiltered

variable {α β : Type} {f : α → Except ChatError β}

theorem OnlyFiltered.bind {x : Except ChatError α} (hx : OnlyFiltered x)
    (hf : ∀ a, OnlyFiltered (f a)) : OnlyFiltered (x >>= f) := by
  intro e he
  cases x with
  | error err =>
    obtain rfl : err = .provider e := by
      cases he
      rfl
    exact hx e rfl
  | ok a => exact hf a e he

theorem onlyFiltered_get (a : Attr α) : OnlyFiltered a.get := by
  cases a <;> exact fun _ he => by cases he

theorem onlyFiltered_getProperty (a : Except OtherError (Attr α)) :
    OnlyFiltered (getProperty a) := by
  intro e he
  unfold getProperty at he
  split at he <;> cases he

theorem onlyFiltered_deref (o : Option α) : OnlyFiltered (deref o) := by
  cases o <;> exact fun _ he => by cases he

theorem onlyFiltered_filter {p : Prop} [Decidable p] {x : Except ChatError α}
    (hx : OnlyFiltered x) : OnlyFiltered (if p then throw contentFilteredError else x) := by
  split
  · intro e he
    cases he
    rfl
  · exact hx

theorem onlyFiltered_chatResult (text : PyStr) (finishReason : Option PyStr)
    (inputTokens outputTokens : ℤ) (id : Option PyStr) :
    OnlyFiltered (chatResult text finishReason inputTokens outputTokens id) := by
  unfold chatResult
  split <;> exact fun _ he => by cases he

end OnlyFiltered

/-- **No malformed response is tried elsewhere**: what the decoding raises is not retryable. -/
theorem nonRetryable_of_decode {upper : PyStr → PyStr} {resp : VendorResponse}
    {e : ProviderError} (h : resp.chat upper = .error (.provider e)) : e.nonRetryable = true := by
  have honly : OnlyFiltered (resp.chat upper) := by
    cases resp with
    | openai resp =>
      refine (onlyFiltered_get _).bind fun choices => OnlyFiltered.bind ?_ fun choice =>
        (onlyFiltered_get _).bind fun finish => onlyFiltered_filter <|
          (onlyFiltered_get _).bind fun message => (onlyFiltered_deref _).bind fun message =>
            (onlyFiltered_get _).bind fun content => (onlyFiltered_get _).bind fun usage =>
              onlyFiltered_chatResult _ _ _ _ _
      match choices with
      | none | some [] | some (choice :: rest) => exact fun _ he => by cases he
    | anthropic resp =>
      refine (onlyFiltered_get _).bind fun content => OnlyFiltered.bind ?_ fun blocks =>
        (onlyFiltered_get _).bind fun stopReason => onlyFiltered_filter <|
          (onlyFiltered_get _).bind fun usage => onlyFiltered_chatResult _ _ _ _ _
      cases content <;> exact fun _ he => by cases he
    | google resp =>
      exact (onlyFiltered_getProperty _).bind fun text =>
        onlyFiltered_filter (onlyFiltered_chatResult _ _ _ _ _)
  obtain rfl := ChatError.provider.inj (honly e h)
  rfl

/-- A response of OpenAI without choices. -/
def noChoices : OpenAIResponse := ⟨.value [], .null, .value (PyStr.of "chatcmpl-1")⟩

theorem noChoices_crashes : ¬ ∀ (upper : PyStr → PyStr) (resp : VendorResponse),
    AdapterLaw (resp.chat upper) := by
  intro h
  rcases (h id (.openai noChoices)).normal with ⟨result, heq⟩ | ⟨e, heq⟩
  · cases heq
  · cases heq

end Librouter
