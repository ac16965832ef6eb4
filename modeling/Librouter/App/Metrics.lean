/-
# The `/metrics` gate

The endpoint wants `Authorization: Bearer` with the token that the secrets manager has, and compares
the two with `hmac.compare_digest`.  That function raises when one of its arguments has a character
that is not ASCII, and the token is stripped on the side of the header only.  So the gate can answer
500 before it has decided, and a token with white space around it opens it never.

`gateLaw_iff` says for which tokens and headers the gate does what it should.
-/
import Librouter.Secrets
import Librouter.Python

namespace Librouter

/-! ## 1. The gate -/

/-- `_METRICS_TOKEN_KEY`. -/
def metricsTokenKey : String := "GATEWAY_METRICS_TOKEN"

/-- Only ASCII characters. -/
def isAscii (s : String) : Bool := s.toList.all fun c => c.toNat < 128

/-- `hmac.compare_digest` of two strings: `none` for the `TypeError`. -/
def compareDigest (a b : String) : Option Bool :=
  if isAscii a && isAscii b then some (a = b) else none

/-- What is provided by the header. -/
def providedToken : Option String → String
  | none => ""
  | some authorization =>
    if "Bearer ".toList.isPrefixOf authorization.toList then
      strip (String.ofList (authorization.toList.drop "Bearer ".length))
    else ""

/-- How the endpoint goes on, or ends. -/
inductive GateAnswer
  /-- the request is let in, to the rendering of the metrics -/
  | ok
  /-- 401, `metrics auth required` -/
  | unauthorized
  /-- an exception leaves the endpoint -/
  | raised
deriving DecidableEq

/-- `metrics`, up to its decision. -/
def metrics (mode : SecretsMode) (env : Env) (authorization : Option String) : GateAnswer :=
  match secretsGet mode env metricsTokenKey with
  | none => .unauthorized
  | some expected =>
    match compareDigest expected (providedToken authorization) with
    | none => .raised
    | some true => .ok
    | some false => .unauthorized

/-! ## 2. When the gate is right -/

/-- The header is `Bearer ` and the token, with white space around it. -/
def Presents (token : String) (authorization : Option String) : Prop :=
  ∃ pre post, Blank pre ∧ Blank post ∧ authorization =
    some ("Bearer " ++ String.ofList (pre ++ (token.toList ++ post)))

/-- The gate accepts the token and nothing else, and does not raise. -/
structure GateLaw (token : String) (authorization : Option String) (answer : GateAnswer) :
    Prop where
  accepts : answer = .ok ↔ Presents token authorization
  rejects : ¬ Presents token authorization → answer = .unauthorized
  decides : answer ≠ .raised

theorem gateLaw_ok {token : String} {authorization : Option String}
    (h : Presents token authorization) : GateLaw token authorization .ok where
  accepts := ⟨fun _ => h, fun _ => rfl⟩
  rejects := fun hnot => absurd h hnot
  decides := by decide

theorem gateLaw_unauthorized {token : String} {authorization : Option String}
    (h : ¬ Presents token authorization) : GateLaw token authorization .unauthorized where
  accepts := ⟨fun hok => absurd hok (by decide), fun hpresents => absurd hpresents h⟩
  rejects := fun _ => rfl
  decides := by decide

theorem providedToken_bearer (rest : String) :
    providedToken (some ("Bearer " ++ rest)) = strip rest := by
  have hlist : ("Bearer " ++ rest).toList = "Bearer ".toList ++ rest.toList :=
    String.toList_append
  have hpre : "Bearer ".toList.isPrefixOf ("Bearer ".toList ++ rest.toList) = true :=
    List.isPrefixOf_iff_prefix.mpr (List.prefix_append _ _)
  have hdrop : ("Bearer ".toList ++ rest.toList).drop "Bearer ".length = rest.toList := rfl
  rw [providedToken, hlist, if_pos hpre, hdrop, String.ofList_toList]

/-- Any other header provides nothing. -/
theorem providedToken_other {authorization : Option String}
    (h : ∀ rest, authorization ≠ some ("Bearer " ++ rest)) : providedToken authorization = "" := by
  cases authorization with
  | none => rfl
  | some header =>
    refine if_neg fun hpre => ?_
    obtain ⟨rest, hrest⟩ := List.isPrefixOf_iff_prefix.mp hpre
    refine h (String.ofList rest) (congrArg some (String.toList_inj.mp ?_))
    rw [String.toList_append, ← hrest]
    exact congrArg ("Bearer ".toList ++ ·) String.toList_ofList.symm

/-- The token is provided, stripped, by what presents it. -/
theorem Presents.provided {token : String} {authorization : Option String}
    (h : Presents token authorization) : providedToken authorization = strip token := by
  obtain ⟨pre, post, hpre, hpost, rfl⟩ := h
  rw [providedToken_bearer, strip_eq_strip hpre hpost, String.ofList_toList]

/-- What provides the token presents it. -/
theorem presents_of_provided {token : String} {authorization : Option String} (hne : token ≠ "")
    (h : providedToken authorization = token) : Presents token authorization := by
  by_cases hbearer : ∃ rest, authorization = some ("Bearer " ++ rest)
  · obtain ⟨rest, rfl⟩ := hbearer
    rw [providedToken_bearer] at h
    obtain ⟨pre, post, hpre, hpost, hlist⟩ := exists_of_strip rest
    rw [h] at hlist
    exact ⟨pre, post, hpre, hpost, by rw [← hlist, String.ofList_toList]⟩
  · rw [providedToken_other fun rest hrest => hbearer ⟨rest, hrest⟩] at h
    exact absurd h.symm hne

/-- The token is never empty. -/
theorem ne_empty_of_secretsGet {mode : SecretsMode} {env : Env} {token : String}
    (h : secretsGet mode env metricsTokenKey = some token) : token ≠ "" := by
  rw [secretsGet_of_copied mode env (by decide), nonEmpty] at h
  split at h
  · split at h
    · cases h
    · rename_i hne
      cases h
      exact hne
  · cases h

/-- What follows `Bearer ` has only ASCII characters, besides white space around it. -/
def AsciiBearer (authorization : Option String) : Prop :=
  ∀ rest, authorization = some ("Bearer " ++ rest) → isAscii (strip rest) = true

theorem asciiBearer_iff {authorization : Option String} :
    AsciiBearer authorization ↔ isAscii (providedToken authorization) = true := by
  by_cases hbearer : ∃ rest, authorization = some ("Bearer " ++ rest)
  · obtain ⟨rest, rfl⟩ := hbearer
    rw [providedToken_bearer]
    refine ⟨fun h => h rest rfl, fun h rest' hrest' => ?_⟩
    have hlist := congrArg String.toList (Option.some.inj hrest')
    rw [String.toList_append, String.toList_append] at hlist
    have hrest : rest = rest' := String.toList_inj.mp (List.append_cancel_left hlist)
    exact hrest ▸ h
  · have hother : ∀ rest, authorization ≠ some ("Bearer " ++ rest) := fun rest hrest =>
      hbearer ⟨rest, hrest⟩
    rw [providedToken_other hother]
    exact ⟨fun _ => by decide, fun _ rest hrest => absurd hrest (hother rest)⟩

/-- The answer, by what is provided. -/
theorem metrics_eq {mode : SecretsMode} {env : Env} {token : String}
    (h : secretsGet mode env metricsTokenKey = some token) (authorization : Option String) :
    metrics mode env authorization =
      if isAscii token = true ∧ isAscii (providedToken authorization) = true then
        if token = providedToken authorization then .ok else .unauthorized
      else .raised := by
  simp only [metrics, h, compareDigest, Bool.and_eq_true]
  by_cases hascii : isAscii token = true ∧ isAscii (providedToken authorization) = true
  · by_cases heq : token = providedToken authorization
    · simp only [if_pos hascii, if_pos heq, decide_eq_true heq]
    · simp only [if_pos hascii, if_neg heq, decide_eq_false heq]
  · simp only [if_neg hascii]

/-- **The gate is right if and only if** the token and what is provided are ASCII, and the token has
no white space around it, unless the header does not present it. -/
theorem gateLaw_iff {mode : SecretsMode} {env : Env} {token : String}
    (htoken : secretsGet mode env metricsTokenKey = some token) (authorization : Option String) :
    GateLaw token authorization (metrics mode env authorization) ↔
      isAscii token = true ∧ AsciiBearer authorization ∧
        (strip token = token ∨ ¬ Presents token authorization) := by
  have hne := ne_empty_of_secretsGet htoken
  rw [asciiBearer_iff, ← and_assoc, metrics_eq htoken]
  by_cases hascii : isAscii token = true ∧ isAscii (providedToken authorization) = true
  · rw [if_pos hascii]
    by_cases hpresents : Presents token authorization
    · have hprovided := hpresents.provided
      by_cases hstrip : strip token = token
      · rw [if_pos (hstrip.symm.trans hprovided.symm)]
        exact ⟨fun _ => ⟨hascii, Or.inl hstrip⟩, fun _ => gateLaw_ok hpresents⟩
      · rw [if_neg fun heq => hstrip (hprovided.symm.trans heq.symm)]
        refine ⟨fun h => ?_, fun ⟨_, h⟩ => ?_⟩
        · have hok := h.accepts.mpr hpresents
          cases hok
        · rcases h with h | h
          · exact absurd h hstrip
          · exact absurd hpresents h
    · have hdiffer : ¬ token = providedToken authorization := fun heq =>
        hpresents (presents_of_provided hne heq.symm)
      rw [if_neg hdiffer]
      exact ⟨fun _ => ⟨hascii, Or.inr hpresents⟩, fun _ => gateLaw_unauthorized hpresents⟩
  · rw [if_neg hascii]
    exact ⟨fun h => absurd rfl h.decides, fun h => absurd h.1 hascii⟩

/-- The token is `s3cret`. -/
def sampleEnv : Env := fun key => if key = metricsTokenKey then some "s3cret" else none

theorem gateLaw_iff_sample :
    GateLaw "s3cret" (some "Bearer wrong") (metrics .mock sampleEnv (some "Bearer wrong")) := by
  have htoken : secretsGet .mock sampleEnv metricsTokenKey = some "s3cret" := by decide
  refine (gateLaw_iff htoken _).mpr ⟨by decide, ?_, Or.inl (by decide)⟩
  exact asciiBearer_iff.mpr (by decide)

/-- A header with a character that is not ASCII makes the endpoint raise. -/
theorem gate_raises : ¬ ∀ (mode : SecretsMode) (env : Env) (token : String)
    (authorization : Option String), secretsGet mode env metricsTokenKey = some token →
      GateLaw token authorization (metrics mode env authorization) := by
  intro h
  have hlaw := h .env sampleEnv "s3cret" (some "Bearer é") rfl
  exact hlaw.decides (by decide)

end Librouter
