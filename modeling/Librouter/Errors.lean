/-
# `errors.py`: the provider error taxonomy

The router tells errors apart in two ways: by `isinstance` (is it final or does the next candidate
get a try?) and by the exact class (which status is recorded?).  So an error is modelled by the
nearest class of the taxonomy and whether it IS of that class or of a subclass.
-/
import Librouter.Models

namespace Librouter

/-- The classes of the taxonomy. -/
inductive ProviderErrorClass
  | providerError
  | rateLimited
  | transient5xx
  | timeout
  | badRequest
  | authError
  | contentFiltered
deriving DecidableEq

/-- A `ProviderError`: an instance of `cls` and of none of its subclasses in the taxonomy. -/
structure ProviderError where
  cls : ProviderErrorClass
  /-- `type(e) is cls` -/
  exact : Bool := true
  /-- `type(e).__name__` -/
  typeName : String
deriving DecidableEq

/-- `_STATUS_FOR_ERROR_KIND`. -/
def statusForErrorKind : ProviderErrorClass → Option String
  | .providerError => none
  | .rateLimited => some "rate_limited"
  | .transient5xx => some "transient_5xx"
  | .timeout => some "timeout"
  | .badRequest => some "bad_request"
  | .authError => some "auth"
  | .contentFiltered => some "content_filtered"

/-- `_STATUS_FOR_ERROR_KIND.get(type(e), "transient_5xx")`. -/
def ProviderError.status (e : ProviderError) : String :=
  if e.exact then (statusForErrorKind e.cls).getD "transient_5xx" else "transient_5xx"

/-- `isinstance(e, (BadRequest, AuthError, ContentFiltered))`: no failover. -/
def ProviderError.nonRetryable (e : ProviderError) : Bool :=
  e.cls = .badRequest || e.cls = .authError || e.cls = .contentFiltered

/-- `caller_error_for`: HTTP status and body; the messages are fixed. -/
def callerErrorFor (e : ProviderError) : ℕ × ErrorBody :=
  match e.cls with
  | .badRequest =>
    (400, { type := "invalid_request", message := "request rejected by upstream provider" })
  | .authError => (401, { type := "auth", message := "authentication failed" })
  | .contentFiltered =>
    (400, { type := "content_filtered", message := "content filtered by upstream provider" })
  | _ => (500, { type := "internal", message := "upstream error" })

end Librouter
