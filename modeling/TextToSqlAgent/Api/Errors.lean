import TextToSqlAgent.Core.Exceptions
import TextToSqlAgent.Core.Python

/-!
# The error model of the API

The published codes, the mapping of the domain exceptions to them, and the
handlers that turn an exception into an envelope.
-/

namespace Errors

open Python Exceptions

/-- What an unexpected exception says to the caller. -/
def genericFailure : String := "the server could not complete this request"

/-- An HTTP status and the `code` string that always accompanies it. -/
structure ErrorCode where
  status : Nat
  code : String
  deriving DecidableEq, Repr

def invalidRequest : ErrorCode := ⟨400, "invalid_request"⟩
def sessionNotFound : ErrorCode := ⟨404, "session_not_found"⟩
def queryTimeout : ErrorCode := ⟨408, "query_timeout"⟩
def payloadTooLarge : ErrorCode := ⟨413, "payload_too_large"⟩
def sqlValidationFailed : ErrorCode := ⟨422, "sql_validation_failed"⟩
def ambiguousQuestion : ErrorCode := ⟨422, "ambiguous_question"⟩
def rateLimited : ErrorCode := ⟨429, "rate_limited"⟩
def internalError : ErrorCode := ⟨500, "internal_error"⟩
def llmUnavailable : ErrorCode := ⟨502, "llm_unavailable"⟩
def databaseUnavailable : ErrorCode := ⟨503, "database_unavailable"⟩
def notReady : ErrorCode := ⟨503, "not_ready"⟩
def notFound : ErrorCode := ⟨404, "not_found"⟩
def methodNotAllowed : ErrorCode := ⟨405, "method_not_allowed"⟩

/-- `_BY_STATUS`: codes for statuses raised as a bare `HTTPException`. -/
def byStatus : List ErrorCode :=
  [invalidRequest, notFound, methodNotAllowed, queryTimeout, payloadTooLarge, rateLimited,
    databaseUnavailable]

/-- A failure a route raises deliberately, with its published code attached. -/
structure ApiError where
  error : ErrorCode
  message : String
  deriving DecidableEq, Repr

/-- The exceptions a route can end with; `http` and `requestValidation` are the
framework's own. -/
inductive Exn
  | api (exc : ApiError)
  | raised (exc : Raised)
  | http (status : Nat)
  | requestValidation
  deriving DecidableEq, Repr

/-- The one error shape. -/
structure Envelope where
  status : Nat
  code : String
  message : String
  requestId : String
  deriving DecidableEq, Repr

def envelope (error : ErrorCode) (message requestId : String) : Envelope :=
  ⟨error.status, error.code, message, requestId⟩

/-- Most specific class first. -/
def codeFor (exc : DomainError) : ErrorCode :=
  let cls := exc.cls
  if cls.isinstance .statementTimeoutError then queryTimeout
  else if cls.isinstance .permissionDeniedError then sqlValidationFailed
  else if cls.isinstance .sqlValidationError then sqlValidationFailed
  else if cls.isinstance .llmQuotaExceededError then rateLimited
  else if cls.isinstance .llmUnavailableError || cls.isinstance .llmError then llmUnavailable
  else if cls.isinstance .retrievalError then ambiguousQuestion
  else if cls.isinstance .configurationError then internalError
  else internalError

/-- The code and the message a caller is allowed to see, for one exception. -/
def published (exc : DomainError) : ErrorCode × String :=
  let error := codeFor exc
  if error = internalError then (internalError, genericFailure) else (error, exc.message)

def requestValidationMessage : String :=
  "the request body or parameters did not match the expected shape"

def httpMessage (status : Nat) : String :=
  if status = 404 then "no route matches this path"
  else if status = 405 then "that method is not allowed on this path"
  else "the request could not be completed"

/-- What the registered handlers answer. -/
def handle (exc : Exn) (requestId : String) : Envelope :=
  match exc with
  | .api exc => envelope exc.error exc.message requestId
  | .raised (.domain exc) => envelope (published exc).1 (published exc).2 requestId
  | .raised (.unexpected _) => envelope internalError genericFailure requestId
  | .http status =>
    let error := (byStatus.find? fun e => e.status == status).getD ⟨status, "request_failed"⟩
    envelope error (httpMessage status) requestId
  | .requestValidation => envelope invalidRequest requestValidationMessage requestId

/-- A message the mapping does not publish is replaced by the generic one. -/
theorem published_message (exc : DomainError) :
    published exc = (internalError, genericFailure) ∨
      published exc = (codeFor exc, exc.message) := by
  by_cases internal : codeFor exc = internalError
  · exact Or.inl (by simp [published, internal])
  · exact Or.inr (by simp [published, internal])

/-- A spent quota is reported as such, not as the failure it derives from. -/
example : codeFor { cls := .llmQuotaExceededError, message := "" } = rateLimited := by decide

end Errors
