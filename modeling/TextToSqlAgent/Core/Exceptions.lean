import Mathlib.Data.List.Basic

/-!
# The domain exception hierarchy

Every class derives from one other, up to `TextToSQLError`. `isinstance` climbs
that chain, so an `except` clause for a class also catches what derives from it.
-/

namespace Exceptions

inductive ErrorClass
  | textToSQLError
  | configurationError
  | llmError
  | llmUnavailableError
  | llmQuotaExceededError
  | llmResponseError
  | unanswerableQuestionError
  | retrievalError
  | embeddingModelMismatchError
  | sqlValidationError
  | executionError
  | statementTimeoutError
  | permissionDeniedError
  | profilingError
  | unknownTableError
  | benchmarkError
  | artifactIntegrityError
  | unsafeArchiveError
  | unsafeIdentifierError
  | conversionError
  | agentError
  | budgetExhaustedError
  deriving DecidableEq, Repr

namespace ErrorClass

/-- The class it derives from. -/
def base : ErrorClass → Option ErrorClass
  | textToSQLError => none
  | configurationError => some textToSQLError
  | llmError => some textToSQLError
  | llmUnavailableError => some llmError
  | llmQuotaExceededError => some llmUnavailableError
  | llmResponseError => some llmError
  | unanswerableQuestionError => some llmResponseError
  | retrievalError => some textToSQLError
  | embeddingModelMismatchError => some retrievalError
  | sqlValidationError => some textToSQLError
  | executionError => some textToSQLError
  | statementTimeoutError => some executionError
  | permissionDeniedError => some executionError
  | profilingError => some textToSQLError
  | unknownTableError => some profilingError
  | benchmarkError => some textToSQLError
  | artifactIntegrityError => some benchmarkError
  | unsafeArchiveError => some benchmarkError
  | unsafeIdentifierError => some benchmarkError
  | conversionError => some benchmarkError
  | agentError => some textToSQLError
  | budgetExhaustedError => some agentError

/-- `type(exc).__name__`. -/
def name : ErrorClass → String
  | textToSQLError => "TextToSQLError"
  | configurationError => "ConfigurationError"
  | llmError => "LLMError"
  | llmUnavailableError => "LLMUnavailableError"
  | llmQuotaExceededError => "LLMQuotaExceededError"
  | llmResponseError => "LLMResponseError"
  | unanswerableQuestionError => "UnanswerableQuestionError"
  | retrievalError => "RetrievalError"
  | embeddingModelMismatchError => "EmbeddingModelMismatchError"
  | sqlValidationError => "SQLValidationError"
  | executionError => "ExecutionError"
  | statementTimeoutError => "StatementTimeoutError"
  | permissionDeniedError => "PermissionDeniedError"
  | profilingError => "ProfilingError"
  | unknownTableError => "UnknownTableError"
  | benchmarkError => "BenchmarkError"
  | artifactIntegrityError => "ArtifactIntegrityError"
  | unsafeArchiveError => "UnsafeArchiveError"
  | unsafeIdentifierError => "UnsafeIdentifierError"
  | conversionError => "ConversionError"
  | agentError => "AgentError"
  | budgetExhaustedError => "BudgetExhaustedError"

def derives : Nat → ErrorClass → ErrorClass → Bool
  | 0, c, d => c == d
  | n + 1, c, d => c == d || match c.base with
    | none => false
    | some b => derives n b d

/-- `isinstance(exc, cls)`, for an exception of class `c`. No class is more
than three steps below the root. -/
def isinstance (c cls : ErrorClass) : Bool := derives 3 c cls

theorem isinstance_root (c : ErrorClass) : isinstance c textToSQLError = true := by
  cases c <;> decide

end ErrorClass

/-- A domain exception: its class, `str(exc)`, and the attributes
`SQLValidationError` carries. -/
structure DomainError where
  cls : ErrorClass
  message : String
  errorType : Option String := none
  identifier : Option String := none
  deriving DecidableEq, Repr

/-- What an `except` clause sees: an exception of the hierarchy, or any other,
of which the text is kept. -/
inductive Raised
  | domain (e : DomainError)
  | unexpected (text : String)
  deriving DecidableEq, Repr

end Exceptions
