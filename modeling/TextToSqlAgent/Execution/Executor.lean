import TextToSqlAgent.Validation.Validator

/-!
# Running a validated query under limits

`SQLExecutor`: it validates again, injects a row limit into the tree, runs the
printed result and records what happened. Clock readings are left out.
-/

namespace Executor

open Python Syntax Catalog Settings Exceptions Validator

/-- Rows, plus what is needed to explain how they were bounded. -/
structure QueryResult (Cell : Type) where
  columns : List String
  rows : List (List Cell)
  rowCount : Nat
  truncated : Bool
  executedSql : String
  rowLimit : Int
  estimatedCost : Option PyFloat
  deriving DecidableEq, Repr

/-- What a caller says of itself, for the record only. -/
structure Caller where
  question : Option String := none
  requestId : Option String := none
  traceId : Option String := none
  sessionId : Option String := none
  validationAttempts : Int := 1
  deriving DecidableEq, Repr

structure AuditRecord where
  outcome : String
  sql : String
  caller : Caller
  errorType : Option String := none
  rowCount : Option Nat := none
  truncated : Option Bool := none
  deriving DecidableEq, Repr

/-! ## The row limit -/

/-- The query's own `LIMIT`, if it is a plain integer. -/
def existingLimit (statement : Node) : Option Nat :=
  match statement.arg? "limit" with
  | none => none
  | some node =>
    if node.kind ≠ .limit then none
    else
      match (node.arg? "expression").map Node.kind with
      | some (.literal (.integer value)) => some value
      | _ => none

variable (p : Platform)

/-- A query bounded at the tree level: the text to run, the limit in force, and
whether that limit is the server's. -/
structure Bounded where
  sql : String
  effective : Int
  serverCapped : Bool
  deriving DecidableEq, Repr

/-- The limit in force, and whether it is the server's. -/
def effectiveLimit (statement : Node) (maxRows : Int) : Int × Bool :=
  match existingLimit statement with
  | none => (maxRows, true)
  | some existing => (min existing maxRows, decide (maxRows < existing))

/-- The smaller of the query's own limit and the server's wins. One row more is
asked for, to tell a full page from a truncated one. -/
def applyRowLimit (sql : String) (maxRows : Int) : Except DomainError Bounded :=
  match parseOne p sql with
  | none =>
    .error { cls := .executionError
             message := "the query could not be parsed to apply a row limit" }
  | some (.expr _) =>
    .error { cls := .executionError
             message := "the query could not be re-parsed to apply a row limit" }
  | some (.expression statement) =>
    if allowedRoot statement.kind = false then
      .error { cls := .executionError
               message := "the query could not be re-parsed to apply a row limit" }
    else
      let (effective, serverCapped) := effectiveLimit statement maxRows
      .ok ⟨p.sql (statement.limit (effective + 1)), effective, serverCapped⟩

/-! ## Validate, bound, run, record -/

/-- Driver failure to a domain error the agent can branch on. -/
def translate (exc : DriverError) : DomainError :=
  let message := orText exc.messagePrimary "the query could not be executed"
  match exc.sqlstate.getD "" with
  | "57014" => { cls := .statementTimeoutError, message }
  | "42501" => { cls := .permissionDeniedError, message }
  | "25006" => { cls := .permissionDeniedError, message }
  | _ => { cls := .executionError, message }

/-- The exception that stands for a failed validation. -/
def rejection (r : ValidationResult) : DomainError where
  cls := .sqlValidationError
  message := r.feedback
  errorType := some (orText r.errorType "invalid")
  identifier := r.identifier

variable {Cell : Type}

/-- What a call leaves behind: the records it wrote and what it returned or
raised. -/
structure Outcome (α : Type) where
  audit : List AuditRecord
  result : Except Raised α

variable (db : Database Cell) (settings : ExecutionSettings) (catalog : SchemaCatalog)

/-- Validate without running. -/
def explainOnly (sql : String) (caller : Caller) : Outcome Unit :=
  match validate p db settings catalog sql with
  | .error exc => ⟨[], .error exc⟩
  | .ok validation =>
    if validation.valid then ⟨[{ outcome := "explained", sql, caller }], .ok ()⟩
    else
      ⟨[{ outcome := "rejected", sql, caller, errorType := validation.errorType }],
        .error (.domain (rejection validation))⟩

/-- The rows kept of those fetched, and whether the server's limit cut them. -/
def keepRows (bounded : Bounded) (fetched : List (List Cell)) : List (List Cell) × Bool :=
  (fetched.take bounded.effective.toNat,
    decide (bounded.effective < fetched.length) && bounded.serverCapped)

/-- Run a bounded query, and record how it ended. -/
def runBounded (bounded : Bounded) (estimatedCost : Option PyFloat) (timeout : Int)
    (caller : Caller) : Outcome (QueryResult Cell) :=
  match db.query timeout bounded.sql with
  | .error (.other text) => ⟨[], .error (.unexpected text)⟩
  | .error (.driver exc) =>
    let error := translate exc
    ⟨[{ outcome := "error", sql := bounded.sql, caller, errorType := some error.cls.name }],
      .error (.domain error)⟩
  | .ok (columns, fetched) =>
    let (rows, truncated) := keepRows bounded fetched
    ⟨[{ outcome := "success", sql := bounded.sql, caller, rowCount := some rows.length,
        truncated := some truncated }],
      .ok { columns, rows, rowCount := rows.length, truncated, executedSql := bounded.sql,
            rowLimit := bounded.effective, estimatedCost }⟩

/-- Validate, bound, run, and record. -/
def execute (sql : String) (maxRows timeoutMs : Option Int) (caller : Caller) :
    Outcome (QueryResult Cell) :=
  match validate p db settings catalog sql with
  | .error exc => ⟨[], .error exc⟩
  | .ok validation =>
    if validation.valid = false then
      ⟨[{ outcome := "rejected", sql, caller, errorType := validation.errorType }],
        .error (.domain (rejection validation))⟩
    else
      match applyRowLimit p sql (settings.clampRows maxRows) with
      | .error error => ⟨[], .error (.domain error)⟩
      | .ok bounded =>
        runBounded db bounded validation.estimatedCost (settings.clampTimeoutMs timeoutMs) caller

end Executor
