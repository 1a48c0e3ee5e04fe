import TextToSqlAgent.Api.Errors
import TextToSqlAgent.Api.SseEvent
import TextToSqlAgent.Execution.Executor

/-!
# `POST /v1/query`

The work behind a question, the events it reports while streaming, and the two
ways its result is answered. Durations are left out. The answerer and the
database are parameters, so that every result and every exception at every
stage is covered.
-/

namespace Query

open Python Catalog Settings Exceptions Validator Executor Errors SseEvent

/-- Per-request bounds. -/
structure QueryOptions where
  maxRows : Option Int := none
  timeoutMs : Option Int := none
  explainOnly : Bool := false
  rows_pos : ∀ n ∈ maxRows, 1 ≤ n := by simp
  timeout_pos : ∀ n ∈ timeoutMs, 1 ≤ n := by simp

def QueryOptions.default : QueryOptions := {}

structure QueryRequest where
  question : String
  stream : Bool := false
  options : QueryOptions := .default
  asked : 1 ≤ question.length ∧ question.length ≤ 2000

/-- One phase of answering. -/
structure QueryStep where
  stage : String
  status : String
  deriving DecidableEq, Repr

structure Usage where
  inputTokens : Nat := 0
  outputTokens : Nat := 0
  deriving DecidableEq, Repr

/-- Generated SQL, with what it cost. -/
structure Candidate where
  sql : String
  usage : Usage := {}
  deriving DecidableEq, Repr

/-- The two phases of `QuestionAnswerer.candidate`. -/
structure QuestionAnswerer (Context : Type) where
  retrieve : String → Except Exn Context
  generate : String → Context → Except Exn Candidate

/-- What the service was built with. -/
structure QueryService (Context Cell : Type) where
  answerer : QuestionAnswerer Context
  platform : Platform
  database : Database Cell
  settings : ExecutionSettings
  catalog : SchemaCatalog

structure Answer (Cell : Type) where
  candidate : Candidate
  result : Option (QueryResult Cell)
  steps : List QueryStep

/-- The events of a stream, with their payloads. -/
inductive Event (Cell : Type)
  | stage (stage status : String)
  | sql (sql : String) (attempt : Nat)
  | rows (columns : List String) (rows : List (List Cell)) (truncated : Bool)
  | done (rowCount : Nat) (executed : Bool) (steps : List QueryStep) (usage : Usage)
  | error (code message requestId : String)
  deriving DecidableEq, Repr

variable {Context Cell : Type}

def Event.name : Event Cell → String
  | .stage _ _ => "stage"
  | .sql _ _ => "sql"
  | .rows _ _ _ => "rows"
  | .done _ _ _ _ => "done"
  | .error _ _ _ => "error"

theorem Event.name_legal (e : Event Cell) : legalEventName e.name = true := by
  cases e <;> simp only [Event.name] <;> decide

/-- The event as it is framed. -/
def Event.framed (e : Event Cell) : ServerSentEvent (Event Cell) where
  event := e.name
  data := e
  legal := e.name_legal

/-- An event after which nothing is owed to the client. -/
def Event.terminal : Event Cell → Bool
  | .done _ _ _ _ => true
  | .error _ _ _ => true
  | _ => false

/-- What the work left behind when it ended: the events it reported, the steps
it timed, and its answer or exception. -/
structure Work (Cell : Type) where
  events : List (Event Cell)
  steps : List QueryStep
  outcome : Except Exn (Answer Cell)

/-- A timed step that came to an end with `status`. -/
def timed (stage : String) {α : Type} (outcome : Except Exn α) : QueryStep :=
  ⟨stage, match outcome with | .ok _ => "ok" | .error _ => "error"⟩

def liftRaised {α : Type} : Except Raised α → Except Exn α
  | .ok a => .ok a
  | .error exc => .error (.raised exc)

variable (service : QueryService Context Cell)

/-- Validate the candidate and stop. -/
def explainCandidate (candidate : Candidate) (events : List (Event Cell))
    (steps : List QueryStep) : Work Cell :=
  let outcome := liftRaised (explainOnly service.platform service.database service.settings
    service.catalog candidate.sql {}).result
  let steps := steps ++ [timed "validate" outcome]
  match outcome with
  | .error exc => ⟨events, steps, .error exc⟩
  | .ok _ => ⟨events ++ [.stage "validate" "ok"], steps, .ok ⟨candidate, none, steps⟩⟩

/-- Run the candidate. -/
def executeCandidate (request : QueryRequest) (requestId : String) (candidate : Candidate)
    (events : List (Event Cell)) (steps : List QueryStep) : Work Cell :=
  let outcome := liftRaised (execute service.platform service.database service.settings
    service.catalog candidate.sql request.options.maxRows request.options.timeoutMs
    { question := some request.question, requestId := some requestId }).result
  let steps := steps ++ [timed "execute" outcome]
  match outcome with
  | .error exc => ⟨events, steps, .error exc⟩
  | .ok result =>
    ⟨events ++ [.stage "execute" "ok", .rows result.columns result.rows result.truncated], steps,
      .ok ⟨candidate, some result, steps⟩⟩

/-- The work, with an observer: `QueryService._answer`. -/
def answerWork (request : QueryRequest) (requestId : String) : Work Cell :=
  match service.answerer.retrieve request.question with
  | .error exc => ⟨[], [⟨"answer", "error"⟩], .error exc⟩
  | .ok context =>
    let retrieved := [Event.stage "retrieve" "ok"]
    match service.answerer.generate request.question context with
    | .error exc => ⟨retrieved, [⟨"answer", "error"⟩], .error exc⟩
    | .ok candidate =>
      let events := retrieved ++ [.stage "generate" "ok", .sql candidate.sql 1]
      let steps := [⟨"answer", "ok"⟩]
      if request.options.explainOnly then explainCandidate service candidate events steps
      else executeCandidate service request requestId candidate events steps

/-! ## The two response shapes -/

/-- What a validation failure says to a caller. -/
def validationFailedMessage : String := "the generated query did not pass validation"

/-- The terminal failure event of a stream. -/
def errorEvent (code message requestId : String) : Event Cell := .error code message requestId

/-- The `except` clauses of `_produce`, in their order. -/
def failureEvent (requestId : String) : Exn → Event Cell
  | .raised (.domain exc) =>
    if exc.cls.isinstance .sqlValidationError then
      errorEvent sqlValidationFailed.code validationFailedMessage requestId
    else errorEvent (published exc).1.code (published exc).2 requestId
  | .api exc => errorEvent exc.error.code exc.message requestId
  | .raised (.unexpected _) => errorEvent internalError.code genericFailure requestId
  | .http _ => errorEvent internalError.code genericFailure requestId
  | .requestValidation => errorEvent internalError.code genericFailure requestId

def doneEvent (answer : Answer Cell) : Event Cell :=
  .done (match answer.result with | none => 0 | some r => r.rowCount) answer.result.isSome
    answer.steps answer.candidate.usage

/-- The last event, by how the work ended. -/
def terminalEvent (requestId : String) : Except Exn (Answer Cell) → Event Cell
  | .ok answer => doneEvent answer
  | .error exc => failureEvent requestId exc

/-- Everything `_produce` puts on the queue, but for the `None` that ends it. -/
def produce (request : QueryRequest) (requestId : String) : List (Event Cell) :=
  let work := answerWork service request requestId
  work.events ++ [terminalEvent requestId work.outcome]

/-- The body of a non-streaming answer. -/
structure QueryResponse (Cell : Type) where
  sql : String
  columns : List String
  rows : List (List Cell)
  rowCount : Nat
  truncated : Bool
  executed : Bool
  steps : List QueryStep
  usage : Usage

def body (answer : Answer Cell) : QueryResponse Cell :=
  match answer.result with
  | none => ⟨answer.candidate.sql, [], [], 0, false, false, answer.steps, answer.candidate.usage⟩
  | some r =>
    ⟨answer.candidate.sql, r.columns, r.rows, r.rowCount, r.truncated, true, answer.steps,
      answer.candidate.usage⟩

/-- What the route itself makes of an exception before the handlers see it. -/
def reraise : Exn → Exn
  | .raised (.domain exc) =>
    if exc.cls.isinstance .sqlValidationError then
      .api ⟨sqlValidationFailed, validationFailedMessage⟩
    else .raised (.domain exc)
  | exc => exc

/-- The non-streaming answer to an admitted request. -/
def respond (request : QueryRequest) (requestId : String) : Except Envelope (QueryResponse Cell) :=
  match (answerWork service request requestId).outcome with
  | .ok answer => .ok (body answer)
  | .error exc => .error (handle (reraise exc) requestId)

end Query
