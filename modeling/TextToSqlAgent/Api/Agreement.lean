import TextToSqlAgent.Api.Query

/-!
# The two answers to one question

A question is answered with one body, or with events. The results are shaped
twice and so are the exceptions; both say the same, except of the framework's
own exceptions, for which only the handlers have codes.
-/

namespace Agreement

open Exceptions Errors Query

variable {Context Cell : Type}

/-! ## What events say -/

def sqlOf : Event Cell → Option String
  | .sql sql _ => some sql
  | _ => none

def rowsOf : Event Cell → Option (List String × List (List Cell) × Bool)
  | .rows columns rows truncated => some (columns, rows, truncated)
  | _ => none

def doneOf : Event Cell → Option (Nat × Bool × List QueryStep × Usage)
  | .done rowCount executed steps usage => some (rowCount, executed, steps, usage)
  | _ => none

def errorOf : Event Cell → Option (String × String)
  | .error code message _ => some (code, message)
  | _ => none

/-- The events carry what the body carries: one SQL text, the rows of a query
that was run and none of one that was not, and the totals. -/
structure SameAnswer (answer : QueryResponse Cell) (events : List (Event Cell)) : Prop where
  sql : events.filterMap sqlOf = [answer.sql]
  ran : answer.executed = true →
    events.filterMap rowsOf = [(answer.columns, answer.rows, answer.truncated)]
  notRun : answer.executed = false →
    events.filterMap rowsOf = [] ∧ answer.columns = [] ∧ answer.rows = [] ∧
      answer.truncated = false
  done : events.filterMap doneOf =
    [(answer.rowCount, answer.executed, answer.steps, answer.usage)]
  noError : events.filterMap errorOf = []

/-- The events end in one failure, of this code and message. -/
structure SameFailure (code message : String) (events : List (Event Cell)) : Prop where
  error : events.filterMap errorOf = [(code, message)]
  notDone : events.filterMap doneOf = []

/-- A response and a stream tell the same. -/
def Agree (response : Except Envelope (QueryResponse Cell)) (events : List (Event Cell)) : Prop :=
  match response with
  | .ok answer => SameAnswer answer events
  | .error envelope => SameFailure envelope.code envelope.message events

/-! ## How the work ends -/

variable (service : QueryService Context Cell) (request : QueryRequest) (requestId : String)

/-- The work reports its stages; a query that was run has also its rows. -/
inductive Ends : List (Event Cell) → Except Exn (Answer Cell) → Prop
  | failed (events : List (Event Cell)) (exc : Exn) (noError : events.filterMap errorOf = [])
    (notDone : events.filterMap doneOf = []) : Ends events (.error exc)
  | explained (candidate : Candidate) (steps : List QueryStep) :
    Ends [.stage "retrieve" "ok", .stage "generate" "ok", .sql candidate.sql 1,
      .stage "validate" "ok"] (.ok ⟨candidate, none, steps⟩)
  | executed (candidate : Candidate) (result : Executor.QueryResult Cell)
    (steps : List QueryStep) :
    Ends [.stage "retrieve" "ok", .stage "generate" "ok", .sql candidate.sql 1,
      .stage "execute" "ok", .rows result.columns result.rows result.truncated]
      (.ok ⟨candidate, some result, steps⟩)

theorem ends_answerWork : Ends (answerWork service request requestId).events
    (answerWork service request requestId).outcome := by
  rw [answerWork]
  cases service.answerer.retrieve request.question with
  | error exc => exact .failed [] exc rfl rfl
  | ok context =>
    cases generated : service.answerer.generate request.question context with
    | error exc =>
      simp only [generated]
      exact .failed _ exc rfl rfl
    | ok candidate =>
      simp only [generated]
      split
      · rw [explainCandidate]
        split
        · exact .failed _ _ rfl rfl
        · exact .explained candidate _
      · rw [executeCandidate]
        split
        · exact .failed _ _ rfl rfl
        · exact .executed candidate _ _

/-! ## How an exception is shown -/

/-- An exception of the domain, deliberate or unknown, is shown alike. -/
theorem failureEvent_handle {exc : Exn} (domain : ∀ status, exc ≠ .http status)
    (valid : exc ≠ .requestValidation) :
    (failureEvent requestId exc : Event Cell) =
      .error (handle (reraise exc) requestId).code (handle (reraise exc) requestId).message
        requestId := by
  cases exc with
  | api exc => rfl
  | http status => exact absurd rfl (domain status)
  | requestValidation => exact absurd rfl valid
  | raised exc =>
    cases exc with
    | unexpected text => rfl
    | domain exc =>
      rw [failureEvent, reraise]
      split <;> rfl

theorem sameFailure_append {events : List (Event Cell)} {code message : String}
    (noError : events.filterMap errorOf = []) (notDone : events.filterMap doneOf = []) :
    SameFailure code message (events ++ [.error code message requestId]) where
  error := by simp [noError, errorOf]
  notDone := by simp [notDone, doneOf]

/-- A service whose retrieval raises the framework's exception of a status. -/
private def strayService (status : Nat) : QueryService Unit Nat where
  answerer := {
    retrieve := fun _ => .error (.http status)
    generate := fun _ _ => .ok ⟨"SELECT 1", {}⟩ }
  platform := {
    casefold := id
    closeMatch := fun _ _ => none
    parse := fun _ => .error ""
    sql := fun _ => ""
    str := fun _ => ""
    float := fun _ => none }
  database := {
    explain := fun _ _ => .ok none
    query := fun _ _ => .ok ([], []) }
  settings := .default
  catalog := ⟨[]⟩

private def howMany : QueryRequest where
  question := "how many orders?"
  asked := by decide

end Agreement
