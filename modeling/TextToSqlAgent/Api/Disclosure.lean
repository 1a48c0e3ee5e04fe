import TextToSqlAgent.Api.Query

/-!
# What a caller learns of a driver error

Two databases are alike when they answer alike but for the texts of their
errors. A caller cannot tell them apart by the published code and message,
except where the run of the bounded query is refused with one of three
SQLSTATEs: the exceptions these are translated to are published with their
message.
-/

namespace Disclosure

open Python Catalog Settings Exceptions Validator Executor Errors Query

variable {Context Cell α : Type}

/-! ## Databases that differ in texts -/

def AlikeFailure : Failure → Failure → Prop
  | .driver exc, .driver exc' => exc.sqlstate = exc'.sqlstate
  | .other _, .other _ => True
  | _, _ => False

def AlikeAnswer : Except Failure α → Except Failure α → Prop
  | .ok a, .ok b => a = b
  | .error f, .error g => AlikeFailure f g
  | _, _ => False

/-- The same answers to the same statements, but for the texts of the errors. -/
structure SameButTexts (db db' : Database Cell) : Prop where
  explain : ∀ timeout statement,
    AlikeAnswer (db.explain timeout statement) (db'.explain timeout statement)
  query : ∀ timeout statement,
    AlikeAnswer (db.query timeout statement) (db'.query timeout statement)

/-! ## Exceptions that look the same from outside -/

/-- Both exceptions are published without their text. -/
def Veiled : Raised → Raised → Prop
  | .domain exc, .domain exc' =>
    exc.cls = exc'.cls ∧ (exc.cls = .sqlValidationError ∨ exc.cls = .executionError)
  | .unexpected _, .unexpected _ => True
  | _, _ => False

theorem published_executionError {exc : DomainError} (cls : exc.cls = .executionError) :
    published exc = (internalError, genericFailure) := by
  have internal : codeFor exc = internalError := by
    rw [codeFor, cls]
    decide
  rw [published, if_pos internal]

theorem failureEvent_veiled {exc exc' : Raised} (veiled : Veiled exc exc') (requestId : String) :
    (failureEvent requestId (.raised exc) : Event Cell) =
      failureEvent requestId (.raised exc') := by
  match exc, exc', veiled with
  | .unexpected _, .unexpected _, _ => rfl
  | .domain e, .domain e', ⟨same, cls⟩ =>
    rw [failureEvent, failureEvent, ← same]
    rcases cls with rejected | refused
    · have caught : e.cls.isinstance .sqlValidationError = true := by rw [rejected]; decide
      rw [if_pos caught, if_pos caught]
    · rw [published_executionError refused, published_executionError (same ▸ refused)]

theorem handle_veiled {exc exc' : Raised} (veiled : Veiled exc exc') (requestId : String) :
    handle (reraise (.raised exc)) requestId = handle (reraise (.raised exc')) requestId := by
  match exc, exc', veiled with
  | .unexpected _, .unexpected _, _ => rfl
  | .domain e, .domain e', ⟨same, cls⟩ =>
    rw [reraise, reraise, ← same]
    rcases cls with rejected | refused
    · have caught : e.cls.isinstance .sqlValidationError = true := by rw [rejected]; decide
      rw [if_pos caught, if_pos caught]
    · have passed : ¬e.cls.isinstance .sqlValidationError = true := by rw [refused]; decide
      simp only [if_neg passed, handle, published_executionError refused,
        published_executionError (same ▸ refused)]

/-- Equal results, or exceptions that look the same. -/
def AlikeResult (r r' : Except Raised α) : Prop :=
  r = r' ∨ ∃ exc exc', r = .error exc ∧ r' = .error exc' ∧ Veiled exc exc'

/-! ## Validation -/

/-- Equal verdicts, or two refusals, or two unexpected exceptions. -/
def AlikeVerdict : Except Raised ValidationResult → Except Raised ValidationResult → Prop
  | .ok v, .ok v' => v = v' ∨ (v.valid = false ∧ v'.valid = false)
  | .error exc, .error exc' => Veiled exc exc' ∨ exc = exc'
  | _, _ => False

theorem AlikeVerdict.cases {r r' : Except Raised ValidationResult} (alike : AlikeVerdict r r') :
    (∃ exc exc', r = .error exc ∧ r' = .error exc' ∧ (Veiled exc exc' ∨ exc = exc')) ∨
      ∃ v v', r = .ok v ∧ r' = .ok v' ∧ (v = v' ∨ (v.valid = false ∧ v'.valid = false)) := by
  cases r with
  | error exc =>
    cases r' with
    | error exc' => exact Or.inl ⟨exc, exc', rfl, rfl, alike⟩
    | ok v' => exact alike.elim
  | ok v =>
    cases r' with
    | error exc' => exact alike.elim
    | ok v' => exact Or.inr ⟨v, v', rfl, rfl, alike⟩

variable (p : Platform) {db db' : Database Cell} (settings : ExecutionSettings)
  (catalog : SchemaCatalog)

theorem explain_alike (same : SameButTexts db db') (sql text : String) (tables : List String) :
    AlikeVerdict (explain p db settings sql text tables)
      (explain p db' settings sql text tables) := by
  have answers := same.explain (settings.clampTimeoutMs none) (explainPrefix ++ text)
  rw [explain, explain]
  match db.explain (settings.clampTimeoutMs none) (explainPrefix ++ text),
    db'.explain (settings.clampTimeoutMs none) (explainPrefix ++ text), answers with
  | .error (.driver exc), .error (.driver exc'), _ => exact Or.inr ⟨rfl, rfl⟩
  | .error (.other _), .error (.other _), _ => exact Or.inl trivial
  | .ok row, .ok row', rows =>
    obtain rfl : row = row' := rows
    dsimp only
    split
    · exact Or.inr rfl
    · split
      · split <;> exact Or.inl rfl
      · exact Or.inl rfl

theorem validate_alike (same : SameButTexts db db') (sql : String) :
    AlikeVerdict (validate p db settings catalog sql) (validate p db' settings catalog sql) := by
  rw [validate, validate]
  split
  · exact explain_alike p settings same ..
  · exact Or.inl rfl

theorem explainOnly_alike (same : SameButTexts db db') (sql : String) (caller : Caller) :
    AlikeResult (explainOnly p db settings catalog sql caller).result
      (explainOnly p db' settings catalog sql caller).result := by
  rcases (validate_alike p settings catalog same sql).cases with
    ⟨exc, exc', first, second, veiled⟩ | ⟨v, v', first, second, alike⟩
  · rw [explainOnly, explainOnly, first, second]
    rcases veiled with veiled | rfl
    · exact Or.inr ⟨exc, exc', rfl, rfl, veiled⟩
    · exact Or.inl rfl
  · rw [explainOnly, explainOnly, first, second]
    rcases alike with rfl | ⟨refused, refused'⟩
    · exact Or.inl rfl
    · simp only [refused, refused', Bool.false_eq_true, if_false]
      exact Or.inr ⟨_, _, rfl, rfl, rfl, Or.inl rfl⟩

/-! ## Execution -/

/-- The SQLSTATEs whose exceptions are published with their message. -/
def disclosed : List String := ["57014", "42501", "25006"]

theorem translate_cls {exc : DriverError} (other : exc.sqlstate.getD "" ∉ disclosed) :
    (Executor.translate exc).cls = .executionError := by
  simp only [disclosed, List.mem_cons, List.not_mem_nil, or_false, not_or] at other
  rw [Executor.translate]
  split <;> simp_all

theorem translate_disclosed {exc : DriverError} (named : exc.sqlstate.getD "" ∈ disclosed) :
    (Executor.translate exc).cls = .statementTimeoutError ∨
      (Executor.translate exc).cls = .permissionDeniedError := by
  simp only [disclosed, List.mem_cons, List.not_mem_nil, or_false] at named
  rcases named with state | state | state
  · exact Or.inl (by simp only [Executor.translate, state])
  · exact Or.inr (by simp only [Executor.translate, state])
  · exact Or.inr (by simp only [Executor.translate, state])

theorem translate_message (exc : DriverError) :
    (Executor.translate exc).message =
      orText exc.messagePrimary "the query could not be executed" := by
  rw [Executor.translate]
  split <;> rfl

/-- Of these two classes the message itself is published. -/
theorem published_disclosed {exc : DomainError}
    (cls : exc.cls = .statementTimeoutError ∨ exc.cls = .permissionDeniedError) :
    published exc = (codeFor exc, exc.message) ∧
      exc.cls.isinstance .sqlValidationError = false := by
  have external : codeFor exc ≠ internalError := by
    rcases cls with cls | cls <;> rw [codeFor, cls] <;> decide
  refine ⟨by rw [published, if_neg external], ?_⟩
  rcases cls with cls | cls <;> rw [cls] <;> decide

theorem runBounded_alike (same : SameButTexts db db') (bounded : Bounded)
    (cost : Option PyFloat) (timeout : Int) (caller : Caller)
    (hidden : ∀ exc, db.query timeout bounded.sql = .error (.driver exc) →
      exc.sqlstate.getD "" ∉ disclosed) :
    AlikeResult (runBounded db bounded cost timeout caller).result
      (runBounded db' bounded cost timeout caller).result := by
  have answers := same.query timeout bounded.sql
  rw [runBounded, runBounded]
  match found : db.query timeout bounded.sql, db'.query timeout bounded.sql, answers with
  | .error (.other _), .error (.other _), _ => exact Or.inr ⟨_, _, rfl, rfl, trivial⟩
  | .ok rows, .ok rows', alike =>
    obtain rfl : rows = rows' := alike
    exact Or.inl rfl
  | .error (.driver exc), .error (.driver exc'), state =>
    have out : exc.sqlstate.getD "" ∉ disclosed := hidden exc found
    have out' : exc'.sqlstate.getD "" ∉ disclosed := by
      rw [← show exc.sqlstate = exc'.sqlstate from state]
      exact out
    refine Or.inr ⟨_, _, rfl, rfl, ?_, Or.inr (translate_cls out)⟩
    rw [translate_cls out, translate_cls out']

theorem execute_alike (same : SameButTexts db db') {sql : String}
    {maxRows timeoutMs : Option Int} (caller : Caller)
    (hidden : ∀ validation bounded exc, validate p db settings catalog sql = .ok validation →
      validation.valid = true →
      applyRowLimit p sql (settings.clampRows maxRows) = .ok bounded →
      db.query (settings.clampTimeoutMs timeoutMs) bounded.sql = .error (.driver exc) →
      exc.sqlstate.getD "" ∉ disclosed) :
    AlikeResult (execute p db settings catalog sql maxRows timeoutMs caller).result
      (execute p db' settings catalog sql maxRows timeoutMs caller).result := by
  rcases (validate_alike p settings catalog same sql).cases with
    ⟨exc, exc', first, second, veiled⟩ | ⟨v, v', validated, second, alike⟩
  · rw [execute, execute, first, second]
    rcases veiled with veiled | rfl
    · exact Or.inr ⟨exc, exc', rfl, rfl, veiled⟩
    · exact Or.inl rfl
  · rw [execute, execute, validated, second]
    rcases alike with rfl | ⟨refused, refused'⟩
    · cases valid : v.valid with
      | false => exact Or.inl (by simp only [valid, if_true])
      | true =>
        simp only [valid, Bool.true_eq_false, if_false]
        cases limited : applyRowLimit p sql (settings.clampRows maxRows) with
        | error exc => exact Or.inl rfl
        | ok bounded =>
          exact runBounded_alike same bounded v.estimatedCost _ caller fun exc failed =>
            hidden v bounded exc validated valid limited failed
    · simp only [refused, refused', if_true]
      exact Or.inr ⟨_, _, rfl, rfl, rfl, Or.inl rfl⟩

/-! ## The request as a whole -/

/-- The request gets as far as running its bounded query, and the database
refuses that run with `exc`. -/
inductive FailsInExecution (service : QueryService Context Cell) (request : QueryRequest) :
    DriverError → Prop
  | intro {context : Context} {candidate : Candidate} {validation : ValidationResult}
    {bounded : Bounded} {exc : DriverError}
    (retrieved : service.answerer.retrieve request.question = .ok context)
    (generated : service.answerer.generate request.question context = .ok candidate)
    (executing : request.options.explainOnly = false)
    (validated : validate service.platform service.database service.settings service.catalog
      candidate.sql = .ok validation)
    (valid : validation.valid = true)
    (limited : applyRowLimit service.platform candidate.sql
      (service.settings.clampRows request.options.maxRows) = .ok bounded)
    (refused : service.database.query
      (service.settings.clampTimeoutMs request.options.timeoutMs) bounded.sql =
        .error (.driver exc)) :
    FailsInExecution service request exc

/-- The run is refused with a SQLSTATE whose message is published. -/
def Discloses (service : QueryService Context Cell) (request : QueryRequest) : Prop :=
  ∃ exc, FailsInExecution service request exc ∧ exc.sqlstate.getD "" ∈ disclosed

/-- The code and the message of an error event. -/
def eventFailure : Event Cell → Option (String × String)
  | .error code message _ => some (code, message)
  | _ => none

/-- The code and the message of the failure a stream ends with. -/
def streamFailure (events : List (Event Cell)) : Option (String × String) :=
  events.getLast?.bind eventFailure

/-- The status, the code and the message of a reply that is an error. -/
def replyFailure : Except Envelope (QueryResponse Cell) → Option (Nat × String × String)
  | .ok _ => none
  | .error e => some (e.status, e.code, e.message)

variable (service : QueryService Context Cell) (request : QueryRequest) (requestId : String)

/-- The work with another database ends alike, where nothing is disclosed. -/
theorem answerWork_alike (same : SameButTexts service.database db')
    (hidden : ¬Discloses service request) :
    (answerWork service request requestId).outcome =
        (answerWork { service with database := db' } request requestId).outcome ∨
      ∃ exc exc', (answerWork service request requestId).outcome = .error (.raised exc) ∧
        (answerWork { service with database := db' } request requestId).outcome =
          .error (.raised exc') ∧ Veiled exc exc' := by
  rw [answerWork, answerWork]
  cases retrieved : service.answerer.retrieve request.question with
  | error exc => exact Or.inl rfl
  | ok context =>
    simp only
    cases generated : service.answerer.generate request.question context with
    | error exc => exact Or.inl rfl
    | ok candidate =>
      simp only
      cases executing : request.options.explainOnly with
      | true =>
        simp only [if_true, explainCandidate]
        rcases explainOnly_alike service.platform service.settings service.catalog same
          candidate.sql {} with equal | ⟨exc, exc', first, second, veiled⟩
        · exact Or.inl (by simp only [equal])
        · exact Or.inr ⟨exc, exc', by simp [first, liftRaised], by simp [second, liftRaised],
            veiled⟩
      | false =>
        simp only [Bool.false_eq_true, if_false, executeCandidate]
        rcases execute_alike service.platform service.settings service.catalog same
          { question := some request.question, requestId := some requestId }
          (fun validation bounded exc validated valid limited refused named =>
            hidden ⟨exc, .intro retrieved generated executing validated valid limited refused,
              named⟩) with equal | ⟨exc, exc', first, second, veiled⟩
        · exact Or.inl (by simp only [equal])
        · exact Or.inr ⟨exc, exc', by simp [first, liftRaised], by simp [second, liftRaised],
            veiled⟩

theorem streamFailure_produce : streamFailure (produce service request requestId) =
    eventFailure (terminalEvent requestId (answerWork service request requestId).outcome) := by
  rw [streamFailure, produce, List.getLast?_append, List.getLast?_singleton, Option.some_or,
    Option.bind_some]

/-- Where nothing is disclosed, neither route tells the databases apart. -/
theorem failures_alike (same : SameButTexts service.database db')
    (hidden : ¬Discloses service request) :
    streamFailure (produce { service with database := db' } request requestId) =
        streamFailure (produce service request requestId) ∧
      replyFailure (respond { service with database := db' } request requestId) =
        replyFailure (respond service request requestId) := by
  rw [streamFailure_produce, streamFailure_produce, respond, respond]
  rcases answerWork_alike service request requestId same hidden with
    equal | ⟨exc, exc', first, second, veiled⟩
  · rw [equal]
    exact ⟨rfl, rfl⟩
  · rw [first, second]
    constructor
    · simp only [terminalEvent, failureEvent_veiled veiled]
    · simp only [handle_veiled veiled]

/-- The text a driver error is published with, where it is. -/
def shownText (exc : DriverError) : String :=
  orText exc.messagePrimary "the query could not be executed"

/-- The same error with a mark at the end of its text. -/
def markedError (exc : DriverError) : DriverError :=
  ⟨exc.sqlstate, some (shownText exc ++ "!")⟩

theorem shownText_markedError (exc : DriverError) :
    shownText (markedError exc) = shownText exc ++ "!" := by
  have written : shownText exc ++ "!" ≠ "" := by simp
  simp only [shownText, markedError, orText]
  exact if_neg written

theorem shownText_markedError_ne (exc : DriverError) :
    shownText (markedError exc) ≠ shownText exc := by
  rw [shownText_markedError]
  intro same
  have lengths := congrArg String.length same
  simp at lengths

/-- A database that marks the text of every driver error in execution. -/
def marked (db : Database Cell) : Database Cell where
  explain := db.explain
  query timeout statement :=
    match db.query timeout statement with
    | .error (.driver exc) => .error (.driver (markedError exc))
    | .error (.other text) => .error (.other text)
    | .ok rows => .ok rows

theorem marked_sameButTexts (db : Database Cell) : SameButTexts db (marked db) where
  explain timeout statement := by
    cases found : db.explain timeout statement with
    | ok row => simp [marked, found, AlikeAnswer]
    | error failure => cases failure <;> simp [marked, found, AlikeAnswer, AlikeFailure]
  query timeout statement := by
    cases found : db.query timeout statement with
    | ok row => simp [marked, found, AlikeAnswer]
    | error failure =>
      cases failure <;> simp [marked, found, AlikeAnswer, AlikeFailure, markedError]

theorem outcome_of_failure {exc : DriverError} (failed : FailsInExecution service request exc) :
    (answerWork service request requestId).outcome =
      .error (.raised (.domain (Executor.translate exc))) := by
  cases failed with
  | intro retrieved generated executing validated valid limited refused =>
    simp only [answerWork, retrieved, generated, executing, Bool.false_eq_true, if_false,
      executeCandidate, execute, validated, valid, Bool.true_eq_false, limited, runBounded, refused,
      liftRaised]

theorem marked_failure {exc : DriverError} (failed : FailsInExecution service request exc) :
    FailsInExecution { service with database := marked service.database } request
      (markedError exc) := by
  cases failed with
  | intro retrieved generated executing validated valid limited refused =>
    exact .intro retrieved generated executing validated valid limited (by simp [marked, refused])

/-- A disclosed failure shows its message on both routes. -/
theorem failure_disclosed {exc : DriverError} (failed : FailsInExecution service request exc)
    (named : exc.sqlstate.getD "" ∈ disclosed) :
    (streamFailure (produce service request requestId)).map Prod.snd =
        some (shownText exc) ∧
      (replyFailure (respond service request requestId)).map (fun f => f.2.2) =
        some (shownText exc) := by
  obtain ⟨shown, uncaught⟩ := published_disclosed (translate_disclosed named)
  rw [streamFailure_produce, respond, outcome_of_failure service request requestId failed,
    shownText, ← translate_message exc]
  constructor
  · simp [terminalEvent, failureEvent, uncaught, errorEvent, eventFailure, shown]
  · simp [reraise, uncaught, handle, envelope, replyFailure, shown]

/-- For every request and every database: on each route, the published code and
message are independent of the driver's texts exactly when the run of the
bounded query is not refused with one of the three SQLSTATEs. -/
theorem text_hidden_iff :
    ((∀ db', SameButTexts service.database db' →
        streamFailure (produce { service with database := db' } request requestId) =
          streamFailure (produce service request requestId)) ↔ ¬Discloses service request) ∧
      ((∀ db', SameButTexts service.database db' →
        replyFailure (respond { service with database := db' } request requestId) =
          replyFailure (respond service request requestId)) ↔ ¬Discloses service request) := by
  refine ⟨⟨?_, ?_⟩, ⟨?_, ?_⟩⟩
  · rintro hidden ⟨exc, failed, named⟩
    have shown := (failure_disclosed service request requestId failed named).1
    have changed := (failure_disclosed _ request requestId (marked_failure service request failed)
      named).1
    rw [hidden _ (marked_sameButTexts _), shown] at changed
    exact shownText_markedError_ne exc (Option.some.inj changed).symm
  · intro hidden db' same
    exact (failures_alike service request requestId same hidden).1
  · rintro hidden ⟨exc, failed, named⟩
    have shown := (failure_disclosed service request requestId failed named).2
    have changed := (failure_disclosed _ request requestId (marked_failure service request failed)
      named).2
    rw [hidden _ (marked_sameButTexts _), shown] at changed
    exact shownText_markedError_ne exc (Option.some.inj changed).symm
  · intro hidden db' same
    exact (failures_alike service request requestId same hidden).2

private def payText : String := "SELECT pay FROM salaries"

private def payTree : Syntax.Node :=
  .mk .select [("expressions", .mk .column [("this", .mk (.identifier "pay") [])]),
    ("from", .mk (.other "from" "")
      [("this", .mk .table [("this", .mk (.identifier "salaries") [])])])]

private def payPlatform : Platform where
  casefold text := String.ofList (text.toList.map Char.toLower)
  closeMatch _ _ := none
  parse text := if text = payText then .ok [some (.expression payTree)] else .error ""
  sql _ := "SELECT pay FROM salaries LIMIT 501"
  str _ := ""
  float _ := none

/-- A database whose role may not read the table, and says so. -/
private def refusing (text : String) : Database Nat where
  explain _ _ := .ok none
  query _ _ := .error (.driver ⟨some "42501", some text⟩)

private def payService (text : String) : QueryService Unit Nat where
  answerer := { retrieve := fun _ => .ok (), generate := fun _ _ => .ok { sql := payText } }
  platform := payPlatform
  database := refusing text
  settings := .default
  catalog := ⟨[]⟩

private def payRequest : QueryRequest where
  question := "who earns what"
  asked := by decide

/-- The name of a table the role may not read reaches the caller. -/
theorem refused_run_discloses :
    SameButTexts (refusing "permission denied for table salaries")
        (refusing "permission denied for table pay_2019") ∧
      streamFailure (produce (payService "permission denied for table salaries") payRequest "r") =
        some ("sql_validation_failed", "permission denied for table salaries") ∧
      streamFailure (produce (payService "permission denied for table pay_2019") payRequest "r") =
        some ("sql_validation_failed", "permission denied for table pay_2019") ∧
      replyFailure (respond (payService "permission denied for table salaries") payRequest "r") =
        some (422, "sql_validation_failed", "permission denied for table salaries") ∧
      replyFailure (respond (payService "permission denied for table pay_2019") payRequest "r") =
        some (422, "sql_validation_failed", "permission denied for table pay_2019") := by
  refine ⟨⟨fun _ _ => rfl, fun _ _ => rfl⟩, ?_, ?_, ?_, ?_⟩ <;> decide +kernel

end Disclosure
