import TextToSqlAgent.McpServers.Tools
import TextToSqlAgent.Validation.Refusals

/-!
# What the tools promise each other

A search through the server is the search behind it, but for what is not published.
What `validate_sql` refuses, `execute_sql` refuses with the same words, without running it.
-/

namespace Contracts

open Python Exceptions JsonText JsonLayout McpServers Discovery McpTools Fallible
open Catalog (SchemaCatalog)
open Settings (ExecutionSettings)
open Schema (RetrievedElement ForeignKey RetrievalResult)
open Syntax (Node)
open Validator
open Refusals (Typed typed_validate refusalTypes)
open Executor (rejection)
open McpRetrieval (Builtins Client searchTool)
open WireTrip (textOrNull receivedElement receivedEdge)

/-! ## What has been through `succeeded` -/

theorem succeeded_eq {body : Payload} (noOk : "ok" ∉ body.map Prod.fst)
    (distinct : (body.map Prod.fst).Nodup) : succeeded body = ("ok", .bool true) :: body := by
  refine Dictionary.entries_ofList ?_
  rw [List.map_cons]
  exact List.nodup_cons.mpr ⟨noOk, distinct⟩

theorem keys_renderValidation (result : ValidationResult) :
    ((renderValidation result).map Prod.fst).Sublist ["valid", "stage_failed", "error_type",
      "message", "identifier", "suggestion", "estimated_cost", "plan_summary"] :=
  List.filter_sublist.map Prod.fst

theorem noOk_renderValidation (result : ValidationResult) :
    "ok" ∉ (renderValidation result).map Prod.fst := fun listed =>
  absurd ((keys_renderValidation result).subset listed) (by decide)

theorem distinct_renderValidation (result : ValidationResult) :
    ((renderValidation result).map Prod.fst).Nodup :=
  List.Nodup.sublist (keys_renderValidation result) (by decide)

theorem handled_ok {α : Type} {x : Except Raised α} {f : Raised → HandlerError} {a : α}
    (handled : x.mapError f = .ok a) : x = .ok a := by
  cases x with
  | error exc => cases handled
  | ok b => exact congrArg Except.ok (Except.ok.inj handled)

section Succeeds

variable {Cell V K : Type} [DecidableEq K]

theorem succeeds_search (retriever : Searches) : Succeeds (search retriever) := by
  intro arguments payload made
  obtain ⟨tableFilter, -, made⟩ := bind_ok_iff.mp made
  obtain ⟨query, -, made⟩ := bind_ok_iff.mp made
  obtain ⟨k, -, made⟩ := bind_ok_iff.mp made
  obtain ⟨result, -, made⟩ := bind_ok_iff.mp made
  exact ⟨_, (Except.ok.inj made).symm, by simp [WireTrip.render]⟩

theorem succeeds_validateSql (p : Platform) (db : Validator.Database Cell)
    (settings : ExecutionSettings) (catalog : SchemaCatalog) :
    Succeeds (validateSql p db settings catalog) := by
  intro arguments payload made
  obtain ⟨sql, -, made⟩ := bind_ok_iff.mp made
  obtain ⟨result, -, made⟩ := bind_ok_iff.mp made
  exact ⟨_, (Except.ok.inj made).symm, noOk_renderValidation result⟩

theorem succeeds_executeSql (p : Platform) (db : Validator.Database Cell)
    (settings : ExecutionSettings) (catalog : SchemaCatalog) (cell : Cell → Json)
    (duration : PyFloat) : Succeeds (executeSql p db settings catalog cell duration) := by
  intro arguments payload made
  obtain ⟨sql, -, made⟩ := bind_ok_iff.mp made
  obtain ⟨maxRows, -, made⟩ := bind_ok_iff.mp made
  obtain ⟨timeoutMs, -, made⟩ := bind_ok_iff.mp made
  obtain ⟨result, -, made⟩ := bind_ok_iff.mp made
  exact ⟨_, (Except.ok.inj made).symm, by simp [renderRows]⟩

theorem succeeds_profileTable (profiler : Profiler.TableProfiler V K) :
    Succeeds (profileTable profiler) := by
  intro arguments payload made
  obtain ⟨table, -, made⟩ := bind_ok_iff.mp made
  obtain ⟨columns, -, made⟩ := bind_ok_iff.mp made
  obtain ⟨sampleRows, -, made⟩ := bind_ok_iff.mp made
  obtain ⟨profile, -, made⟩ := bind_ok_iff.mp made
  exact ⟨_, (Except.ok.inj made).symm, by simp [renderProfile]⟩

end Succeeds

/-! ## A search through the server -/

/-- What `McpSchemaSearch.search` sends. -/
def searchArguments (question : String) (k : Int) : Payload :=
  [("query", .str question), ("k", .int k)]

/-- The rounded scores are floats. -/
def Scored (result : RetrievalResult) : Prop :=
  ∀ element ∈ result.elements, Lasting (.float (WireTrip.roundScore element.score))

theorem lasting_textOrNull (text : Option String) : Lasting (textOrNull text) := by
  cases text with
  | none => exact .null
  | some s => exact .str s

theorem lasting_texts (texts : List String) : Lasting (.arr (texts.map .str)) := by
  refine .arr _ fun item listed => ?_
  obtain ⟨s, -, rfl⟩ := List.mem_map.mp listed
  exact .str s

theorem lasting_renderElement {element : RetrievedElement}
    (scored : Lasting (.float (WireTrip.roundScore element.score))) :
    Lasting (WireTrip.renderElement element) := by
  refine .obj _ (by simp) fun member listed => ?_
  simp only [List.mem_cons, List.not_mem_nil, or_false] at listed
  rcases listed with rfl | rfl | rfl | rfl | rfl
  · exact .str _
  · exact lasting_textOrNull _
  · exact lasting_textOrNull _
  · exact lasting_textOrNull _
  · exact scored

theorem lasting_renderForeignKey (fk : ForeignKey) : Lasting (WireTrip.renderForeignKey fk) := by
  refine .obj _ (by simp) fun member listed => ?_
  simp only [List.mem_cons, List.not_mem_nil, or_false] at listed
  rcases listed with rfl | rfl | rfl | rfl
  all_goals exact .str _

theorem succeeded_render (result : RetrievalResult) :
    succeeded (WireTrip.render result) = ("ok", .bool true) :: WireTrip.render result :=
  succeeded_eq (by simp [WireTrip.render]) (by simp [WireTrip.render])

theorem lasting_render {result : RetrievalResult} (scored : Scored result) :
    Lasting (.obj (succeeded (WireTrip.render result))) := by
  rw [succeeded_render]
  refine .obj _ (by simp [WireTrip.render]) fun member listed => ?_
  simp only [WireTrip.render, List.mem_cons, List.not_mem_nil, or_false] at listed
  rcases listed with rfl | rfl | rfl | rfl
  · exact .bool true
  · refine .arr _ fun item among => ?_
    obtain ⟨element, found, rfl⟩ := List.mem_map.mp among
    exact lasting_renderElement (scored element found)
  · refine .arr _ fun item among => ?_
    obtain ⟨fk, -, rfl⟩ := List.mem_map.mp among
    exact lasting_renderForeignKey fk
  · exact lasting_texts _

variable {py : Builtins} {result : RetrievalResult}

/-- The mark of success is no part of what is read. -/
theorem toRetrievalResult_succeeded (named : ∀ e ∈ result.elements, e.table ≠ "") :
    McpRetrieval.toRetrievalResult py (succeeded (WireTrip.render result)) =
      .ok ⟨result.elements.map receivedElement, result.foreignKeys.map receivedEdge⟩ := by
  have rendered : McpRetrieval.toRetrievalResult py (WireTrip.render result) =
      .ok ⟨result.elements.map receivedElement, result.foreignKeys.map receivedEdge⟩ :=
    WireTrip.toRetrievalResult_render named
  rw [succeeded_render, ← rendered]
  simp [McpRetrieval.toRetrievalResult, WireTrip.render, Json.get?]

/-- What the client reads of a reply. -/
theorem search_answered (reads : ReadsJson py) (client : Client) (structured : Bool)
    {payload : Payload} (lasting : Lasting (.obj payload)) :
    McpRetrieval.search py client .answerable
        (.answered [searchTool] (.ok (deliver structured (toCallResult payload)))) =
      McpRetrieval.conclude py (outcome payload) := by
  have read := toResult_deliver reads structured lasting
  simp only [McpRetrieval.search, McpRetrieval.start, McpRetrieval.await,
    McpRetrieval.registryCall, List.mem_singleton, if_true, read]
  rfl

theorem conclude_flagged {type message : String} {payload : Payload}
    (flagged : Flagged type message payload) :
    McpRetrieval.conclude py (outcome payload) = .error (McpRetrieval.retrievalError
      (searchTool ++ " returned " ++ orText (some type) "an error" ++ ": " ++ message)) := by
  have error : (outcome payload).isError = true := isError_of_flagged flagged
  have typed : McpRetrieval.optionalStr py payload "error_type" = .ok (some type) := by
    rw [McpRetrieval.optionalStr, flagged.errorType]
    rfl
  rw [McpRetrieval.conclude, if_pos error]
  simp only [outcome, typed, flagged.message, Option.getD_some, McpRetrieval.str]
  rfl

variable (validate : Payload → Payload → Option ValidationError)

/-- The handler of `search_schema`, for the arguments that the client sends. -/
theorem handler_search (retriever : Searches) (question : String) (k : Int) :
    (search retriever).handler (searchArguments question k) =
      ((retriever question (some k) none).mapError handlerError).map fun result =>
        succeeded (WireTrip.render result) := by
  change ((retriever question (some k) none).mapError handlerError >>= fun result =>
    .ok (succeeded (WireTrip.render result))) = _
  cases retriever question (some k) none <;> rfl

/-- What the server finds is received: the scores rounded, the join paths unnamed. -/
theorem search_found (reads : ReadsJson py) (client : Client) (structured : Bool)
    {retriever : Searches} {question : String} {k : Int} {result : RetrievalResult}
    (accepted : validate (searchArguments question k) searchSchema = none)
    (found : retriever question (some k) none = .ok result)
    (named : ∀ e ∈ result.elements, e.table ≠ "") (scored : Scored result) :
    McpRetrieval.search py client .answerable (.answered [searchTool] (.ok (deliver structured
        (toCallResult (answer validate (search retriever) (searchArguments question k)))))) =
      .ok ⟨result.elements.map receivedElement, result.foreignKeys.map receivedEdge⟩ := by
  have handler := handler_search retriever question k
  rw [found] at handler
  have answered : answer validate (search retriever) (searchArguments question k) =
      succeeded (WireTrip.render result) := by
    rw [answer]
    simp only [show (search retriever).inputSchema = searchSchema from rfl, accepted, handler]
    rfl
  have noOk : "ok" ∉ (WireTrip.render result).map Prod.fst := by simp [WireTrip.render]
  have noError : (outcome (succeeded (WireTrip.render result))).isError = false :=
    isError_succeeded noOk
  rw [answered, search_answered reads client structured (lasting_render scored),
    McpRetrieval.conclude, noError]
  exact toRetrievalResult_succeeded named

/-- Whatever the search raises is received as a `RetrievalError`. -/
theorem search_raised (reads : ReadsJson py) (client : Client) (structured : Bool)
    {retriever : Searches} {question : String} {k : Int} {exc : Raised}
    (accepted : validate (searchArguments question k) searchSchema = none)
    (failed : retriever question (some k) none = .error exc) :
    McpRetrieval.search py client .answerable (.answered [searchTool] (.ok (deliver structured
        (toCallResult (answer validate (search retriever) (searchArguments question k)))))) =
      .error (McpRetrieval.retrievalError
        (searchTool ++ " returned " ++ orText (some (errorType (handlerError exc))) "an error" ++
          ": " ++ shownMessage (handlerError exc))) := by
  have handler := handler_search retriever question k
  rw [failed] at handler
  have flagged := flagged_of_fails validate (.raised accepted handler)
  rw [search_answered reads client structured flagged.lasting, conclude_flagged flagged]

/-- A retriever of one table, of which the score is a third. -/
def singerSearch : Searches := fun _ _ _ =>
  .ok ⟨[⟨"table", "singer", none, none, none, "singer (table)", .finite (1 / 3)⟩], []⟩

section Statements

variable {Cell : Type} {p : Platform} {db : Validator.Database Cell} {settings : ExecutionSettings}
  {catalog : SchemaCatalog}

theorem get?_marked_of_ne {ok : Bool} {payload : Payload} {key : String} (other : "ok" ≠ key)
    (noOk : "ok" ∉ payload.map Prod.fst) (distinct : (payload.map Prod.fst).Nodup) :
    Json.get? (marked ok payload) key = Json.get? payload key := by
  have entries : marked ok payload = ("ok", .bool ok) :: payload := by
    refine Dictionary.entries_ofList ?_
    rw [List.map_cons]
    exact List.nodup_cons.mpr ⟨noOk, distinct⟩
  rw [entries, Json.get?, List.find?_cons_of_neg (by simpa using other)]
  rfl

/-- What `validate_sql` answers. -/
theorem answer_validateSql {sql : String} {result : ValidationResult}
    (accepted : validate [("sql", .str sql)] validateSchema = none)
    (validated : Validator.validate p db settings catalog sql = .ok result) :
    answer validate (validateSql p db settings catalog) [("sql", .str sql)] =
      succeeded (renderValidation result) := by
  have handler : (validateSql p db settings catalog).handler [("sql", .str sql)] =
      .ok (succeeded (renderValidation result)) := by
    change ((Validator.validate p db settings catalog sql).mapError handlerError >>= fun result =>
      .ok (succeeded (renderValidation result))) = _
    rw [validated]
    rfl
  rw [answer]
  simp only [show (validateSql p db settings catalog).inputSchema = validateSchema from rfl,
    accepted, handler]

theorem get?_validation (result : ValidationResult) :
    Json.get? (renderValidation result) "valid" = some (.bool result.valid) ∧
      Json.get? (renderValidation result) "error_type" = result.errorType.map .str ∧
      Json.get? (renderValidation result) "identifier" = result.identifier.map .str := by
  refine ⟨?_, ?_, ?_⟩
  all_goals rw [Json.get?, renderValidation, List.find?_filter]
  · rfl
  · cases result.errorType <;> simp [textOrNull, isNull]
  · cases result.identifier <;> simp [textOrNull, isNull]

/-- The handler of `execute_sql`, once the arguments are read. -/
theorem handler_executeSql {cell : Cell → Json} {duration : PyFloat} {arguments : Payload}
    {sql : String} {maxRows timeoutMs : Option Int}
    (statement : requiredText arguments "sql" = .ok sql)
    (rows : optionalInt arguments "max_rows" = .ok maxRows)
    (timeout : optionalInt arguments "timeout_ms" = .ok timeoutMs) :
    (executeSql p db settings catalog cell duration).handler arguments =
      ((Executor.execute p db settings catalog sql maxRows timeoutMs {}).result.mapError
        handlerError).map fun result => succeeded (renderRows cell duration result) := by
  simp only [executeSql, statement, rows, timeout, bind, Except.bind]
  cases (Executor.execute p db settings catalog sql maxRows timeoutMs {}).result <;> rfl

theorem execute_refused {sql : String} {result : ValidationResult} {maxRows timeoutMs : Option Int}
    (validated : Validator.validate p db settings catalog sql = .ok result)
    (refused : result.valid = false) :
    (Executor.execute p db settings catalog sql maxRows timeoutMs {}).result =
      .error (.domain (rejection result)) := by
  rw [Executor.execute, validated]
  simp only [refused, if_true]

theorem said_of_ne {key : String} {text : Option String} (some : text ≠ some "") :
    Json.get? (said key text) key = text.map .str := by
  cases text with
  | none => rfl
  | some s =>
    have written : s ≠ "" := fun same => some (congrArg Option.some same)
    simp [said, written, Json.get?]

/-- What `execute_sql` says of a refused statement. -/
theorem get?_rejection {result : ValidationResult} (typed : Typed result)
    (refused : result.valid = false) :
    Json.get? (errorPayload (handlerError (.domain (rejection result)))) "error_type" =
        result.errorType.map .str ∧
      Json.get? (errorPayload (handlerError (.domain (rejection result)))) "identifier" =
        result.identifier.map .str := by
  obtain ⟨⟨type, message, typeIs, known, -⟩, named⟩ := typed refused
  have some : type ≠ "" := by
    rintro rfl
    exact absurd known (by decide)
  have written : errorPayload (handlerError (.domain (rejection result))) =
      [("error_type", .str (orText result.errorType "invalid")),
        ("message", .str result.feedback)] ++ said "identifier" result.identifier := rfl
  rw [written, typeIs, ← said_of_ne named]
  have orType : orText (Option.some type) "invalid" = type := if_neg some
  rw [orType]
  exact ⟨rfl, rfl⟩

/-- A statement that `validate_sql` reports as invalid is refused by `execute_sql` with the
same type and the same identifier, whatever limits go with it, and without running it; the
one is a success of its tool, the other a failure. -/
theorem refused_alike {sql : String} {result : ValidationResult} {arguments : Payload}
    {maxRows timeoutMs : Option Int} (cell : Cell → Json) (duration : PyFloat)
    (accepted : validate [("sql", .str sql)] validateSchema = none)
    (alsoAccepted : validate arguments (executeSchema settings) = none)
    (statement : requiredText arguments "sql" = .ok sql)
    (rows : optionalInt arguments "max_rows" = .ok maxRows)
    (timeout : optionalInt arguments "timeout_ms" = .ok timeoutMs)
    (validated : Validator.validate p db settings catalog sql = .ok result)
    (refused : result.valid = false) :
    ∃ told failure,
      answer validate (validateSql p db settings catalog) [("sql", .str sql)] = told ∧
        (∀ query, answer validate (executeSql p { db with query := query } settings catalog cell
          duration) arguments = failure) ∧
        (toCallResult told).isError = false ∧ (toCallResult failure).isError = true ∧
        Json.get? told "valid" = some (.bool false) ∧
        Json.get? failure "error_type" = Json.get? told "error_type" ∧
        Json.get? failure "identifier" = Json.get? told "identifier" := by
  have typed := typed_validate validated
  have told := told_errorPayload (handlerError (.domain (rejection result)))
  have flagged := flagged_failed told
  have answered (query : Int → String → Except Validator.Failure (List String × List (List Cell))) :
      answer validate (executeSql p { db with query := query } settings catalog cell duration)
        arguments = failed (errorPayload (handlerError (.domain (rejection result)))) := by
    have same : Validator.validate p { db with query := query } settings catalog sql =
        .ok result := validated
    have handler : (executeSql p { db with query := query } settings catalog cell
        duration).handler arguments = .error (handlerError (.domain (rejection result))) := by
      rw [handler_executeSql statement rows timeout, execute_refused same refused]
      rfl
    have schema : (executeSql p { db with query := query } settings catalog cell
        duration).inputSchema = executeSchema settings := rfl
    rw [answer, schema, alsoAccepted, handler]
    rfl
  obtain ⟨valid, type, identifier⟩ := get?_validation result
  obtain ⟨typeAlso, identifierAlso⟩ := get?_rejection typed refused
  have read (key : String) (other : "ok" ≠ key) :
      Json.get? (succeeded (renderValidation result)) key =
        Json.get? (renderValidation result) key :=
    get?_marked_of_ne other (noOk_renderValidation result) (distinct_renderValidation result)
  have readFailure (key : String) (other : "ok" ≠ key) :
      Json.get? (failed (errorPayload (handlerError (.domain (rejection result))))) key =
        Json.get? (errorPayload (handlerError (.domain (rejection result)))) key := by
    rw [failed, filter_texts told.texts]
    exact get?_marked_of_ne other told.noOk told.distinct
  refine ⟨_, _, answer_validateSql validate accepted validated, answered,
    isError_succeeded (noOk_renderValidation result), isError_of_flagged flagged, ?_, ?_, ?_⟩
  · rw [read "valid" (by decide), valid, refused]
  · rw [readFailure "error_type" (by decide), read "error_type" (by decide), type, typeAlso]
  · rw [readFailure "identifier" (by decide), read "identifier" (by decide), identifier,
      identifierAlso]

end Statements

def blankPlatform : Platform where
  casefold := String.toLower
  closeMatch := fun _ _ => none
  parse := fun _ => .ok []
  sql := fun _ => ""
  str := fun _ => ""
  float := fun _ => none

def unasked : Validator.Database Nat where
  explain := fun _ _ => .error (.other "no connection")
  query := fun _ _ => .error (.other "no connection")

theorem refused_alike_blank : ∃ told failure,
    answer (fun _ _ => none) (validateSql blankPlatform unasked .default ⟨[]⟩)
        [("sql", .str "  ")] = told ∧
      answer (fun _ _ => none) (executeSql blankPlatform unasked .default ⟨[]⟩
        (fun n => .int n) (.finite 0)) [("sql", .str "  "), ("max_rows", .int 5)] = failure ∧
      Json.get? failure "error_type" = Json.get? told "error_type" := by
  have validated : Validator.validate blankPlatform unasked .default ⟨[]⟩ "  " =
      .ok (fail "  " .parse "syntax_error" "the query is empty") := by
    have nothing : strip "  " = "" := by decide +kernel
    have static : validateStatic blankPlatform ⟨[]⟩ "  " =
        fail "  " .parse "syntax_error" "the query is empty" := by
      rw [validateStatic, nothing]
      rfl
    rw [Validator.validate, static]
    rfl
  have statement : requiredText [("sql", .str "  "), ("max_rows", .int 5)] "sql" = .ok "  " := rfl
  have rows : optionalInt [("sql", .str "  "), ("max_rows", .int 5)] "max_rows" =
      .ok (some 5) := rfl
  have timeout : optionalInt [("sql", .str "  "), ("max_rows", .int 5)] "timeout_ms" =
      .ok none := rfl
  obtain ⟨told, failure, first, second, -, -, -, types, -⟩ := refused_alike (fun _ _ => none)
    (fun n : Nat => .int n) (.finite 0) rfl rfl statement rows timeout validated rfl
  exact ⟨told, failure, first, second unasked.query, types⟩

end Contracts
