import TextToSqlAgent.Core.JsonLayout
import TextToSqlAgent.Evals.McpRetrieval

/-!
# What the servers share

`mcp_servers.common`: tools with their schemas and handlers, and the error contract
of `_dispatch` and `to_call_result`. `jsonschema.validate` is a parameter. A payload
is a dictionary of JSON values; what only `default=str` can write is left out.
-/

namespace McpServers

open Python Exceptions JsonText JsonLayout
open McpRetrieval (CallToolResult)

abbrev Payload : Type := List (String × Json)

def genericFailure : String := "the server could not complete this call"

/-- A domain exception with what is shown of it beside its message. The identifier of
an `UnknownTableError` is its table. -/
structure ToolError extends DomainError where
  suggestion : Option String := none

/-- What a handler raises: an exception of the hierarchy, or any other, of which the
text is kept. -/
inductive HandlerError
  | domain (e : ToolError)
  | unexpected (text : String)

/-- One tool: its published contract and the function behind it. -/
structure ToolSpec where
  name : String
  description : String
  inputSchema : Payload
  handler : Payload → Except HandlerError Payload

/-- `_error_type`: the most specific class first. -/
def errorType : HandlerError → String
  | .unexpected _ => "internal_error"
  | .domain e =>
    if e.cls.isinstance .statementTimeoutError then "statement_timeout"
    else if e.cls.isinstance .permissionDeniedError then "permission_denied"
    else if e.cls.isinstance .unknownTableError then "table_not_found"
    else if e.cls.isinstance .sqlValidationError then e.errorType.getD ""
    else if e.cls.isinstance .embeddingModelMismatchError then "connection_failed"
    else if e.cls.isinstance .profilingError || e.cls.isinstance .retrievalError then
      "invalid_arguments"
    else if e.cls.isinstance .executionError then "execution_failed"
    else "internal_error"

/-- A key whose text has something to say. -/
def said (key : String) (text : Option String) : Payload :=
  match text with
  | some s => if s = "" then [] else [(key, .str s)]
  | none => []

def errorPayload (exc : HandlerError) : Payload :=
  match exc with
  | .unexpected _ => [("error_type", .str (errorType exc)), ("message", .str genericFailure)]
  | .domain e =>
    if e.cls.isinstance .sqlValidationError then
      [("error_type", .str (e.errorType.getD "")), ("message", .str e.message)] ++
        said "identifier" e.identifier
    else if e.cls.isinstance .unknownTableError then
      [("error_type", .str (errorType exc)), ("message", .str e.message),
        ("identifier", .str (e.identifier.getD ""))] ++ said "suggestion" e.suggestion
    else [("error_type", .str (errorType exc)), ("message", .str e.message)]

/-- `{"ok": ok, **payload}`. -/
def marked (ok : Bool) (payload : Payload) : Payload :=
  (Dictionary.ofList (("ok", .bool ok) :: payload)).entries

def isNull : Json → Bool
  | .null => true
  | _ => false

/-- `_failed`. -/
def failed (payload : Payload) : Payload :=
  marked false (payload.filter fun member => !isNull member.2)

def succeeded (payload : Payload) : Payload := marked true payload

/-- A `jsonschema.ValidationError`: its message and its path, as texts. -/
structure ValidationError where
  message : String
  absolutePath : List String

def rejected (exc : ValidationError) : Payload :=
  let path := ".".intercalate exc.absolutePath
  failed [("error_type", .str "invalid_arguments"), ("message", .str exc.message),
    ("identifier", if path = "" then .null else .str path)]

/-- The `ValueError` of a call of no tool of the server. -/
structure UnknownTool where
  toolName : String
  deriving DecidableEq

section Server

-- `jsonschema.validate` of an instance and a schema.
variable (validate : Payload → Payload → Option ValidationError) (specs : List ToolSpec)

/-- Of two tools of one name the later one answers. -/
def byName : Dictionary String ToolSpec :=
  Dictionary.ofList (specs.map fun spec => (spec.name, spec))

/-- What becomes of a call of a known tool. -/
def answer (spec : ToolSpec) (arguments : Payload) : Payload :=
  match validate arguments spec.inputSchema with
  | some exc => rejected exc
  | none =>
    match spec.handler arguments with
    | .ok payload => payload
    | .error (.domain e) => failed (errorPayload (.domain e))
    | .error (.unexpected _) =>
      failed [("error_type", .str "internal_error"), ("message", .str genericFailure)]

/-- `_dispatch`. -/
def dispatch (toolName : String) (arguments : Payload) : Except UnknownTool Payload :=
  match (byName specs).get? toolName with
  | none => .error ⟨toolName⟩
  | some spec => .ok (answer validate spec arguments)

def toCallResult (payload : Payload) : CallToolResult where
  content := [some (dumpsIndented (.obj payload))]
  structuredContent := some (.obj payload)
  isError := !((Json.get? payload "ok").getD (.bool false)).truthy

/-- `call_tool`. -/
def callTool (toolName : String) (arguments : Payload) :
    Except UnknownTool CallToolResult :=
  (dispatch validate specs toolName arguments).map toCallResult

end Server

example : (toCallResult (failed (errorPayload (.domain
    { cls := .profilingError, message := "no such column" })))).content =
    [some "\x7b\n  \"ok\": false,\n  \"error_type\": \"invalid_arguments\",\n  \"message\": \"no such column\"\n\x7d"] := by
  decide +kernel

/-! ## Keys of a payload -/

variable {ok : Bool} {payload : Payload} {key : String}

theorem get?_eq (members : Payload) (distinct : (members.map Prod.fst).Nodup) (key : String) :
    Json.get? members key = (Dictionary.mk members distinct).get? key := by
  simp only [Json.get?, Dictionary.get?, beq_eq_decide]

theorem get?_marked (ok : Bool) (payload : Payload) (key : String) :
    Json.get? (marked ok payload) key =
      (Dictionary.ofList (("ok", .bool ok) :: payload)).get? key :=
  get?_eq _ (Dictionary.ofList _).distinct key

theorem distinct_marked (ok : Bool) (payload : Payload) :
    ((marked ok payload).map Prod.fst).Nodup :=
  (Dictionary.ofList _).distinct

theorem ok_marked (noOk : "ok" ∉ payload.map Prod.fst) :
    Json.get? (marked ok payload) "ok" = some (.bool ok) := by
  have listed : "ok" ∈ (("ok", Json.bool ok) :: payload).map Prod.fst := by simp
  obtain ⟨value, found⟩ := Dictionary.exists_get?_ofList listed
  rw [get?_marked, found]
  rcases List.mem_cons.mp (Dictionary.mem_of_get?_ofList found) with first | later
  · exact congrArg some (Prod.mk.inj first).2
  · exact absurd (List.mem_map_of_mem later) noOk

/-- Each member of a payload of distinct keys is found under its key. -/
theorem member_marked (noOk : "ok" ∉ payload.map Prod.fst)
    (distinct : (payload.map Prod.fst).Nodup) {value : Json} (listed : (key, value) ∈ payload) :
    Json.get? (marked ok payload) key = some value := by
  have all : ((("ok", Json.bool ok) :: payload).map Prod.fst).Nodup := by
    rw [List.map_cons]
    exact List.nodup_cons.mpr ⟨noOk, distinct⟩
  rw [get?_marked, ← Dictionary.mem_entries_iff, Dictionary.entries_ofList all]
  exact List.mem_cons_of_mem _ listed

/-! ## Failures are payloads of their own -/

/-- What is said of a failure: its type, a message, and maybe more texts. -/
structure Told (errorType message : String) (payload : Payload) : Prop where
  texts : ∀ member ∈ payload, ∃ s, member.2 = .str s
  noOk : "ok" ∉ payload.map Prod.fst
  distinct : (payload.map Prod.fst).Nodup
  errorType : ("error_type", .str errorType) ∈ payload
  message : ("message", .str message) ∈ payload

theorem said_cases (key : String) (text : Option String) :
    said key text = [] ∨ ∃ s, said key text = [(key, .str s)] := by
  unfold said
  split
  · split_ifs
    · exact Or.inl rfl
    · exact Or.inr ⟨_, rfl⟩
  · exact Or.inl rfl

/-- What a model is told of an exception. -/
def shownMessage : HandlerError → String
  | .domain e => e.message
  | .unexpected _ => genericFailure

/-- What is said of an exception beside its type and message. -/
def details : HandlerError → Payload
  | .unexpected _ => []
  | .domain e =>
    if e.cls.isinstance .sqlValidationError then said "identifier" e.identifier
    else if e.cls.isinstance .unknownTableError then
      ("identifier", .str (e.identifier.getD "")) :: said "suggestion" e.suggestion
    else []

theorem not_both (c : ErrorClass) (sql : c.isinstance .sqlValidationError = true) :
    c.isinstance .statementTimeoutError = false ∧ c.isinstance .permissionDeniedError = false ∧
      c.isinstance .unknownTableError = false := by
  revert sql
  cases c <;> decide

/-- The type of a rejected statement is its own, whichever way it is read. -/
theorem errorPayload_eq (exc : HandlerError) :
    errorPayload exc =
      ("error_type", .str (errorType exc)) :: ("message", .str (shownMessage exc)) ::
        details exc := by
  cases exc with
  | unexpected text => rfl
  | domain e =>
    simp only [errorPayload, details, shownMessage]
    split_ifs with sql unknown
    · obtain ⟨noTimeout, noDenied, noTable⟩ := not_both e.cls sql
      simp only [errorType, noTimeout, noDenied, noTable, sql, Bool.false_eq_true, if_false,
        if_true, List.cons_append, List.nil_append]
    · rfl
    · rfl

theorem details_cases (exc : HandlerError) :
    details exc = [] ∨ (∃ i, details exc = [("identifier", .str i)]) ∨
      ∃ i s, details exc = [("identifier", .str i), ("suggestion", .str s)] := by
  cases exc with
  | unexpected text => exact Or.inl rfl
  | domain e =>
    simp only [details]
    split_ifs
    · rcases said_cases "identifier" e.identifier with none | some
      · exact Or.inl none
      · exact Or.inr (Or.inl some)
    · rcases said_cases "suggestion" e.suggestion with none | ⟨s, some⟩
      · exact Or.inr (Or.inl ⟨_, by rw [none]⟩)
      · exact Or.inr (Or.inr ⟨_, s, by rw [some]⟩)
    · exact Or.inl rfl

theorem told_of_details {type message : String} {more : Payload}
    (cases : more = [] ∨ (∃ i, more = [("identifier", .str i)]) ∨
      ∃ i s, more = [("identifier", .str i), ("suggestion", .str s)]) :
    Told type message (("error_type", .str type) :: ("message", .str message) :: more) := by
  rcases cases with rfl | ⟨i, rfl⟩ | ⟨i, s, rfl⟩
  all_goals
    refine ⟨?_, by simp, by simp, by simp, by simp⟩
    simp

theorem told_errorPayload (exc : HandlerError) :
    Told (errorType exc) (shownMessage exc) (errorPayload exc) := by
  rw [errorPayload_eq]
  exact told_of_details (details_cases exc)

theorem filter_texts (texts : ∀ member ∈ payload, ∃ s, member.2 = .str s) :
    payload.filter (fun member => !isNull member.2) = payload := by
  refine List.filter_eq_self.mpr fun member listed => ?_
  obtain ⟨s, text⟩ := texts member listed
  rw [text]
  rfl

/-- A failure that was told is flagged, and says what it was told. -/
structure Flagged (errorType message : String) (payload : Payload) : Prop where
  ok : Json.get? payload "ok" = some (.bool false)
  errorType : Json.get? payload "error_type" = some (.str errorType)
  message : Json.get? payload "message" = some (.str message)
  lasting : Lasting (.obj payload)

theorem flagged_failed {type message : String} (told : Told type message payload) :
    Flagged type message (failed payload) := by
  rw [failed, filter_texts told.texts]
  refine ⟨ok_marked told.noOk, member_marked told.noOk told.distinct told.errorType,
    member_marked told.noOk told.distinct told.message, .obj _ (distinct_marked _ _) ?_⟩
  intro member listed
  have among := Dictionary.mem_of_get?_ofList (Dictionary.mem_entries_iff.mp listed)
  rcases List.mem_cons.mp among with first | later
  · rw [(Prod.mk.inj first).2]
    exact .bool false
  · obtain ⟨s, text⟩ := told.texts _ later
    rw [text]
    exact .str s

theorem flagged_rejected (exc : ValidationError) :
    Flagged "invalid_arguments" exc.message (rejected exc) := by
  simp only [rejected]
  split_ifs
  · have same (s : String) : failed [("error_type", .str "invalid_arguments"),
        ("message", .str s), ("identifier", .null)] =
          failed [("error_type", .str "invalid_arguments"), ("message", .str s)] := rfl
    rw [same]
    exact flagged_failed (told_of_details (Or.inl rfl))
  · exact flagged_failed (told_of_details (Or.inr (Or.inl ⟨_, rfl⟩)))

/-! ## The error contract -/

section Contract

variable (validate : Payload → Payload → Option ValidationError)

/-- The call was refused by the schema, or the handler raised; with what is shown of
it. -/
inductive Fails (spec : ToolSpec) (arguments : Payload) : String → String → Prop
  | schema {exc : ValidationError} (refused : validate arguments spec.inputSchema = some exc) :
    Fails spec arguments "invalid_arguments" exc.message
  | raised {exc : HandlerError} (accepted : validate arguments spec.inputSchema = none)
      (handler : spec.handler arguments = .error exc) :
    Fails spec arguments (errorType exc) (shownMessage exc)

theorem flagged_of_fails {spec : ToolSpec} {arguments : Payload} {type message : String}
    (fails : Fails validate spec arguments type message) :
    Flagged type message (answer validate spec arguments) := by
  cases fails with
  | schema refused =>
    rw [answer, refused]
    exact flagged_rejected _
  | @raised exc accepted handler =>
    rw [answer, accepted, handler]
    have told := told_errorPayload exc
    cases exc with
    | domain e => exact flagged_failed told
    | unexpected text => exact flagged_failed told

theorem answer_cases (spec : ToolSpec) (arguments : Payload) :
    (∃ type message, Fails validate spec arguments type message) ∨
      ∃ payload, validate arguments spec.inputSchema = none ∧
        spec.handler arguments = .ok payload ∧ answer validate spec arguments = payload := by
  cases refused : validate arguments spec.inputSchema with
  | some exc => exact Or.inl ⟨_, _, .schema refused⟩
  | none =>
    cases handler : spec.handler arguments with
    | error exc => exact Or.inl ⟨_, _, .raised refused handler⟩
    | ok payload =>
      refine Or.inr ⟨payload, rfl, rfl, ?_⟩
      rw [answer, refused, handler]

/-- What a handler returns has been through `succeeded`. -/
def Succeeds (spec : ToolSpec) : Prop :=
  ∀ arguments payload, spec.handler arguments = .ok payload →
    ∃ body, payload = succeeded body ∧ "ok" ∉ body.map Prod.fst

theorem isError_of_flagged {payload : Payload} {type message : String}
    (flagged : Flagged type message payload) : (toCallResult payload).isError = true := by
  simp only [toCallResult, flagged.ok]
  rfl

theorem isError_succeeded {body : Payload} (noOk : "ok" ∉ body.map Prod.fst) :
    (toCallResult (succeeded body)).isError = false := by
  simp only [toCallResult, succeeded, ok_marked noOk]
  rfl

theorem isError_iff {spec : ToolSpec} (succeeds : Succeeds spec) (arguments : Payload) :
    (toCallResult (answer validate spec arguments)).isError = true ↔
      ∃ type message, Fails validate spec arguments type message := by
  constructor
  · intro error
    rcases answer_cases validate spec arguments with fails | ⟨payload, -, handler, same⟩
    · exact fails
    · obtain ⟨body, rfl, noOk⟩ := succeeds arguments payload handler
      rw [same, isError_succeeded noOk] at error
      cases error
  · rintro ⟨type, message, fails⟩
    exact isError_of_flagged (flagged_of_fails validate fails)

variable {specs : List ToolSpec} {toolName : String} {spec : ToolSpec}

theorem mem_of_byName (known : (byName specs).get? toolName = some spec) : spec ∈ specs := by
  obtain ⟨own, listed, same⟩ := List.mem_map.mp (Dictionary.mem_of_get?_ofList known)
  rw [← (Prod.mk.inj same).2]
  exact listed

/-- A call of a tool is flagged as an error exactly where its schema refuses the
arguments or its handler raises, and says of it the published type and message. -/
theorem call_flags_failures (succeed : ∀ spec ∈ specs, Succeeds spec)
    (known : (byName specs).get? toolName = some spec) (arguments : Payload) :
    ∃ result payload, callTool validate specs toolName arguments = .ok result ∧
      result.structuredContent = some (.obj payload) ∧
      (result.isError = true ↔ ∃ type message, Fails validate spec arguments type message) ∧
      ∀ type message, Fails validate spec arguments type message →
        Flagged type message payload := by
  refine ⟨_, _, by rw [callTool, dispatch, known]; rfl, rfl, ?_, ?_⟩
  · exact isError_iff validate (succeed spec (mem_of_byName known)) arguments
  · exact fun type message fails => flagged_of_fails validate fails

end Contract

/-- A profiler of one table, over a connection that may be gone. -/
def profileTool (text : String) : ToolSpec where
  name := "profile_table"
  description := "Get column statistics for a table"
  inputSchema := [("required", .arr [.str "table"])]
  handler := fun arguments =>
    match Json.get? arguments "table" with
    | some (.str "singer") => .ok (succeeded [("table", .str "singer")])
    | some (.str table) => .error (.domain
        { cls := .unknownTableError, message := "table is not in the catalog",
          identifier := some table, suggestion := some "singer" })
    | _ => .error (.unexpected text)

def requiresTable (arguments _schema : Payload) : Option ValidationError :=
  if (Json.get? arguments "table").isSome then none
  else some ⟨"'table' is a required property", []⟩

theorem succeeds_profileTool (text : String) : Succeeds (profileTool text) := by
  intro arguments payload handler
  simp only [profileTool] at handler
  split at handler
  · exact ⟨_, (Except.ok.inj handler).symm, by decide⟩
  · cases handler
  · cases handler

theorem call_flags_failures_profile : ∃ result,
    callTool requiresTable [profileTool ""] "profile_table" [] = .ok result ∧
      result.isError = true := by
  have succeed : ∀ spec ∈ [profileTool ""], Succeeds spec :=
    fun spec listed => List.mem_singleton.mp listed ▸ succeeds_profileTool ""
  have known : (byName [profileTool ""]).get? "profile_table" = some (profileTool "") := rfl
  obtain ⟨result, -, called, -, error, -⟩ := call_flags_failures requiresTable succeed known []
  exact ⟨result, called, error.mpr ⟨_, _, .schema rfl⟩⟩

/-! ## What an unexpected exception says -/

/-- The same outcomes but for the texts of exceptions that are not of the hierarchy. -/
inductive AlikeOutcome : Except HandlerError Payload → Except HandlerError Payload → Prop
  | same (outcome : Except HandlerError Payload) : AlikeOutcome outcome outcome
  | unexpected (text other : String) :
    AlikeOutcome (.error (.unexpected text)) (.error (.unexpected other))

structure AlikeSpec (spec other : ToolSpec) : Prop where
  name : spec.name = other.name
  inputSchema : spec.inputSchema = other.inputSchema
  handler : ∀ arguments, AlikeOutcome (spec.handler arguments) (other.handler arguments)

theorem answer_alike (validate : Payload → Payload → Option ValidationError) {spec other : ToolSpec}
    (alike : AlikeSpec spec other) (arguments : Payload) :
    answer validate spec arguments = answer validate other arguments := by
  have outcome := alike.handler arguments
  rw [answer, answer, alike.inputSchema]
  cases validate arguments other.inputSchema with
  | some exc => rfl
  | none =>
    generalize spec.handler arguments = one at outcome
    generalize other.handler arguments = two at outcome
    cases outcome with
    | same => rfl
    | unexpected => rfl

theorem find?_alike {specs others : List ToolSpec} (alike : List.Forall₂ AlikeSpec specs others)
    (toolName : String) :
    Option.Rel AlikeSpec ((byName specs).get? toolName) ((byName others).get? toolName) := by
  have reversed := List.rel_reverse alike
  simp only [byName, Dictionary.get?_ofList, ← List.map_reverse, List.find?_map,
    Option.map_map]
  generalize specs.reverse = one at reversed
  generalize others.reverse = two at reversed
  induction reversed with
  | nil => exact .none
  | @cons spec other specs others first rest ih =>
    by_cases same : spec.name = toolName
    · have also : other.name = toolName := first.name ▸ same
      simpa [same, also] using Option.Rel.some first
    · have neither : other.name ≠ toolName := fun equal => same (first.name.trans equal)
      simpa [same, neither] using ih

/-- Two servers whose handlers differ in the texts of unexpected exceptions answer every
call alike: no such text reaches a result. -/
theorem calls_alike (validate : Payload → Payload → Option ValidationError)
    {specs others : List ToolSpec} (alike : List.Forall₂ AlikeSpec specs others)
    (toolName : String) (arguments : Payload) :
    callTool validate specs toolName arguments = callTool validate others toolName arguments := by
  have found := find?_alike alike toolName
  rw [callTool, callTool, dispatch, dispatch]
  generalize (byName specs).get? toolName = one at found
  generalize (byName others).get? toolName = two at found
  cases found with
  | none => rfl
  | some own =>
    simp only [answer_alike validate own arguments]

theorem calls_alike_profile :
    callTool (fun _ _ => none) [profileTool "connection to 10.0.0.7 lost"] "profile_table" [] =
      callTool (fun _ _ => none) [profileTool "role postgres does not exist"] "profile_table"
        [] := by
  have alike (text other : String) : AlikeSpec (profileTool text) (profileTool other) := by
    refine ⟨rfl, rfl, fun arguments => ?_⟩
    simp only [profileTool]
    split
    · exact .same _
    · exact .same _
    · exact .unexpected _ _
  exact calls_alike _ (.cons (alike _ _) .nil) _ _

end McpServers
