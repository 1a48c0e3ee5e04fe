import TextToSqlAgent.Agent.Discovery
import TextToSqlAgent.Evals.WireTrip
import TextToSqlAgent.Execution.Executor
import TextToSqlAgent.Profiling.Profiler
import TextToSqlAgent.Schema.Retrieval

/-!
# The four tools

What each server publishes, and what its handler makes of the arguments: search,
validate, execute, profile. A number that is no `int` but stands for one is not passed
on. Durations are measured elsewhere and given.
-/

namespace McpTools

open Python Exceptions JsonText JsonLayout McpServers Discovery
open Catalog (SchemaCatalog)
open Settings (ExecutionSettings ProfilingSettings)
open Schema (RetrievedElement ForeignKey RetrievalResult)
open Validator (Platform ValidationResult ValidationStage maxSqlChars)
open Executor (QueryResult Caller)
open Profiler (TableProfiler TableProfile ColumnProfile)
open McpRetrieval (Builtins Client searchTool)
open WireTrip (textOrNull receivedElement receivedEdge)

/-! ## Arguments -/

/-- `arguments[key]`, of a text. -/
def requiredText (arguments : Payload) (key : String) : Except HandlerError String :=
  match Json.get? arguments key with
  | some (.str s) => .ok s
  | some value => .error (.unexpected s!"TypeError: {value.typeName}")
  | none => .error (.unexpected s!"KeyError: {key}")

/-- `arguments.get(key)`, of an `int`. -/
def optionalInt (arguments : Payload) (key : String) : Except HandlerError (Option Int) :=
  match Json.get? arguments key with
  | none => .ok none
  | some .null => .ok none
  | some (.int n) => .ok (some n)
  | some (.bool b) => .ok (some (if b then 1 else 0))
  | some value => .error (.unexpected s!"TypeError: {value.typeName}")

def itemText : Json → Option String
  | .str s => some s
  | _ => none

/-- `arguments.get(key)`, of a list of texts. -/
def optionalTexts (arguments : Payload) (key : String) :
    Except HandlerError (Option (List String)) :=
  match Json.get? arguments key with
  | none => .ok none
  | some .null => .ok none
  | some (.arr items) =>
    match items.mapM itemText with
    | some texts => .ok (some texts)
    | none => .error (.unexpected "TypeError: list")
  | some value => .error (.unexpected s!"TypeError: {value.typeName}")

def handlerError : Raised → HandlerError
  | .domain e => .domain { e with }
  | .unexpected text => .unexpected text

def property (type : String) (more : Payload) : Json := .obj (("type", .str type) :: more)

def objectSchema (properties : Payload) (required : List String) : Payload :=
  [("type", .str "object"), ("properties", .obj properties),
    ("required", .arr (required.map .str)), ("additionalProperties", .bool false)]

def sqlProperty (more : Payload) : String × Json :=
  ("sql", property "string" ([("minLength", .int 1), ("maxLength", .int maxSqlChars)] ++ more))

/-! ## `search_schema` -/

def searchSchema : Payload :=
  objectSchema
    [("query", property "string" [("minLength", .int 1),
      ("description", .str "The question or phrase to find schema elements for")]),
      ("k", property "integer" [("default", .int 10), ("minimum", .int 1),
        ("maximum", .int Retrieval.maxK), ("description", .str "How many elements to return")]),
      ("table_filter", property "array" [("items", property "string" []), ("minItems", .int 1),
        ("maxItems", .int Retrieval.maxTableFilter),
        ("description", .str "Restrict results to these tables")])]
    ["query"]

/-- `SchemaRetriever.search`, whatever is behind it. -/
abbrev Searches : Type :=
  String → Option Int → Option (List String) → Except Raised RetrievalResult

def search (retriever : Searches) : ToolSpec where
  name := "search_schema"
  description := "Find the tables and columns relevant to a natural-language question. " ++
    "Call this before writing SQL. Returns ranked schema elements with types " ++
    "and comments, plus the foreign-key edges connecting the tables that " ++
    "matched -- use those edges to write joins rather than guessing them. " ++
    "If a generated query referenced an identifier that turned out not to " ++
    "exist, call this again with a more specific phrasing rather than inventing a name."
  inputSchema := searchSchema
  handler := fun arguments => do
    let tableFilter ← optionalTexts arguments "table_filter"
    let query ← requiredText arguments "query"
    let k ← optionalInt arguments "k"
    let result ← (retriever query k tableFilter).mapError handlerError
    return succeeded (WireTrip.render result)

/-! ## `validate_sql` -/

def stageText : ValidationStage → String
  | .parse => "parse"
  | .singleStatement => "single_statement"
  | .readOnly => "read_only"
  | .identifiers => "identifiers"
  | .explain => "explain"

def floatOrNull : Option PyFloat → Json
  | some x => .float x
  | none => .null

/-- What has nothing to say is left out. -/
def renderValidation (result : ValidationResult) : Payload :=
  [("valid", .bool result.valid), ("stage_failed", textOrNull (result.stageFailed.map stageText)),
    ("error_type", textOrNull result.errorType), ("message", textOrNull result.message),
    ("identifier", textOrNull result.identifier), ("suggestion", textOrNull result.suggestion),
    ("estimated_cost", floatOrNull result.estimatedCost),
    ("plan_summary", textOrNull result.planSummary)].filter fun member => !isNull member.2

def validateSchema : Payload :=
  objectSchema
    [sqlProperty [("description", .str "The SQL to check. Exactly one statement")],
      ("dialect", property "string" [("enum", .arr [.str "postgres"]),
        ("default", .str "postgres"), ("description", .str "Only postgres is supported")])]
    ["sql"]

section Sql

variable {Cell : Type} (p : Platform) (db : Validator.Database Cell) (settings : ExecutionSettings)
  (catalog : SchemaCatalog)

def validateSql : ToolSpec where
  name := "validate_sql"
  description := "Check that a SQL query parses, is a single read-only SELECT, and " ++
    "references only tables and columns that exist. Runs EXPLAIN without " ++
    "executing the query, so it is cheap and safe to call repeatedly -- call " ++
    "it on every generated query before execute_sql, every time. On failure " ++
    "it names the stage that rejected the query and, for an unknown " ++
    "identifier, the nearest real name: use that to fix the query rather than " ++
    "retrying it unchanged. It also returns the planner's estimated cost, so " ++
    "an implausibly expensive query can be abandoned before it is run."
  inputSchema := validateSchema
  handler := fun arguments => do
    let sql ← requiredText arguments "sql"
    let result ← (Validator.validate p db settings catalog sql).mapError handlerError
    return succeeded (renderValidation result)

/-! ## `execute_sql` -/

def renderRows (cell : Cell → Json) (duration : PyFloat) (result : QueryResult Cell) : Payload :=
  [("columns", .arr (result.columns.map .str)),
    ("rows", .arr (result.rows.map fun row => .arr (row.map cell))),
    ("row_count", .int result.rowCount), ("truncated", .bool result.truncated),
    ("row_limit", .int result.rowLimit), ("duration_ms", .float duration),
    ("executed_sql", .str result.executedSql)]

def executeSchema : Payload :=
  objectSchema
    [sqlProperty [],
      ("max_rows", property "integer" [("minimum", .int 1),
        ("maximum", .int settings.maxRowsCeiling),
        ("description", .str "Fewer rows than the server default, if you need fewer")]),
      ("timeout_ms", property "integer" [("minimum", .int 100),
        ("maximum", .int settings.statementTimeoutCeilingMs),
        ("description", .str "A shorter timeout than the server default")])]
    ["sql"]

def executeSql (cell : Cell → Json) (duration : PyFloat) : ToolSpec where
  name := "execute_sql"
  description := "Execute a validated read-only SELECT and return the rows. Only call this " ++
    "after validate_sql returned valid: true. The query runs as a SELECT-only " ++
    "role under a row limit and a statement timeout, and the limit is applied " ++
    "server-side whether or not the query has its own -- if truncated is true, " ++
    "there were more rows than were returned and the answer must say so. " ++
    "A statement_timeout error means the query was too expensive: narrow it, " ++
    "add a filter, or aggregate more aggressively. Do not retry it unchanged."
  inputSchema := executeSchema settings
  handler := fun arguments => do
    let sql ← requiredText arguments "sql"
    let maxRows ← optionalInt arguments "max_rows"
    let timeoutMs ← optionalInt arguments "timeout_ms"
    let result ←
      (Executor.execute p db settings catalog sql maxRows timeoutMs {}).result.mapError handlerError
    return succeeded (renderRows cell duration result)

end Sql

/-! ## `profile_table` -/

def countOrNull : Option Nat → Json
  | some n => .int n
  | none => .null

def renderColumn (column : ColumnProfile) : Json :=
  .obj [("column", .str column.column), ("type", .str column.dataType),
    ("null_fraction", floatOrNull (column.nullFraction.map .finite)),
    ("distinct_count", countOrNull column.distinctCount),
    ("min", textOrNull column.minimum), ("max", textOrNull column.maximum),
    ("frequent_values", .arr (column.frequentValues.map fun value =>
      .obj [("value", .str value.value), ("count", .int value.count)])),
    ("sample_values", .arr (column.sampleValues.map .str)),
    ("withheld", .arr (column.withheld.map .str))]

def renderProfile (profile : TableProfile) : Payload :=
  [("table", .str profile.table),
    ("row_estimate", (profile.rowEstimate.map Json.int).getD .null),
    ("scanned_rows", .int profile.scannedRows), ("columns_omitted", .int profile.columnsOmitted),
    ("columns", .arr (profile.columns.map renderColumn))]

def profileSchema (settings : ProfilingSettings) : Payload :=
  objectSchema
    [("table", property "string" [("minLength", .int 1),
      ("description", .str "Table name, as returned by search_schema")]),
      ("columns", property "array" [("items", property "string" []), ("minItems", .int 1),
        ("maxItems", .int settings.maxColumns),
        ("description", .str ("Profile only these columns. Naming the two or three you are " ++
          "choosing between is cheaper and clearer than profiling the table"))]),
      ("sample_rows", property "integer" [("minimum", .int 0),
        ("maximum", .int settings.sampleRows),
        ("description", .str ("Raw example values per column. Returns none unless the server " ++
          "is configured to allow value sampling"))])]
    ["table"]

variable {V K : Type} [DecidableEq K]

/-- An `UnknownTableError` names the table that was asked for. -/
def profileError (profiler : TableProfiler V K) (table : String) : Raised → HandlerError
  | .domain e =>
    if e.cls = .unknownTableError then
      .domain { e with
        identifier := some table
        suggestion := profiler.catalog.suggestTable profiler.names table }
    else .domain { e with }
  | .unexpected text => .unexpected text

def profileTable (profiler : TableProfiler V K) : ToolSpec where
  name := "profile_table"
  description := "Get column statistics for a table: null fraction, distinct count, " ++
    "extremes for numeric and date columns, and the most frequent values. " ++
    "Call this to choose between two similarly-named columns, or to see how " ++
    "values are actually stored before writing a WHERE clause against them -- " ++
    "a column may hold 'FI' rather than 'Finland', and a query filtering on " ++
    "the wrong form returns zero rows without any error. " ++
    "Numbers are computed over a bounded scan of the table, not the whole of " ++
    "it, so treat them as indicative rather than exact. " ++
    "Any field the server withheld is listed in 'withheld' with the reason: " ++
    "that means the value was suppressed, not that the column is empty."
  inputSchema := profileSchema profiler.settings
  handler := fun arguments => do
    let table ← requiredText arguments "table"
    let columns ← optionalTexts arguments "columns"
    let sampleRows ← optionalInt arguments "sample_rows"
    let profile ← (profiler.profile table columns sampleRows).mapError (profileError profiler table)
    return succeeded (renderProfile profile)

end McpTools
