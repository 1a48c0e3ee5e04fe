import TextToSqlAgent.Core.Exceptions
import TextToSqlAgent.Core.Settings
import TextToSqlAgent.Validation.Catalog
import TextToSqlAgent.Validation.Syntax

/-!
# SQL validation

Five stages, cheapest first, stopping at the first failure. The parser, the
printer and the text functions are parameters; a parse gives one entry for each
piece of the text between semicolons, and an empty piece gives none.
-/

namespace Validator

open Python Syntax Catalog Settings Exceptions

/-- A statement the parser gives: a full `Expression`, or a tree of the wider
base class, of which only the class name is known. -/
inductive Statement
  | expression (root : Node)
  | expr (key : String)

/-- What is used of sqlglot and of Python's text functions. A parse that fails
gives the text of its exception. -/
structure Platform extends Names where
  parse : String → Except String (List (Option Statement))
  sql : Node → String
  str : Json → String
  float : Json → Option PyFloat

/-- `sqlglot.parse_one`: the first entry; it raises on an empty one. -/
def parseOne (p : Platform) (sql : String) : Option Statement :=
  match p.parse sql with
  | .ok (some statement :: _) => some statement
  | _ => none

def maxSqlChars : Nat := 100000

def explainPrefix : String := "EXPLAIN (FORMAT JSON) "

/-- Statement types that can be read-only at the top level. -/
def allowedRoot : Kind → Bool
  | .select | .union | .intersect | .except => true
  | _ => false

/-- Nodes that may not appear anywhere in the tree, root or not. -/
def forbiddenNode : Kind → Bool
  | .insert | .update | .delete | .merge | .create | .drop | .alter | .truncateTable
  | .grant | .copy | .command => true
  | _ => false

inductive ValidationStage
  | parse | singleStatement | readOnly | identifiers | explain
  deriving DecidableEq, Repr

/-- The outcome of one validation attempt. -/
structure ValidationResult where
  valid : Bool
  sql : String
  stageFailed : Option ValidationStage := none
  errorType : Option String := none
  message : Option String := none
  identifier : Option String := none
  suggestion : Option String := none
  estimatedCost : Option PyFloat := none
  planSummary : Option String := none
  tables : List String := []
  deriving DecidableEq, Repr

/-- One line to hand back to the model on a failed attempt. -/
def ValidationResult.feedback (r : ValidationResult) : String :=
  if r.valid then "valid"
  else
    let message := orText r.message "validation failed"
    let hint := orText r.suggestion ""
    if hint = "" then message else message ++ " Nearest match: " ++ hint

def fail (sql : String) (stage : ValidationStage) (errorType message : String)
    (identifier : Option String := none) (suggestion : Option String := none)
    (estimatedCost : Option PyFloat := none) (planSummary : Option String := none)
    (tables : List String := []) : ValidationResult where
  valid := false
  sql := sql
  stageFailed := some stage
  errorType := some errorType
  message := some message
  identifier := identifier
  suggestion := suggestion
  estimatedCost := estimatedCost
  planSummary := planSummary
  tables := tables

@[simp]
theorem fail_valid (sql : String) (stage : ValidationStage) (errorType message : String)
    (identifier suggestion : Option String) (cost : Option PyFloat) (plan : Option String)
    (tables : List String) :
    (fail sql stage errorType message identifier suggestion cost plan tables).valid = false := rfl

/-- The first line of a parse error names the problem; the rest draws it. -/
def firstLine (text : String) : String :=
  if strip text = "" then "could not parse the query" else strip (firstOfLines (strip text))

/-! ## Stage 3: read-only -/

/-- What the walk says of one node. -/
def nodeFailure (sql : String) (n : Node) : Option ValidationResult :=
  if forbiddenNode n.kind then
    some (fail sql .readOnly "not_read_only"
      (n.kind.key.toUpper ++
        " is not permitted anywhere in the query, including inside a CTE or subquery"))
  else if n.kind = .lock then
    some (fail sql .readOnly "not_read_only"
      "row locking (FOR UPDATE / FOR SHARE) is not permitted")
  else none

def checkReadOnly (sql : String) (statement : Node) : Option ValidationResult :=
  if allowedRoot statement.kind = false then
    some (fail sql .readOnly "not_read_only"
      ("only SELECT statements are permitted, got " ++ statement.kind.key.toUpper))
  else
    match statement.walk.findSome? (nodeFailure sql) with
    | some failure => some failure
    | none =>
      -- The `into` of the root alone is looked at.
      if (statement.arg? "into").isSome then
        some (fail sql .readOnly "not_read_only"
          "SELECT ... INTO creates a table and is not permitted; use a plain SELECT")
      else none

/-! ## Stage 4: identifiers -/

variable (p : Platform)

/-- Distinct table names named in the query, in order of appearance. -/
def referencedTables (statement : Node) : List String :=
  (((statement.findAll (· = .table)).map Node.name).filter (· ≠ "")).eraseDups

/-- The names of one common table expression: its own and its columns'. -/
def cteNames (cte : Node) : List String :=
  let projections := match cte.arg? "this" with
    | some body => if body.kind = Kind.select then body.argList "expressions" else []
    | none => []
  [cte.aliasName] ++ projections.map Node.aliasOrName

/-- Names defined by the query itself rather than by the schema. -/
def localNames (statement : Node) : List String :=
  let found := (statement.findAll (· = .cte)).flatMap cteNames ++
    (statement.findAll (· = .subquery)).map Node.aliasName ++
    (statement.findAll (· = .alias)).map Node.aliasName
  (found.filter (· ≠ "")).map p.casefold

/-- Map a table alias back to the real table it stands for. -/
def resolveAlias (statement : Node) (qualifier : String) : String :=
  match (statement.findAll (· = .table)).find? fun t =>
    t.aliasName ≠ "" && p.casefold t.aliasName == p.casefold qualifier with
  | some t => t.name
  | none => qualifier

/-- What the check says of one column reference. -/
def columnFailure (catalog : SchemaCatalog) (sql : String) (statement : Node)
    (realTables : List String) (column : Node) : Option ValidationResult :=
  let names := localNames p statement
  let name := column.name
  let qualifier := column.text "table"
  if name = "" ∨ name = "*" then none
  else if qualifier ≠ "" then
    let target := resolveAlias p statement qualifier
    if names.contains (p.casefold qualifier) || !catalog.hasTable p.toNames target ||
        catalog.hasColumn p.toNames target name then none
    else
      some (fail sql .identifiers "unknown_identifier"
        ("column \"" ++ name ++ "\" does not exist on table \"" ++ target ++ "\"")
        (some name) (catalog.suggestColumn p.toNames name [target]))
  else if (catalog.columnsOf p.toNames realTables ++ names).contains (p.casefold name) then none
  else
    some (fail sql .identifiers "unknown_identifier"
      ("column \"" ++ name ++ "\" does not exist on any referenced table")
      (some name) (catalog.suggestColumn p.toNames name realTables))

def tableFailure (catalog : SchemaCatalog) (sql : String) (statement : Node) (table : String) :
    Option ValidationResult :=
  if (localNames p statement).contains (p.casefold table) || catalog.hasTable p.toNames table then
    none
  else
    some (fail sql .identifiers "table_not_found"
      ("table \"" ++ table ++ "\" does not exist") (some table)
      (catalog.suggestTable p.toNames table))

/-- Resolve names against the catalog; skipped when the catalog is empty. -/
def checkIdentifiers (catalog : SchemaCatalog) (sql : String) (statement : Node)
    (tables : List String) : Option ValidationResult :=
  if catalog.isEmpty then none
  else
    match tables.findSome? (tableFailure p catalog sql statement) with
    | some failure => some failure
    | none =>
      let realTables := tables.filter fun t =>
        !(localNames p statement).contains (p.casefold t)
      if realTables.isEmpty then none
      else (statement.findAll (· = .column)).findSome?
        (columnFailure p catalog sql statement realTables)

/-! ## Stages 1 to 4 -/

/-- The last of the static checks, on the one statement of a text. -/
def checkStatement (catalog : SchemaCatalog) (sql : String) (root : Node) : ValidationResult :=
  match checkReadOnly sql root with
  | some failure => failure
  | none =>
    let tables := referencedTables root
    match checkIdentifiers p catalog sql root tables with
    | some failure => failure
    | none => { valid := true, sql := sql, tables := tables }

/-- Everything decidable from the text and the catalog. -/
def validateStatic (catalog : SchemaCatalog) (sql : String) : ValidationResult :=
  let text := strip sql
  if text = "" then fail sql .parse "syntax_error" "the query is empty"
  else if maxSqlChars < text.length then
    fail sql .parse "syntax_error"
      ("the query is " ++ toString text.length ++ " characters, over the " ++
        toString maxSqlChars ++ " limit")
  else
    match p.parse text with
    | .error problem => fail sql .parse "syntax_error" (firstLine problem)
    | .ok statements =>
      match statements.filterMap id with
      | [.expression root] => checkStatement p catalog sql root
      | [.expr _] =>
        fail sql .parse "syntax_error" "the parser produced a tree this validator cannot inspect"
      | parsed =>
        fail sql .singleStatement "multiple_statements"
          ("expected exactly one statement, found " ++ toString parsed.length ++
            ". Stacked statements are never accepted.")

/-! ## Stage 5: `EXPLAIN` -/

/-- A `psycopg.Error`: its SQLSTATE and the primary message of its
diagnostics, where it has them. -/
structure DriverError where
  sqlstate : Option String
  messagePrimary : Option String
  deriving DecidableEq, Repr

/-- `_ERROR_TYPES`. -/
def errorTypes : List (String × String) :=
  [("42P01", "table_not_found"), ("42703", "unknown_identifier"), ("42501", "permission_denied"),
    ("57014", "statement_timeout"), ("42601", "syntax_error")]

def fromDatabaseError (sql : String) (exc : DriverError) : ValidationResult :=
  let sqlstate := exc.sqlstate.getD ""
  let errorType := ((errorTypes.find? fun e => e.1 == sqlstate).map Prod.snd).getD "explain_failed"
  fail sql .explain errorType (orText exc.messagePrimary "the planner rejected the query")

/-- Total cost and top node of the plan; `none` where `float` refuses the cost.
A row's first column is all that is read. -/
def readPlan (row : Option Json) : Option (Option PyFloat × Option String) :=
  match row with
  | some (.arr (.obj entry :: _)) =>
    match Json.get? entry "Plan" with
    | some (.obj plan) =>
      let node := ((Json.get? plan "Node Type").filter Json.truthy).map p.str
      match Json.get? plan "Total Cost" with
      | none => some (none, node)
      | some .null => some (none, node)
      | some cost => (p.float cost).map fun c => (some c, node)
    | _ => some (none, none)
  | _ => some (none, none)

/-- What talking to the database raises: an error of the driver, or any other
exception. -/
inductive Failure
  | driver (exc : DriverError)
  | other (text : String)
  deriving DecidableEq, Repr

/-- How the target database answers. Both functions are given the statement
timeout in force. -/
structure Database (Cell : Type) where
  explain : Int → String → Except Failure (Option Json)
  query : Int → String → Except Failure (List String × List (List Cell))

variable {Cell : Type} (db : Database Cell) (settings : ExecutionSettings)

/-- Ask the planner, without running the query. -/
def explain (sql text : String) (tables : List String) : Except Raised ValidationResult :=
  match db.explain (settings.clampTimeoutMs none) (explainPrefix ++ text) with
  | .error (.driver exc) => .ok (fromDatabaseError sql exc)
  | .error (.other text) => .error (.unexpected text)
  | .ok row =>
    match readPlan p row with
    | none => .error (.unexpected "float() refused the plan's cost")
    | some (cost, summary) =>
      match cost with
      | some c =>
        if c.gt settings.maxEstimatedCost then
          .ok (fail sql .explain "cost_exceeded"
            ("the planner estimates a cost of " ++ c.grouped ++ ", over the ceiling of " ++
              settings.maxEstimatedCost.grouped ++ ". Narrow the query.")
            none none cost summary tables)
        else .ok { valid := true, sql, estimatedCost := cost, planSummary := summary, tables }
      | none => .ok { valid := true, sql, planSummary := summary, tables }

/-- Run all five stages in order, returning at the first failure. -/
def validate (catalog : SchemaCatalog) (sql : String) : Except Raised ValidationResult :=
  let static := validateStatic p catalog sql
  if static.valid then explain p db settings sql (strip sql) static.tables else .ok static

end Validator
