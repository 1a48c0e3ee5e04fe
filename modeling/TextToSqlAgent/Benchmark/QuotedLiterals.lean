import TextToSqlAgent.Benchmark.SqliteSource
import TextToSqlAgent.Library.Fallible
import TextToSqlAgent.Validation.Scopes

/-!
# Names in double quotes that are texts

SQLite reads a name in double quotes as a text where no column and no alias of that
name can be seen. PostgreSQL does not, so before a statement is translated such names
are made string literals: those that no table and no column of the database has.
-/

namespace QuotedLiterals

open SqliteSource Syntax Identifiers Exceptions

/-! ## Names in quotes -/

/-- A name in quotes that is not qualified. -/
structure Token where
  name : String
  quotes : String
  deriving DecidableEq, Repr

/-- An unqualified column that was written in quotes. The argument `quoted` of an
identifier, a flag in the source, says here which quotes they were. -/
def token? (n : Node) : Option Token :=
  match n.kind, n.arg? "this", n.arg? "table" with
  | .column, some (.mk (.identifier name) args), none =>
    match (Node.mk (.identifier name) args).arg? "quoted" with
    | some (.mk (.var quotes) _) => some ⟨name, quotes⟩
    | _ => none
  | _, _, _ => none

/-- `exp.Literal.string(name)` -/
def stringNode (name : String) : Node := .mk (.literal (.string name)) []

section Rewriting

variable {Env : Type} (child : Env → Node → String → Node → Env) (isText : Env → Token → Bool)

mutual
/-- The tree with some of its names made string literals. -/
def rewrite (env : Env) : Node → Node
  | .mk kind args =>
    match token? (.mk kind args) with
    | some token => if isText env token then stringNode token.name else .mk kind args
    | none => .mk kind (rewriteArgs env (.mk kind args) args)
def rewriteArgs (env : Env) (parent : Node) : List (String × Node) → List (String × Node)
  | [] => []
  | (key, n) :: rest =>
    (key, rewrite (child env parent key n) n) :: rewriteArgs env parent rest
end

mutual
/-- The names in a tree that could be literals, with what is seen where they stand. -/
def tokens (env : Env) : Node → List (Env × Token)
  | .mk kind args =>
    match token? (.mk kind args) with
    | some token => [(env, token)]
    | none => tokensOf env (.mk kind args) args
def tokensOf (env : Env) (parent : Node) : List (String × Node) → List (Env × Token)
  | [] => []
  | (key, n) :: rest => tokens (child env parent key n) n ++ tokensOf env parent rest
end

variable {child} {isText}

theorem stringNode_ne_of_token? {n : Node} {token : Token} (found : token? n = some token) :
    stringNode token.name ≠ n := by
  rintro rfl
  cases found

mutual
/-- Two ways to tell texts from names rewrite a tree alike if and only if they agree on
the names in it. -/
theorem rewrite_eq_iff {other : Env → Token → Bool} (env : Env) : (n : Node) →
    (rewrite child isText env n = rewrite child other env n ↔
      ∀ place ∈ tokens child env n, isText place.1 place.2 = other place.1 place.2)
  | .mk kind args => by
    rw [rewrite, rewrite, tokens]
    cases found : token? (.mk kind args) with
    | some token =>
      have apart := stringNode_ne_of_token? found
      rw [List.forall_mem_singleton]
      cases text : isText env token <;> cases otherText : other env token <;>
        simp [text, otherText, apart, Ne.symm apart]
    | none =>
      rw [← rewriteArgs_eq_iff env (.mk kind args) args, Node.mk.injEq]
      exact and_iff_right rfl
theorem rewriteArgs_eq_iff {other : Env → Token → Bool} (env : Env) (parent : Node) :
    (args : List (String × Node)) →
      (rewriteArgs child isText env parent args = rewriteArgs child other env parent args ↔
        ∀ place ∈ tokensOf child env parent args, isText place.1 place.2 = other place.1 place.2)
  | [] => ⟨fun _ => nofun, fun _ => rfl⟩
  | (key, n) :: rest => by
    rw [rewriteArgs, rewriteArgs, tokensOf, List.forall_mem_append,
      ← rewrite_eq_iff (child env parent key n) n, ← rewriteArgs_eq_iff env parent rest,
      List.cons.injEq, Prod.mk.injEq]
    exact and_congr_left' (and_iff_right rfl)
end

mutual
/-- Where texts are told by their names alone, it does not matter what is seen. -/
theorem rewrite_flat {Other : Type} {step : Other → Node → String → Node → Other}
    {text : Token → Bool} (env : Env) (other : Other) : (n : Node) →
    rewrite child (fun _ => text) env n = rewrite step (fun _ => text) other n
  | .mk kind args => by
    rw [rewrite, rewrite, rewriteArgs_flat env other (.mk kind args) args]
theorem rewriteArgs_flat {Other : Type} {step : Other → Node → String → Node → Other}
    {text : Token → Bool} (env : Env) (other : Other) (parent : Node) :
    (args : List (String × Node)) →
      rewriteArgs child (fun _ => text) env parent args =
        rewriteArgs step (fun _ => text) other parent args
  | [] => rfl
  | (key, n) :: rest => by
    rw [rewriteArgs, rewriteArgs, rewriteArgs_flat env other parent rest,
      rewrite_flat (child env parent key n) (step other parent key n) n]
end

mutual
theorem rewrite_never (env : Env) : (n : Node) → rewrite child (fun _ _ => false) env n = n
  | .mk kind args => by
    rw [rewrite, rewriteArgs_never env (.mk kind args) args]
    cases token? (.mk kind args) <;> rfl
theorem rewriteArgs_never (env : Env) (parent : Node) : (args : List (String × Node)) →
    rewriteArgs child (fun _ _ => false) env parent args = args
  | [] => rfl
  | (key, n) :: rest => by
    rw [rewriteArgs, rewriteArgs_never env parent rest,
      rewrite_never (child env parent key n) n]
end

end Rewriting

/-! ## The names of the schema -/

section Repair

variable (unicode : Unicode) (database : SqliteDatabase)

/-- Every table and column name in the source, lower-cased. -/
def schemaNames : Except DomainError (List String) := do
  let names ← database.tableNames.mapM fun tableName => do
    let table ← database.table unicode tableName
    return unicode.lower tableName :: table.columns.map fun column => unicode.lower column.name
  return names.flatten

/-- Turn double-quoted tokens that name nothing back into string literals. A column
that is the whole statement has no parent in which it could be replaced. -/
def repairQuotedLiterals (knownNames : List String) (statement : Node) : Node :=
  if knownNames = [] then statement
  else
    .mk statement.kind (rewriteArgs (fun _ _ _ _ => ())
      (fun _ token => unicode.lower token.name ∉ knownNames) () statement statement.args)

/-- A table or a column somewhere in the database has the name, but for case. -/
def InSchema (name : String) : Prop :=
  ∃ table ∈ database.tableNames, unicode.lower name = unicode.lower table ∨
    ∃ column ∈ database.tableInfo table, unicode.lower name = unicode.lower column.name

instance (name : String) : Decidable (InSchema unicode database name) :=
  inferInstanceAs (Decidable (∃ table ∈ database.tableNames, _))

/-- The names of one table. -/
def namesOf (tableName : String) : List String :=
  unicode.lower tableName ::
    (database.tableInfo tableName).map fun column => unicode.lower column.name

variable {unicode} {database}

theorem table_eq_ok_iff {name : String} {table : SqliteTable} :
    database.table unicode name = .ok table ↔
      database.tableInfo name ≠ [] ∧
        table = ⟨name, database.tableInfo name, database.foreignKeys name⟩ := by
  unfold SqliteDatabase.table
  cases columns : database.tableInfo name with
  | nil => exact ⟨nofun, fun both => absurd rfl both.1⟩
  | cons column rest =>
    exact ⟨fun same => ⟨nofun, (Except.ok.inj same).symm⟩, fun both => congrArg _ both.2.symm⟩

theorem schemaNames_eq {knownNames : List String}
    (read : schemaNames unicode database = .ok knownNames) :
    knownNames = database.tableNames.flatMap (namesOf unicode database) := by
  obtain ⟨names, each, same⟩ := Fallible.bind_ok_iff.mp read
  have groups : names.map id = database.tableNames.map (namesOf unicode database) := by
    refine Fallible.map_of_mapM each fun tableName group found => ?_
    obtain ⟨table, opened, same⟩ := Fallible.bind_ok_iff.mp found
    obtain ⟨-, rfl⟩ := table_eq_ok_iff.mp opened
    exact (Except.ok.inj same).symm
  rw [List.map_id] at groups
  rw [← Except.ok.inj same, groups, List.flatMap_def]

theorem mem_schemaNames {knownNames : List String}
    (read : schemaNames unicode database = .ok knownNames) {name : String} :
    unicode.lower name ∈ knownNames ↔ InSchema unicode database name := by
  rw [schemaNames_eq read, List.mem_flatMap]
  refine exists_congr fun table => and_congr_right' ?_
  rw [namesOf, List.mem_cons, List.mem_map]
  refine or_congr_right (exists_congr fun column => and_congr_right' eq_comm)

/-- No name is known only where there is no table. -/
theorem schemaNames_eq_nil_iff {knownNames : List String}
    (read : schemaNames unicode database = .ok knownNames) :
    knownNames = [] ↔ database.tableNames = [] := by
  rw [schemaNames_eq read, List.flatMap_eq_nil_iff, List.eq_nil_iff_forall_not_mem]
  exact forall₂_congr fun table _ => iff_of_false nofun id

end Repair

/-! ## What SQLite sees -/

/-- An item of a `FROM`: what it is called, its columns, and whether its rows have
numbers. -/
structure Item where
  name : String
  columns : List String
  rowid : Bool

/-- The common table expressions in scope, with their columns. -/
abbrev Ctes : Type := List (String × List String)

/-- SQLite where it does not go by the tables of the file. -/
structure Engine where
  /-- The columns of an item that is no stored table, of a function or of `VALUES`. -/
  columnsOf : Node → List String
  /-- What a result that has no alias and is no column is called. -/
  titleOf : Node → String
  /-- Whether a stored table has row numbers. -/
  rowid : String → Bool

def SameName (given seen : String) : Prop := asciiLower given = asciiLower seen

instance (given seen : String) : Decidable (SameName given seen) :=
  inferInstanceAs (Decidable (asciiLower given = asciiLower seen))

variable (engine : Engine) (database : SqliteDatabase)

/-- A common table expression goes before a stored table, unless the name has a schema. -/
def tableItem (ctes : Ctes) (n : Node) : Item :=
  match if (n.arg? "db").isNone then ctes.find? fun cte => SameName n.name cte.1 else none with
  | some cte => ⟨n.aliasOrName, cte.2, false⟩
  | none =>
    match database.stored? n.name with
    | some entry => ⟨n.aliasOrName, entry.columns.map SqliteColumn.name, engine.rowid n.name⟩
    | none => ⟨n.aliasOrName, engine.columnsOf n, false⟩

/-- The columns a result stands for: a star for those of the items, or of one of them. -/
def resultNames (items : List Item) (n : Node) : List String :=
  match n.kind with
  | .star => items.flatMap Item.columns
  | .column =>
    if n.name = "*" then
      (items.filter fun item => SameName (n.text "table") item.name).flatMap Item.columns
    else [n.name]
  | .alias => [n.aliasName]
  | _ => [engine.titleOf n]

def isQuery (n : Node) : Bool :=
  match n.kind with
  | .select | .union | .intersect | .except => true
  | _ => false

mutual
/-- The columns of a query: of its first `SELECT`. -/
def columnsOfQuery (ctes : Ctes) : Node → List String
  | .mk .select args =>
    let own := definitions ctes args ++ ctes
    let items := fromItems own args
    (args.filter fun arg => arg.1 = "expressions").flatMap fun arg =>
      resultNames engine items arg.2
  | .mk .union args => firstColumns (definitions ctes args ++ ctes) args
  | .mk .intersect args => firstColumns (definitions ctes args ++ ctes) args
  | .mk .except args => firstColumns (definitions ctes args ++ ctes) args
  | .mk .subquery args => firstColumns (definitions ctes args ++ ctes) args
  | n => engine.columnsOf n
/-- The columns of the query that is the argument `this`. -/
def firstColumns (ctes : Ctes) : List (String × Node) → List String
  | [] => []
  | (key, n) :: rest => if key = "this" then columnsOfQuery ctes n else firstColumns ctes rest
/-- The items of a `FROM` with its joins. -/
def fromItems (ctes : Ctes) : List (String × Node) → List Item
  | [] => []
  | (_, n) :: rest =>
    if Scopes.namesItems n then itemsIn ctes n ++ fromItems ctes rest else fromItems ctes rest
/-- The items in a tree of a `FROM` or a `JOIN`. -/
def itemsIn (ctes : Ctes) : Node → List Item
  | .mk .table args => tableItem engine database ctes (.mk .table args) :: joined ctes args
  | .mk .subquery args =>
    if args.any fun arg => arg.1 = "this" && isQuery arg.2 then
      [⟨Scopes.itemAlias (.mk .subquery args), firstColumns ctes args, false⟩]
    else joined ctes args
  | .mk (.func _ _) _ => []
  | .mk kind args =>
    if kind.key = "values" then
      [⟨Scopes.itemAlias (.mk kind args), engine.columnsOf (.mk kind args), false⟩]
    else joined ctes args
/-- What is joined in brackets. -/
def joined (ctes : Ctes) : List (String × Node) → List Item
  | [] => []
  | (key, n) :: rest =>
    if key = "this" ∨ key = "joins" then itemsIn ctes n ++ joined ctes rest else joined ctes rest
/-- The common table expressions of a query's own `WITH`. They see each other in
any order: each round adds those that need no more than the ones before. -/
def definitions (ctes : Ctes) : List (String × Node) → Ctes
  | [] => []
  | (_, .mk kind parts) :: rest =>
    if kind.key = "with" then
      (fun known => bodies (known ++ ctes) parts)^[parts.length] [] ++ definitions ctes rest
    else definitions ctes rest
def bodies (ctes : Ctes) : List (String × Node) → Ctes
  | [] => []
  | (_, n) :: rest =>
    if n.kind = .cte then body ctes n :: bodies ctes rest else bodies ctes rest
/-- One of them, with the columns named after it or those of its query. -/
def body (ctes : Ctes) : Node → String × List String
  | .mk kind args =>
    let n := Node.mk kind args
    let given := ((n.arg? "alias").toList.flatMap fun item => item.argList "columns").map Node.name
    (n.aliasName, if given = [] then firstColumns ctes args else given)
end

def rowidNames : List String := ["rowid", "oid", "_rowid_"]

/-- The columns of the items. An item alone lets its row numbers be named as well. -/
def columnsSeen (items : List Item) : List String :=
  items.flatMap Item.columns ++
    match items with
    | [item] => if item.rowid then rowidNames else []
    | _ => []

/-- The aliases in a `SELECT` list. -/
def aliases (n : Node) : List String :=
  ((n.argList "expressions").filter fun item => item.kind = .alias).map Node.aliasName

mutual
/-- What the `ORDER BY` of a compound query can name: a column or an alias of any of
its `SELECT`s. -/
def operandNames (ctes : Ctes) : Node → List String
  | .mk kind args =>
    let own := definitions engine database ctes args ++ ctes
    match kind with
    | .select => columnsSeen (fromItems engine database own args) ++ aliases (.mk .select args)
    | .union | .intersect | .except => operandNamesOf own args
    | _ => []
def operandNamesOf (ctes : Ctes) : List (String × Node) → List String
  | [] => []
  | (key, n) :: rest =>
    if key = "this" ∨ key = "expression" then operandNames ctes n ++ operandNamesOf ctes rest
    else operandNamesOf ctes rest
end

/-- What is seen from a place of a statement: the names, those among them that a
query there sees around it, and the common table expressions. -/
structure Env where
  names : List String
  around : List String
  ctes : Ctes

def start : Env := ⟨[], [], []⟩

/-- All names for an expression and for the queries in it. -/
def Env.expression (names : List String) (ctes : Ctes) : Env := ⟨names, names, ctes⟩

def isLimit (n : Node) : Bool := n.kind.key = "limit" || n.kind.key = "offset"

/-- What a part of a `SELECT` sees. The list and the windows see the columns, the other
clauses the aliases too, and a limit sees nothing. A query in the `FROM` sees only
what is around the `SELECT`. -/
def selectEnv (env : Env) (select : Node) (key : String) (n : Node) : Env :=
  let ctes := definitions engine database env.ctes select.args ++ env.ctes
  let columns := columnsSeen (fromItems engine database ctes select.args) ++ env.around
  let names := columns ++ aliases select
  if n.kind.key = "with" then ⟨env.around, env.around, ctes⟩
  else if key = "expressions" ∨ key = "windows" then .expression columns ctes
  else if Scopes.namesItems n then ⟨names, env.around, ctes⟩
  else if isLimit n then .expression [] ctes
  else .expression names ctes

/-- What a part of a compound query sees. -/
def compoundEnv (env : Env) (compound : Node) (n : Node) : Env :=
  let ctes := definitions engine database env.ctes compound.args ++ env.ctes
  if n.kind.key = "with" then ⟨env.around, env.around, ctes⟩
  else if n.kind.key = "order" then
    .expression (operandNames engine database env.ctes compound) ctes
  else if isLimit n then .expression [] ctes
  else { env with ctes }

/-- What a part of an `UPDATE` or a `DELETE` sees. -/
def changeEnv (env : Env) (change : Node) (n : Node) : Env :=
  let ctes := definitions engine database env.ctes change.args ++ env.ctes
  let names := columnsSeen (joined engine database ctes change.args ++
    fromItems engine database ctes change.args)
  if n.kind.key = "with" then ⟨env.around, env.around, ctes⟩
  else if Scopes.namesItems n then ⟨names, env.around, ctes⟩
  else .expression names ctes

/-- What a part of a node sees. -/
def childEnv (env : Env) (parent : Node) (key : String) (n : Node) : Env :=
  match parent.kind with
  | .select => selectEnv engine database env parent key n
  | .union | .intersect | .except => compoundEnv engine database env parent n
  | .update | .delete => changeEnv engine database env parent n
  | .subquery =>
    { env with ctes := definitions engine database env.ctes parent.args ++ env.ctes }
  | .func _ _ => .expression env.names env.ctes
  | _ =>
    if parent.kind.key = "join" ∧ key ≠ "this" then .expression env.names env.ctes else env

def Env.Sees (env : Env) (name : String) : Prop := ∃ seen ∈ env.names, SameName name seen

instance (env : Env) (name : String) : Decidable (env.Sees name) :=
  inferInstanceAs (Decidable (∃ seen ∈ env.names, _))

/-- SQLite reads a name in double quotes as a text where it sees no such name. -/
def readAsText (env : Env) (token : Token) : Bool := token.quotes = "\"" ∧ ¬env.Sees token.name

/-- The statement as SQLite reads it: with the texts that it takes for texts. -/
def asRead (statement : Node) : Node :=
  .mk statement.kind
    (rewriteArgs (childEnv engine database) readAsText start statement statement.args)

/-- The names in quotes in a statement, with what is seen where they stand. -/
def tokensIn (statement : Node) : List (Env × Token) :=
  tokensOf (childEnv engine database) start statement statement.args

variable {engine} {database} {unicode : Unicode}

/-- The repair goes by the names alone, wherever they stand. -/
theorem repairQuotedLiterals_eq (knownNames : List String) (statement : Node) :
    repairQuotedLiterals unicode knownNames statement =
      .mk statement.kind (rewriteArgs (childEnv engine database)
        (fun _ token => knownNames ≠ [] ∧ unicode.lower token.name ∉ knownNames)
        start statement statement.args) := by
  unfold repairQuotedLiterals
  split_ifs with empty
  · simp only [empty, ne_eq, not_true_eq_false, false_and, decide_false, rewriteArgs_never]
    cases statement
    rfl
  · simp only [empty, ne_eq, not_false_eq_true, true_and]
    rw [rewriteArgs_flat]

/-- The repaired statement is the one that SQLite reads if and only if of its names in
quotes those are known that are in backticks or seen. -/
theorem repairQuotedLiterals_eq_asRead_iff {knownNames : List String} {statement : Node} :
    repairQuotedLiterals unicode knownNames statement = asRead engine database statement ↔
      ∀ place ∈ tokensIn engine database statement,
        (knownNames = [] ∨ unicode.lower place.2.name ∈ knownNames ↔
          place.2.quotes ≠ "\"" ∨ place.1.Sees place.2.name) := by
  rw [repairQuotedLiterals_eq, asRead, Node.mk.injEq, and_iff_right rfl, rewriteArgs_eq_iff]
  refine forall₂_congr fun place _ => ?_
  have known : ¬(knownNames ≠ [] ∧ unicode.lower place.2.name ∉ knownNames) ↔
      knownNames = [] ∨ unicode.lower place.2.name ∈ knownNames := by
    rw [not_and_or, not_not, not_not]
  have seen : ¬(place.2.quotes = "\"" ∧ ¬place.1.Sees place.2.name) ↔
      place.2.quotes ≠ "\"" ∨ place.1.Sees place.2.name := by
    rw [not_and_or, not_not]
  rw [readAsText, decide_eq_decide, ← known, ← seen, not_iff_not]

/-- Only the texts that SQLite reads become literals, and all of them do, if and only if
of the names in quotes those are seen, or in quotes that make no text, that some table
or column of the database has, or all where the database has no table. -/
theorem repaired_iff {knownNames : List String}
    (read : schemaNames unicode database = .ok knownNames) (statement : Node) :
    repairQuotedLiterals unicode knownNames statement = asRead engine database statement ↔
      ∀ place ∈ tokensIn engine database statement,
        (database.tableNames = [] ∨ InSchema unicode database place.2.name ↔
          place.2.quotes ≠ "\"" ∨ place.1.Sees place.2.name) := by
  rw [repairQuotedLiterals_eq_asRead_iff, schemaNames_eq_nil_iff read]
  exact forall₂_congr fun place _ => iff_congr (or_congr_right (mem_schemaNames read)) Iff.rfl

/-! ## Two statements about singers -/

def tableEntry (name : String) (columns : List String) : Stored where
  type := "table"
  name := name
  sql := some s!"CREATE TABLE {name}"
  columns := columns.map fun column => ⟨column, "text", 0⟩
  foreignKeyRows := []
  content := ⟨[], none⟩

def concerts : SqliteDatabase :=
  ⟨"concert_singer",
    [tableEntry "singer" ["Name", "Country"], tableEntry "stadium" ["Location"]]⟩

def concertNames : List String := ["singer", "name", "country", "stadium", "location"]

def plainEngine : Engine := ⟨fun _ => [], fun _ => "", fun _ => true⟩

def column (name : String) : Node := .mk .column [("this", .mk (.identifier name) [])]

def quotedColumn (name : String) : Node :=
  .mk .column [("this", .mk (.identifier name) [("quoted", .mk (.var "\"") [])])]

def fromSinger : Node :=
  .mk (.other "from" "") [("this", .mk .table [("this", .mk (.identifier "singer") [])])]

/-- `WHERE` a column is something. -/
def whereIs (name : String) (value : Node) : Node :=
  .mk (.other "where" "")
    [("this", .mk (.other "eq" "") [("this", column name), ("expression", value)])]

/-- `SELECT "name" FROM singer WHERE country = "France"` -/
def frenchSingers : Node :=
  .mk .select [("expressions", quotedColumn "name"), ("from", fromSinger),
    ("where", whereIs "country" (quotedColumn "France"))]

theorem concertNames_read : schemaNames plainUnicode concerts = .ok concertNames := rfl

/-- A column of the table stays, and the other name becomes a literal. -/
theorem repaired_frenchSingers :
    repairQuotedLiterals plainUnicode concertNames frenchSingers =
      asRead plainEngine concerts frenchSingers :=
  (repaired_iff concertNames_read frenchSingers).mpr (by decide +kernel)

/-- `SELECT count(*) AS n FROM singer WHERE name = "Location" ORDER BY "n"` -/
def countedSingers : Node :=
  .mk .select
    [("expressions", .mk .alias [("this", .mk (.func "count" "") [("this", .mk .star [])]),
      ("alias", .mk (.identifier "n") [])]),
    ("from", fromSinger), ("where", whereIs "name" (quotedColumn "Location")),
    ("order", .mk (.other "order" "") [("expressions",
      .mk (.other "ordered" "") [("this", quotedColumn "n")])])]

/-- A text that is the name of another table's column stays a name, and an alias becomes
a literal. -/
theorem countedSingers_misread :
    schemaNames plainUnicode concerts = .ok concertNames ∧
      repairQuotedLiterals plainUnicode concertNames countedSingers ≠
        asRead plainEngine concerts countedSingers ∧
      (tokensIn plainEngine concerts countedSingers).map (fun place =>
        (place.2.name, decide (InSchema plainUnicode concerts place.2.name),
          decide (place.1.Sees place.2.name))) =
        [("Location", true, false), ("n", false, true)] := by
  refine ⟨rfl, ?_, by decide +kernel⟩
  rw [Ne, repairQuotedLiterals_eq_asRead_iff]
  decide +kernel

end QuotedLiterals
