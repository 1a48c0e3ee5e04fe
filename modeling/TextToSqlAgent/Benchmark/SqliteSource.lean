import TextToSqlAgent.Benchmark.Identifiers

/-!
# Reading a benchmark's SQLite database

What the converter's queries see of a database file. SQLite takes names without
regard to the case of ASCII letters, and a quoted name of no column as a text.
-/

namespace SqliteSource

open Python Exceptions Identifiers

/-- A value of one of SQLite's storage classes, a text already decoded. -/
inductive SqliteValue
  | null
  | integer (n : Int)
  | real (x : PyFloat)
  | text (s : String)
  | blob (bytes : List UInt8)
  deriving DecidableEq, Repr

inductive StorageClass
  | null
  | integer
  | real
  | text
  | blob
  deriving DecidableEq, Repr

def SqliteValue.typeof : SqliteValue → StorageClass
  | .null => .null
  | .integer _ => .integer
  | .real _ => .real
  | .text _ => .text
  | .blob _ => .blob

/-- One source column; its position in the primary key, or 0. -/
structure SqliteColumn where
  name : String
  declaredType : String
  primaryKeyPosition : Nat
  deriving DecidableEq, Repr

/-- One foreign key, flattened to parallel column lists. -/
structure SqliteForeignKey where
  columns : List String
  referencedTable : String
  referencedColumns : List String
  deriving DecidableEq, Repr

structure SqliteTable where
  name : String
  columns : List SqliteColumn
  foreignKeys : List SqliteForeignKey

/-- The key's columns, in the order of their positions. -/
def keyColumns (columns : List SqliteColumn) : List String :=
  ((columns.filter fun c => 0 < c.primaryKeyPosition).insertionSort fun c d =>
    c.primaryKeyPosition ≤ d.primaryKeyPosition).map SqliteColumn.name

def SqliteTable.primaryKey (table : SqliteTable) : List String := keyColumns table.columns

/-- One row of `pragma_foreign_key_list`, by constraint and position. -/
structure ForeignKeyRow where
  id : Int
  seq : Int
  table : String
  localColumn : String
  remoteColumn : Option String

/-- What a statement reads: rows, and what it raises after them, if anything. -/
structure Scan where
  rows : List (List SqliteValue)
  failure : Option String

/-- An entry of `sqlite_master`, with what is stored under it. -/
structure Stored where
  type : String
  name : String
  sql : Option String
  columns : List SqliteColumn
  foreignKeyRows : List ForeignKeyRow
  content : Scan

/-- An open, read-only handle on one benchmark database. -/
structure SqliteDatabase where
  dbId : String
  master : List Stored

/-- The ASCII letters in lower case, as SQLite compares names. -/
def asciiLower (s : String) : String := String.ofList (s.toList.map Char.toLower)

/-- Whether a name is like `sqlite_%`. -/
def isInternal (name : String) : Bool :=
  name.length ≥ 7 && asciiLower (String.ofList (name.toList.take 6)) = "sqlite"

def isVirtual (sql : String) : Bool :=
  "create virtual".toList.isPrefixOf (asciiLower sql).toList

namespace SqliteDatabase

variable (unicode : Unicode) (database : SqliteDatabase)

/-- Ordinary tables only, in a stable order. -/
def tableNames : List String :=
  ((database.master.filter fun entry =>
    entry.type = "table" && !isInternal entry.name &&
      entry.sql.any fun sql => !isVirtual sql).map Stored.name).insertionSort fun a b => a ≤ b

def stored? (name : String) : Option Stored :=
  database.master.find? fun entry => asciiLower entry.name = asciiLower name

/-- `pragma_table_info`. -/
def tableInfo (name : String) : List SqliteColumn :=
  match database.stored? name with
  | some entry => entry.columns
  | none => []

/-- The rows of `pragma_foreign_key_list`, grouped by constraint. -/
def groupedKeys (name : String) : Dictionary Int (List ForeignKeyRow) :=
  let rows := match database.stored? name with
    | some entry => entry.foreignKeyRows
    | none => []
  rows.foldl (fun grouped row => grouped.set row.id ((grouped.get? row.id).getD [] ++ [row])) .empty

/-- One constraint. A missing remote column means the referenced table's own
primary key; a constraint it does not fit is left out. -/
def foreignKey? (pairs : List ForeignKeyRow) : Option SqliteForeignKey :=
  let referencedTable := (pairs.head?.map ForeignKeyRow.table).getD ""
  let columns := pairs.map ForeignKeyRow.localColumn
  match pairs.mapM ForeignKeyRow.remoteColumn with
  | some remote => some ⟨columns, referencedTable, remote⟩
  | none =>
    let target := keyColumns (database.tableInfo referencedTable)
    if target.length ≠ columns.length then none else some ⟨columns, referencedTable, target⟩

def foreignKeys (name : String) : List SqliteForeignKey :=
  (database.groupedKeys name).entries.filterMap fun group => database.foreignKey? group.2

/-- Columns and foreign keys for one table. -/
def table (name : String) : Except DomainError SqliteTable :=
  match database.tableInfo name with
  | [] =>
    let dbId := database.dbId
    let shownName := repr unicode name
    .error ⟨.conversionError, s!"{dbId}: table {shownName} has no columns, or does not exist",
      none, none⟩
  | columns => .ok ⟨name, columns, database.foreignKeys name⟩

/-- What a quoted name stands for in a row of a table. -/
def cell (entry : Stored) (row : List SqliteValue) (column : String) : SqliteValue :=
  match entry.columns.findIdx? fun c => asciiLower c.name = asciiLower column with
  | some i => row.getD i .null
  | none => .text column

/-- A table's rows, with the columns named. -/
def rows (name : String) (columns : List String) : Scan :=
  match database.stored? name with
  | some entry => ⟨entry.content.rows.map fun row => columns.map (cell entry row),
      entry.content.failure⟩
  | none => ⟨[], some s!"no such table: {name}"⟩

/-- The set of storage classes present in each column. -/
def storageClasses (name : String) (columns : List String) :
    Except Raised (Dictionary String (List StorageClass)) :=
  let scan := database.rows name columns
  match scan.failure with
  | some text => .error (.unexpected text)
  | none => .ok (.ofList (columns.zipIdx.map fun column =>
      (column.1, (scan.rows.map fun row => (row.getD column.2 .null).typeof).dedup)))

end SqliteDatabase

/-- What is at a path: a database file, or a file that is none. -/
inductive Content
  | database (master : List Stored)
  | unreadable (text : String)

/-- Open a benchmark database read-only. -/
def openDatabase (files : String → Option Content) (path dbId : String) :
    Except DomainError SqliteDatabase :=
  match files path with
  | none => .error ⟨.conversionError, s!"no SQLite database at {path}", none, none⟩
  | some (.unreadable text) =>
    .error ⟨.conversionError, s!"{path} is not a readable SQLite database: {text}", none, none⟩
  | some (.database master) => .ok ⟨dbId, master⟩

end SqliteSource
