import Mathlib.Data.List.Infix
import TextToSqlAgent.Benchmark.SqliteSource
import TextToSqlAgent.Library.Fallible

/-!
# Planning a conversion

Every target name and type is decided here, from the source alone. What Python
reads numbers from is a parameter.
-/

namespace Plan

open Python Exceptions Identifiers SqliteSource

/-! ## Types -/

inductive PgType
  | text
  | bigint
  | double
  | bytea
  deriving DecidableEq, Repr

def PgType.name : PgType → String
  | .text => "text"
  | .bigint => "bigint"
  | .double => "double precision"
  | .bytea => "bytea"

inductive Affinity
  | integer
  | real
  | numeric
  | text
  | blob
  deriving DecidableEq, Repr

def affinityDefault : Affinity → PgType
  | .integer => .bigint
  | .real => .double
  | .numeric => .double
  | .text => .text
  | .blob => .bytea

/-- `token in text`. -/
def occursIn (text token : String) : Bool := decide (token.toList <:+: text.toList)

/-- SQLite's own type-affinity rules, in their documented order. -/
def sqliteAffinity (unicode : Unicode) (declared : String) : Affinity :=
  let upper := unicode.upper declared
  if occursIn upper "INT" then .integer
  else if ["CHAR", "CLOB", "TEXT"].any (occursIn upper) then .text
  else if occursIn upper "BLOB" || strip upper = "" then .blob
  else if ["REAL", "FLOA", "DOUB"].any (occursIn upper) then .real
  else .numeric

/-- A type from the storage classes a column holds. -/
def pgTypeForStorageClasses (unicode : Unicode) (classes : List StorageClass) (declared : String) :
    PgType :=
  let present := classes.filter fun c => c ≠ .null
  if present.isEmpty then affinityDefault (sqliteAffinity unicode declared)
  else if .text ∈ present then .text
  else if .blob ∈ present then
    if .integer ∈ present ∨ .real ∈ present then .text else .bytea
  else if .real ∈ present then .double
  else if .integer ∈ present then .bigint
  else .text

/-! ## Numbers read from a value -/

/-- What Python reads of a text or of bytes, and writes of a `float`. -/
structure Numerals where
  float : String → Option PyFloat
  intOfBytes : List UInt8 → Option Int
  floatOfBytes : List UInt8 → Option PyFloat
  reprFloat : PyFloat → String
  decodeReplacing : List UInt8 → String

/-- What a caster raises. -/
inductive CastError
  | typeError
  | valueError
  | overflowError
  deriving DecidableEq, Repr

def CastError.raised : CastError → Raised
  | .typeError => .unexpected "TypeError"
  | .valueError => .unexpected "ValueError"
  | .overflowError => .unexpected "OverflowError"

/-- A number that was read, if it was. -/
def readOr {α : Type} (read : Option α) : Except CastError α :=
  match read with
  | some value => .ok value
  | none => .error .valueError

/-- The integer part of a number. -/
def truncate (q : Rat) : Int := q.num.tdiv q.den

/-- `int(value)`. -/
def intOf (numerals : Numerals) : SqliteValue → Except CastError Int
  | .null => .error .typeError
  | .integer n => .ok n
  | .real (.finite q) => .ok (truncate q)
  | .real (.inf _) => .error .overflowError
  | .real .nan => .error .valueError
  | .text s => readOr (Python.int s)
  | .blob bytes => readOr (numerals.intOfBytes bytes)

/-- `float(value)`. -/
def floatOf (numerals : Numerals) : SqliteValue → Except CastError PyFloat
  | .null => .error .typeError
  | .integer n =>
    match toDouble n with
    | some q => .ok (.finite q)
    | none => .error .overflowError
  | .real x => .ok x
  | .text s => readOr (numerals.float s)
  | .blob bytes => readOr (numerals.floatOfBytes bytes)

/-! ## Plans -/

structure ColumnPlan where
  sourceName : String
  targetName : String
  pgType : PgType
  declaredType : String
  deriving DecidableEq, Repr

/-- Whether the data forced a type the declaration did not imply. -/
def ColumnPlan.coerced (unicode : Unicode) (column : ColumnPlan) : Bool :=
  column.pgType ≠ affinityDefault (sqliteAffinity unicode column.declaredType)

/-- Local columns, referenced table and referenced columns, already folded. -/
structure KeyPlan where
  columns : List String
  referencedTable : String
  referencedColumns : List String
  deriving DecidableEq, Repr

structure TablePlan where
  sourceName : String
  targetName : String
  columns : List ColumnPlan
  primaryKey : List String
  foreignKeys : List KeyPlan
  deriving DecidableEq, Repr

variable (unicode : Unicode) (numerals : Numerals)

/-- The PostgreSQL schema one benchmark database becomes. -/
def schemaNameFor (dbId pre : String) : Except DomainError String :=
  toPgIdentifier unicode (if pre = "" then dbId else pre ++ dbId) "schema"

/-- An error of the domain, raised. -/
def raising {α : Type} : Except DomainError α → Except Raised α
  | .ok value => .ok value
  | .error exc => .error (.domain exc)

/-- `d[key]`. -/
def lookup {α : Type} (d : Dictionary String α) (key : String) : Except Raised α :=
  match d.get? key with
  | some value => .ok value
  | none => .error (.unexpected key)

/-- Match a foreign key's target table name whatever its case. -/
def resolveFkTable (referenced : String) (tableMap : IdentifierMap) : Option String :=
  (tableMap.forward.entries.find? fun entry =>
    unicode.lower entry.1 = unicode.lower referenced).map Prod.snd

/-- One foreign key as planned; one to a table or a column that is not there is
left out. -/
def planKey? (columns : IdentifierMap) (tableMap : IdentifierMap)
    (columnMaps : Dictionary String IdentifierMap) (key : SqliteForeignKey) : Option KeyPlan :=
  match resolveFkTable unicode key.referencedTable tableMap,
      columnMaps.get? key.referencedTable with
  | some target, some remoteColumns =>
    match key.columns.mapM (columns.safe unicode),
        key.referencedColumns.mapM (remoteColumns.safe unicode) with
    | .ok localColumns, .ok remote => some ⟨localColumns, target, remote⟩
    | _, _ => none
  | _, _ => none

def planTable (database : SqliteDatabase) (source : SqliteTable) (targetName : String)
    (tableMap : IdentifierMap) (columnMaps : Dictionary String IdentifierMap) :
    Except Raised TablePlan := do
  let columns ← lookup columnMaps source.name
  let names := source.columns.map SqliteColumn.name
  let classes ← database.storageClasses source.name names
  let plans ← source.columns.mapM fun column => do
    let target ← raising (columns.safe unicode column.name)
    return { sourceName := column.name
             targetName := target
             pgType := pgTypeForStorageClasses unicode ((classes.get? column.name).getD [])
               column.declaredType
             declaredType := column.declaredType : ColumnPlan }
  let primaryKey ← source.primaryKey.mapM fun name => raising (columns.safe unicode name)
  return { sourceName := source.name
           targetName := targetName
           columns := plans
           primaryKey := primaryKey
           foreignKeys := source.foreignKeys.filterMap
             (planKey? unicode columns tableMap columnMaps) }

/-! ## Both sides of a foreign key -/

def TablePlan.column? (plan : TablePlan) (targetName : String) : Option ColumnPlan :=
  plan.columns.find? fun column => column.targetName = targetName

def isNumeric (type : PgType) : Bool := type = .bigint || type = .double

/-- The type both sides should take, or none if they agree already or cannot. -/
def unifiedType (left right : PgType) : Option PgType :=
  if left = right then none
  else if left = .bytea ∨ right = .bytea then none
  else if isNumeric left ∧ isNumeric right then some .double
  else if isNumeric left then some left
  else if isNumeric right then some right
  else none

/-- A `TypeError` or a `ValueError` says that the value does not fit; any other
error is not caught. -/
def casts {α : Type} (fits : α → Bool) : Except CastError α → Except Raised Bool
  | .ok converted => .ok (fits converted)
  | .error .overflowError => .error CastError.overflowError.raised
  | .error _ => .ok false

/-- Whether a converted value is the one it came from: `int` drops the part of
a `float` after the point. -/
def keepsReal (value : SqliteValue) (converted : Int) : Bool :=
  match value with
  | .real (.finite q) => (converted : Rat) = q
  | _ => true

/-- Whether one value converts to the type without loss. -/
def valueFits (pgType : PgType) (value : SqliteValue) : Except Raised Bool :=
  if value = .null then .ok true
  else if pgType = .bigint then casts (keepsReal value) (intOf numerals value)
  else casts (fun _ => true) (floatOf numerals value)

/-- The loop over a column's values, up to the first that does not fit. -/
def allFit (pgType : PgType) (failure : Option String) : List (List SqliteValue) →
    Except Raised Bool
  | [] =>
    match failure with
    | some text => .error (.unexpected text)
    | none => .ok true
  | row :: rest => do
    if ← valueFits numerals pgType (row.getD 0 .null) then allFit pgType failure rest
    else return false

/-- Whether every value in a column converts without loss. -/
def valuesFit (database : SqliteDatabase) (plan : TablePlan) (column : ColumnPlan)
    (pgType : PgType) : Except Raised Bool :=
  let scan := database.rows plan.sourceName [column.sourceName]
  allFit numerals pgType scan.failure scan.rows

/-- The types decided so far, by table and column. -/
abbrev Retyped : Type := Dictionary (String × String) PgType

/-- Give one column the type, where its data allows. -/
def retype (database : SqliteDatabase) (owner : TablePlan) (column : ColumnPlan) (wanted : PgType)
    (retyped : Retyped) : Except Raised Retyped := do
  let key := (owner.targetName, column.targetName)
  if (retyped.get? key).getD column.pgType = wanted then return retyped
  else if ← valuesFit numerals database owner column wanted then return retyped.set key wanted
  else return retyped

/-- One pair of columns of a key. -/
def unifyPair (database : SqliteDatabase) (plan target : TablePlan) (localColumn remote : String)
    (retyped : Retyped) : Except Raised Retyped :=
  match plan.column? localColumn, target.column? remote with
  | some left, some right =>
    match unifiedType ((retyped.get? (plan.targetName, localColumn)).getD left.pgType)
        ((retyped.get? (target.targetName, remote)).getD right.pgType) with
    | some wanted => do
      let retyped ← retype numerals database plan left wanted retyped
      retype numerals database target right wanted retyped
    | none => .ok retyped
  | _, _ => .ok retyped

/-- The pairs of a key; lists of two lengths are an error. -/
def unifyPairs (database : SqliteDatabase) (plan target : TablePlan) :
    List String → List String → Retyped → Except Raised Retyped
  | [], [], retyped => .ok retyped
  | localColumn :: locals, remote :: remotes, retyped => do
    let retyped ← unifyPair numerals database plan target localColumn remote retyped
    unifyPairs database plan target locals remotes retyped
  | _, _, _ => .error (.unexpected "zip() arguments have different lengths")

def unifyKey (database : SqliteDatabase) (byName : Dictionary String TablePlan) (plan : TablePlan)
    (retyped : Retyped) (key : KeyPlan) : Except Raised Retyped :=
  match byName.get? key.referencedTable with
  | some target =>
    unifyPairs numerals database plan target key.columns key.referencedColumns retyped
  | none => .ok retyped

def applyRetypes (plan : TablePlan) (retyped : Retyped) : TablePlan :=
  { plan with columns := plan.columns.map fun column =>
      match retyped.get? (plan.targetName, column.targetName) with
      | some pgType => { column with pgType := pgType }
      | none => column }

/-- Give both sides of a foreign key one type, where the data allows. -/
def unifyForeignKeyTypes (database : SqliteDatabase) (plans : List TablePlan) :
    Except Raised (List TablePlan) := do
  let byName := Dictionary.ofList (plans.map fun plan => (plan.targetName, plan))
  let retyped ← plans.foldlM (fun retyped plan =>
    plan.foreignKeys.foldlM (unifyKey numerals database byName plan) retyped) Dictionary.empty
  return plans.map fun plan => applyRetypes plan retyped

/-- The plan of every table, each column with the type of its own data. -/
def planTables (database : SqliteDatabase) (names : List String) :
    Except Raised (List TablePlan) := do
  let tableMap ← raising (IdentifierMap.build unicode names "table")
  let sources ← names.mapM fun name => raising (database.table unicode name)
  let maps ← sources.mapM fun source => do
    let map ← raising (IdentifierMap.build unicode (source.columns.map SqliteColumn.name) "column")
    return (source.name, map)
  sources.mapM fun source => do
    let target ← raising (tableMap.safe unicode source.name)
    planTable unicode database source target tableMap (.ofList maps)

/-- Read a source database and decide the whole target shape. -/
def planDatabase (database : SqliteDatabase) (pre : String) :
    Except Raised (String × List TablePlan) := do
  let schema ← raising (schemaNameFor unicode database.dbId pre)
  if database.tableNames.isEmpty then
    let dbId := database.dbId
    throw (.domain ⟨.conversionError, s!"{dbId}: no ordinary tables to convert", none, none⟩)
  else
    let plans ← planTables unicode database database.tableNames
    let unified ← unifyForeignKeyTypes numerals database plans
    return (schema, unified)

variable {unicode numerals}

theorem raising_ok_iff {α : Type} {x : Except DomainError α} {value : α} :
    raising x = .ok value ↔ x = .ok value := by
  cases x with
  | error exc => exact ⟨nofun, nofun⟩
  | ok found => exact ⟨fun same => congrArg Except.ok (Except.ok.inj same),
      fun same => congrArg Except.ok (Except.ok.inj same)⟩

/-- A plan is made under the name of its own schema. -/
theorem schema_of_planDatabase {database : SqliteDatabase} {pre schema : String}
    {plans : List TablePlan} (planned : planDatabase unicode numerals database pre =
      .ok (schema, plans)) : schemaNameFor unicode database.dbId pre = .ok schema := by
  obtain ⟨name, named, rest⟩ := Fallible.bind_ok_iff.mp planned
  split at rest
  · cases rest
  · obtain ⟨tables, -, rest⟩ := Fallible.bind_ok_iff.mp rest
    obtain ⟨unified, -, rest⟩ := Fallible.bind_ok_iff.mp rest
    cases rest
    exact raising_ok_iff.mp named

/-! ## What a plan covers -/

/-- The tables of the plans, with their columns, are those of the database. -/
def Covers (database : SqliteDatabase) (plans : List TablePlan) : Prop :=
  (plans.map fun plan => (plan.sourceName, plan.columns.map ColumnPlan.sourceName)) =
    database.tableNames.map fun name => (name, (database.tableInfo name).map SqliteColumn.name)

theorem table_ok {database : SqliteDatabase} {name : String} {table : SqliteTable}
    (read : database.table unicode name = .ok table) :
    table.name = name ∧ table.columns = database.tableInfo name := by
  rw [SqliteDatabase.table] at read
  split at read
  · cases read
  · cases read
    exact ⟨rfl, rfl⟩

theorem sources_of_planTable {database : SqliteDatabase} {source : SqliteTable} {target : String}
    {tableMap : IdentifierMap} {columnMaps : Dictionary String IdentifierMap} {plan : TablePlan}
    (planned : planTable unicode database source target tableMap columnMaps = .ok plan) :
    plan.sourceName = source.name ∧
      plan.columns.map ColumnPlan.sourceName = source.columns.map SqliteColumn.name := by
  obtain ⟨columns, -, planned⟩ := Fallible.bind_ok_iff.mp planned
  obtain ⟨classes, -, planned⟩ := Fallible.bind_ok_iff.mp planned
  obtain ⟨plans, each, planned⟩ := Fallible.bind_ok_iff.mp planned
  obtain ⟨key, -, planned⟩ := Fallible.bind_ok_iff.mp planned
  cases planned
  refine ⟨rfl, Fallible.map_of_mapM each fun column plan read => ?_⟩
  obtain ⟨target, -, made⟩ := Fallible.bind_ok_iff.mp read
  cases made
  rfl

theorem sources_applyRetypes (plan : TablePlan) (retyped : Retyped) :
    (applyRetypes plan retyped).columns.map ColumnPlan.sourceName =
      plan.columns.map ColumnPlan.sourceName := by
  rw [applyRetypes, List.map_map]
  refine List.map_congr_left fun column _ => ?_
  rw [Function.comp_apply]
  split <;> rfl

theorem covers_planDatabase {database : SqliteDatabase} {pre schema : String}
    {plans : List TablePlan} (planned : planDatabase unicode numerals database pre =
      .ok (schema, plans)) : Covers database plans := by
  obtain ⟨name, named, rest⟩ := Fallible.bind_ok_iff.mp planned
  split at rest
  · cases rest
  · obtain ⟨tables, tabled, rest⟩ := Fallible.bind_ok_iff.mp rest
    obtain ⟨unified, unifies, rest⟩ := Fallible.bind_ok_iff.mp rest
    cases rest
    obtain ⟨retyped, -, done⟩ := Fallible.bind_ok_iff.mp unifies
    cases done
    obtain ⟨tableMap, -, tabled⟩ := Fallible.bind_ok_iff.mp tabled
    obtain ⟨sources, reads, tabled⟩ := Fallible.bind_ok_iff.mp tabled
    obtain ⟨maps, -, tabled⟩ := Fallible.bind_ok_iff.mp tabled
    have made : tables.map (fun plan => (plan.sourceName,
        plan.columns.map ColumnPlan.sourceName)) =
          sources.map fun source => (source.name, source.columns.map SqliteColumn.name) := by
      refine Fallible.map_of_mapM tabled fun source plan made => ?_
      obtain ⟨target, -, made⟩ := Fallible.bind_ok_iff.mp made
      obtain ⟨sourceName, columns⟩ := sources_of_planTable made
      rw [sourceName, columns]
    have read : sources.map (fun source => (source.name,
        source.columns.map SqliteColumn.name)) = database.tableNames.map fun name =>
          (name, (database.tableInfo name).map SqliteColumn.name) := by
      refine Fallible.map_of_mapM reads fun name source read => ?_
      obtain ⟨own, columns⟩ := table_ok (raising_ok_iff.mp read)
      rw [own, columns]
    rw [Covers, List.map_map, ← read, ← made]
    exact List.map_congr_left fun plan _ =>
      congrArg (Prod.mk plan.sourceName) (sources_applyRetypes plan retyped)

end Plan
