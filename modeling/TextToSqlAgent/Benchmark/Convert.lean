import TextToSqlAgent.Benchmark.Schemas

/-!
# Executing a plan

One database becomes one schema, in one transaction: an error leaves the server
as it was. Constraints the data does not support are skipped.
-/

namespace Convert

open Python Exceptions Identifiers SqliteSource Plan Schemas

variable (unicode : Unicode) (numerals : Numerals) (server : Server)

/-! ## Cells -/

/-- `str(value)`. -/
def strOf : SqliteValue → String
  | .null => "None"
  | .integer n => toString n
  | .real x => numerals.reprFloat x
  | .text s => s
  | .blob bytes => numerals.decodeReplacing bytes

def castOr {α : Type} (wrap : α → PgValue) : Except CastError α → Except Raised PgValue
  | .ok value => .ok (wrap value)
  | .error exc => .error exc.raised

/-- Coerce one SQLite value to the type its target column was planned as. -/
def adapt (value : SqliteValue) (pgType : PgType) : Except Raised PgValue :=
  if value = .null then .ok .null
  else
    match pgType with
    | .bytea =>
      match value with
      | .blob bytes => .ok (.bytea bytes)
      | _ => .ok (.bytea (strOf numerals value).toUTF8.toList)
    | .text => .ok (.text (strOf numerals value))
    | .bigint => castOr .integer (intOf numerals value)
    | .double => castOr .double (floatOf numerals value)

/-- A row; as many types as values are needed. -/
def adaptRow : List SqliteValue → List PgType → Except Raised (List PgValue)
  | [], [] => .ok []
  | value :: values, pgType :: types => do
    let cell ← adapt numerals value pgType
    let cells ← adaptRow values types
    return cell :: cells
  | _, _ => .error (.unexpected "zip() arguments have different lengths")

/-- Every row of a table, as it is copied. -/
def tableRows (database : SqliteDatabase) (plan : TablePlan) :
    Except Raised (List (List PgValue)) := do
  let scan := database.rows plan.sourceName (plan.columns.map ColumnPlan.sourceName)
  let rows ← scan.rows.mapM fun row => adaptRow numerals row (plan.columns.map ColumnPlan.pgType)
  match scan.failure with
  | some text => throw (.unexpected text)
  | none => return rows

/-! ## One database -/

/-- What the conversion did. -/
structure ConversionReport where
  dbId : String
  schema : String
  tables : Nat := 0
  rows : Nat := 0
  coercedColumns : List String := []
  skippedPrimaryKeys : List String := []
  skippedForeignKeys : List String := []
  deriving DecidableEq, Repr

def columnsOf (plan : TablePlan) : List (String × PgType) :=
  plan.columns.map fun column => (column.targetName, column.pgType)

def coercedColumns (plan : TablePlan) : List String :=
  (plan.columns.filter fun column => column.coerced unicode).map fun column =>
    plan.targetName ++ "." ++ column.targetName ++ ":" ++ column.pgType.name

/-- Create the tables and copy their rows. -/
def loadTables (database : SqliteDatabase) (schema : String) :
    List TablePlan → Store → ConversionReport → Except Raised (Store × ConversionReport)
  | [], store, report => .ok (store, report)
  | plan :: plans, store, report => do
    let store ← execute server schema (.createTable plan.targetName (columnsOf plan)) store
    let rows ← tableRows numerals database plan
    let store ← execute server schema (.copy plan.targetName rows) store
    loadTables database schema plans store
      { report with
        rows := report.rows + rows.length
        tables := report.tables + 1
        coercedColumns := report.coercedColumns ++ coercedColumns unicode plan }

/-- Run a constraint in a savepoint; one that fails changes nothing. -/
def tryConstraint (schema : String) (action : Action) (store : Store) : Store × Bool :=
  match execute server schema action store with
  | .ok next => (next, true)
  | .error _ => (store, false)

def addPrimaryKeys (schema : String) : List TablePlan → Store × List String → Store × List String
  | [], done => done
  | plan :: plans, (store, skipped) =>
    if plan.primaryKey.isEmpty then addPrimaryKeys schema plans (store, skipped)
    else
      let (next, added) := tryConstraint server schema
        (.addPrimaryKey plan.targetName plan.primaryKey) store
      addPrimaryKeys schema plans (next, if added then skipped else skipped ++ [plan.targetName])

/-- The first 63 characters of a constraint's name. -/
def constraintName (plan : TablePlan) (index : Nat) : String :=
  String.ofList ((plan.targetName ++ "_fk_" ++ toString index).toList.take 63)

def addForeignKeysOf (schema : String) (plan : TablePlan) :
    List (KeyPlan × Nat) → Store × List String → Store × List String
  | [], done => done
  | (key, index) :: keys, (store, skipped) =>
    let (next, added) := tryConstraint server schema
      (.addForeignKey plan.targetName (constraintName plan index) key) store
    let shown := plan.targetName ++ "(" ++ ",".intercalate key.columns ++ ")->" ++
      key.referencedTable
    addForeignKeysOf schema plan keys (next, if added then skipped else skipped ++ [shown])

def addForeignKeys (schema : String) (plans : List TablePlan) (done : Store × List String) :
    Store × List String :=
  plans.foldl (fun done plan => addForeignKeysOf server schema plan plan.foreignKeys.zipIdx done)
    done

/-- `USAGE` on the schema and `SELECT` on its tables. -/
def grantReadonly (schema role : String) (store : Store) : Except Raised Store := do
  let grantee ← raising (toPgIdentifier unicode role "role")
  let store ← execute server schema (.grantUsage grantee) store
  execute server schema (.grantSelect grantee) store

/-- The schema of its name is dropped, where it is there and may be replaced. -/
def clearSchema (schema : String) (replace : Bool) (store : Store) : Except Raised Store :=
  match store.get? schema with
  | none => .ok store
  | some _ =>
    if replace then execute server schema .dropCascade store
    else
      let shownName := repr unicode schema
      .error (.domain ⟨.conversionError,
        s!"schema {shownName} already exists. Pass --replace to drop and " ++
          "reload it; loading into it would leave a mix of two databases.", none, none⟩)

/-- Create the schema, load every table, then add constraints and grants. -/
def convertDatabase (database : SqliteDatabase) (schema : String) (plans : List TablePlan)
    (readonlyRole : String) (replace : Bool) (store : Store) :
    Except Raised (Store × ConversionReport) := do
  let store ← clearSchema unicode server schema replace store
  let store ← execute server schema .create store
  let (store, report) ← loadTables unicode numerals server database schema plans store
    { dbId := database.dbId, schema := schema }
  let (store, skippedKeys) := addPrimaryKeys server schema plans (store, [])
  let (store, skippedLinks) := addForeignKeys server schema plans (store, [])
  let store ← grantReadonly unicode server schema readonlyRole store
  return (store, { report with
    skippedPrimaryKeys := skippedKeys
    skippedForeignKeys := skippedLinks })

/-! ## What a conversion leaves -/

variable {unicode numerals server}

variable (numerals) in
/-- The tables are those of the plans, in order, with the rows of the source. -/
def Holds (database : SqliteDatabase) (plans : List TablePlan)
    (tables : List (String × PgTable)) : Prop :=
  List.Forall₂ (fun plan entry => entry.1 = plan.targetName ∧ entry.2.columns = columnsOf plan ∧
    tableRows numerals database plan = .ok entry.2.rows) plans tables

variable (numerals) in
/-- The schema is there, and holds the database. -/
def Loaded (database : SqliteDatabase) (plans : List TablePlan) (schema : String)
    (store : Store) : Prop :=
  ∃ space, store.get? schema = some space ∧ Holds numerals database plans space.tables.entries

/-- A statement that leaves every table its columns and its rows. -/
inductive LeavesRows : Action → Prop
  | addPrimaryKey (table : String) (columns : List String) :
      LeavesRows (.addPrimaryKey table columns)
  | addForeignKey (table name : String) (key : KeyPlan) :
      LeavesRows (.addForeignKey table name key)
  | grantUsage (role : String) : LeavesRows (.grantUsage role)
  | grantSelect (role : String) : LeavesRows (.grantSelect role)

theorem holds_modify {database : SqliteDatabase} {plans : List TablePlan}
    {tables : Dictionary String PgTable} (table : String) {change : PgTable → PgTable}
    (columns : ∀ t, (change t).columns = t.columns) (rows : ∀ t, (change t).rows = t.rows)
    (holds : Holds numerals database plans tables.entries) :
    Holds numerals database plans (tables.modify table change).entries := by
  rw [Holds, Dictionary.modify, List.forall₂_map_right_iff]
  refine holds.imp fun plan entry own => ?_
  split
  · rw [columns, rows]
    exact own
  · exact own

theorem alter_some {space : Namespace} {table : String} {change : PgTable → PgTable}
    {after : Option Namespace} (altered : space.alter table change = some after) :
    after = some { space with tables := space.tables.modify table change } := by
  rw [Namespace.alter] at altered
  split at altered
  · exact (Option.some.inj altered).symm
  · cases altered

theorem loaded_execute {database : SqliteDatabase} {plans : List TablePlan} {schema : String}
    {action : Action} (leaves : LeavesRows action) {store next : Store}
    (loaded : Loaded numerals database plans schema store)
    (done : execute server schema action store = .ok next) :
    Loaded numerals database plans schema next := by
  obtain ⟨space, found, holds⟩ := loaded
  have applied := (execute_ok done).1
  rw [found] at applied
  cases leaves with
  | addPrimaryKey table columns =>
    exact ⟨_, alter_some applied, holds_modify table (fun _ => rfl) (fun _ => rfl) holds⟩
  | addForeignKey table name key =>
    exact ⟨_, alter_some applied, holds_modify table (fun _ => rfl) (fun _ => rfl) holds⟩
  | grantUsage role => exact ⟨_, (Option.some.inj applied).symm, holds⟩
  | grantSelect role => exact ⟨_, (Option.some.inj applied).symm, holds⟩

/-- A table that is created and filled comes last. -/
theorem entries_of_createTable_copy {space created filled : Namespace} {table : String}
    {columns : List (String × PgType)} {rows : List (List PgValue)}
    (creates : (Action.createTable table columns).apply (some space) = some (some created))
    (copies : (Action.copy table rows).apply (some created) = some (some filled)) :
    filled.tables.entries = space.tables.entries ++ [(table, ⟨columns, rows, none, []⟩)] := by
  rw [Action.apply] at creates
  split at creates
  · cases creates
  · rename_i fresh
    obtain rfl := Option.some.inj (Option.some.inj creates)
    obtain rfl := Option.some.inj (alter_some copies)
    have others : ∀ entry ∈ space.tables.entries, entry.1 ≠ table := by
      rintro ⟨name, t⟩ listed rfl
      rw [Dictionary.mem_entries_iff.mp listed] at fresh
      cases fresh
    simp only [Dictionary.modify, Dictionary.entries_set_of_fresh fresh, List.map_append]
    congr 1
    · exact (List.map_congr_left fun entry listed => if_neg (others entry listed)).trans
        (List.map_id _)
    · simp

/-- One plan after the other adds its table. -/
theorem loadTables_ok {database : SqliteDatabase} {schema : String} {plans : List TablePlan}
    {store next : Store} {report final : ConversionReport} {space : Namespace}
    (found : store.get? schema = some space)
    (done : loadTables unicode numerals server database schema plans store report =
      .ok (next, final)) :
    Within schema store next ∧ (final.dbId = report.dbId ∧ final.schema = report.schema) ∧
      ∃ after added, next.get? schema = some after ∧
        after.tables.entries = space.tables.entries ++ added ∧
        Holds numerals database plans added := by
  induction plans generalizing store report space with
  | nil =>
    cases done
    exact ⟨.refl _ _, ⟨rfl, rfl⟩, space, [], found, by rw [List.append_nil], .nil⟩
  | cons plan plans ih =>
    rw [loadTables] at done
    obtain ⟨created, creates, done⟩ := Fallible.bind_ok_iff.mp done
    obtain ⟨rows, read, done⟩ := Fallible.bind_ok_iff.mp done
    obtain ⟨filled, copies, done⟩ := Fallible.bind_ok_iff.mp done
    obtain ⟨made, within⟩ := execute_ok creates
    obtain ⟨kept, within'⟩ := execute_ok copies
    rw [found] at made
    cases first : created.get? schema with
    | none =>
      rw [first] at kept
      cases kept
    | some one =>
      cases second : filled.get? schema with
      | none =>
        rw [first, second] at kept
        have impossible := alter_some kept
        cases impossible
      | some two =>
        rw [first] at made kept
        rw [second] at kept
        obtain ⟨rest, names, after, added, there, entries, holds⟩ := ih second done
        refine ⟨(within.trans within').trans rest, names, after,
          (plan.targetName, ⟨columnsOf plan, rows, none, []⟩) :: added, there, ?_,
          .cons ⟨rfl, rfl, read⟩ holds⟩
        rw [entries, entries_of_createTable_copy made kept, List.append_assoc]
        rfl

/-- Nothing beyond the schema is changed, and what it holds of the database stays. -/
def Keeps (numerals : Numerals) (schema : String) (store next : Store) : Prop :=
  Within schema store next ∧ ∀ database plans, Loaded numerals database plans schema store →
    Loaded numerals database plans schema next

theorem Keeps.refl (schema : String) (store : Store) : Keeps numerals schema store store :=
  ⟨.refl _ _, fun _ _ loaded => loaded⟩

theorem Keeps.trans {schema : String} {a b c : Store} (first : Keeps numerals schema a b)
    (second : Keeps numerals schema b c) : Keeps numerals schema a c :=
  ⟨first.1.trans second.1, fun database plans loaded =>
    second.2 database plans (first.2 database plans loaded)⟩

theorem keeps_execute {schema : String} {action : Action} (leaves : LeavesRows action)
    {store next : Store} (done : execute server schema action store = .ok next) :
    Keeps numerals schema store next :=
  ⟨(execute_ok done).2, fun _ _ loaded => loaded_execute leaves loaded done⟩

theorem keeps_tryConstraint (schema : String) {action : Action} (leaves : LeavesRows action)
    (store : Store) : Keeps numerals schema store (tryConstraint server schema action store).1 := by
  rw [tryConstraint]
  cases done : execute server schema action store with
  | error exc => exact .refl _ _
  | ok next => exact keeps_execute leaves done

theorem keeps_addPrimaryKeys (schema : String) (plans : List TablePlan)
    (done : Store × List String) :
    Keeps numerals schema done.1 (addPrimaryKeys server schema plans done).1 := by
  induction plans generalizing done with
  | nil => exact .refl _ _
  | cons plan plans ih =>
    rw [addPrimaryKeys]
    split
    · exact ih _
    · exact (keeps_tryConstraint schema (.addPrimaryKey _ _) _).trans (ih _)

theorem keeps_addForeignKeysOf (schema : String) (plan : TablePlan) (keys : List (KeyPlan × Nat))
    (done : Store × List String) :
    Keeps numerals schema done.1 (addForeignKeysOf server schema plan keys done).1 := by
  induction keys generalizing done with
  | nil => exact .refl _ _
  | cons key keys ih => exact (keeps_tryConstraint schema (.addForeignKey _ _ _) _).trans (ih _)

theorem keeps_addForeignKeys (schema : String) (plans : List TablePlan)
    (done : Store × List String) :
    Keeps numerals schema done.1 (addForeignKeys server schema plans done).1 := by
  induction plans generalizing done with
  | nil => exact .refl _ _
  | cons plan plans ih =>
    exact (keeps_addForeignKeysOf schema plan plan.foreignKeys.zipIdx done).trans (ih _)

theorem grantReadonly_ok {schema role : String} {store next : Store}
    (done : grantReadonly unicode server schema role store = .ok next) :
    (∃ grantee, toPgIdentifier unicode role "role" = .ok grantee) ∧
      Keeps numerals schema store next := by
  obtain ⟨grantee, known, done⟩ := Fallible.bind_ok_iff.mp done
  obtain ⟨used, uses, reads⟩ := Fallible.bind_ok_iff.mp done
  exact ⟨⟨grantee, raising_ok_iff.mp known⟩,
    (keeps_execute (.grantUsage _) uses).trans (keeps_execute (.grantSelect _) reads)⟩

theorem clearSchema_ok {schema : String} {replace : Bool} {store next : Store}
    (done : clearSchema unicode server schema replace store = .ok next) :
    Within schema store next := by
  rw [clearSchema] at done
  split at done
  · cases done
    exact .refl _ _
  · split at done
    · exact (execute_ok done).2
    · cases done

/-- A converted database is in its schema as it was planned, and in no other. -/
theorem convertDatabase_ok {database : SqliteDatabase} {schema role : String}
    {plans : List TablePlan} {replace : Bool} {store next : Store} {report : ConversionReport}
    (done : convertDatabase unicode numerals server database schema plans role replace store =
      .ok (next, report)) :
    (∃ grantee, toPgIdentifier unicode role "role" = .ok grantee) ∧ Within schema store next ∧
      Loaded numerals database plans schema next ∧ report.dbId = database.dbId ∧
      report.schema = schema := by
  obtain ⟨cleared, clears, done⟩ := Fallible.bind_ok_iff.mp done
  obtain ⟨created, creates, done⟩ := Fallible.bind_ok_iff.mp done
  obtain ⟨⟨filled, summary⟩, fills, done⟩ := Fallible.bind_ok_iff.mp done
  obtain ⟨granted, grants, done⟩ := Fallible.bind_ok_iff.mp done
  obtain ⟨made, within⟩ := execute_ok creates
  have fresh : created.get? schema = some ⟨.empty, [], []⟩ := by
    cases there : cleared.get? schema with
    | some space =>
      rw [there] at made
      cases made
    | none =>
      rw [there] at made
      exact (Option.some.inj made).symm
  obtain ⟨rest, ⟨dbId, own⟩, after, added, there, entries, holds⟩ := loadTables_ok fresh fills
  have loaded : Loaded numerals database plans schema filled :=
    ⟨after, there, by rw [entries]; exact holds⟩
  obtain ⟨role, kept⟩ := grantReadonly_ok grants
  have keys : Keeps numerals schema filled (addPrimaryKeys server schema plans (filled, [])).1 :=
    keeps_addPrimaryKeys schema plans (filled, [])
  have links : Keeps numerals schema filled (addForeignKeys server schema plans
      ((addPrimaryKeys server schema plans (filled, [])).1, [])).1 :=
    keys.trans (keeps_addForeignKeys schema plans _)
  have whole := links.trans kept
  cases done
  exact ⟨role, (((clearSchema_ok clears).trans within).trans rest).trans whole.1,
    whole.2 database plans loaded, dbId, own⟩

/-! ## What is raised -/

/-- An exception that is none of the domain. -/
def Foreign (exc : Raised) : Prop := ∃ text, exc = .unexpected text

theorem foreign_castOr {α : Type} {wrap : α → PgValue} {read : Except CastError α} {exc : Raised}
    (failed : castOr wrap read = .error exc) : Foreign exc := by
  cases read with
  | ok value => cases failed
  | error cast =>
    obtain rfl := Except.error.inj failed
    cases cast <;> exact ⟨_, rfl⟩

theorem foreign_adapt {value : SqliteValue} {pgType : PgType} {exc : Raised}
    (failed : adapt numerals value pgType = .error exc) : Foreign exc := by
  unfold adapt at failed
  split at failed
  · cases failed
  · cases pgType with
    | text => cases failed
    | bigint => exact foreign_castOr failed
    | double => exact foreign_castOr failed
    | bytea => cases value <;> cases failed

theorem foreign_adaptRow {values : List SqliteValue} {types : List PgType} {exc : Raised}
    (failed : adaptRow numerals values types = .error exc) : Foreign exc := by
  induction values generalizing types with
  | nil =>
    cases types with
    | nil => cases failed
    | cons pgType types => exact ⟨_, (Except.error.inj failed).symm⟩
  | cons value values ih =>
    cases types with
    | nil => exact ⟨_, (Except.error.inj failed).symm⟩
    | cons pgType types =>
      rcases Fallible.bind_error_iff.mp failed with cell | ⟨cell, -, failed⟩
      · exact foreign_adapt cell
      · rcases Fallible.bind_error_iff.mp failed with cells | ⟨cells, -, done⟩
        · exact ih cells
        · cases done

theorem foreign_tableRows {database : SqliteDatabase} {plan : TablePlan} {exc : Raised}
    (failed : tableRows numerals database plan = .error exc) : Foreign exc := by
  rcases Fallible.bind_error_iff.mp failed with rows | ⟨rows, -, failed⟩
  · obtain ⟨row, -, fails⟩ := Fallible.error_of_mapM rows
    exact foreign_adaptRow fails
  · split at failed
    · exact ⟨_, (Except.error.inj failed).symm⟩
    · cases failed

theorem foreign_loadTables {database : SqliteDatabase} {schema : String} {plans : List TablePlan}
    {store : Store} {report : ConversionReport} {exc : Raised}
    (failed : loadTables unicode numerals server database schema plans store report =
      .error exc) : Foreign exc := by
  induction plans generalizing store report with
  | nil => cases failed
  | cons plan plans ih =>
    rw [loadTables] at failed
    rcases Fallible.bind_error_iff.mp failed with created | ⟨created, -, failed⟩
    · exact execute_error created
    · rcases Fallible.bind_error_iff.mp failed with rows | ⟨rows, -, failed⟩
      · exact foreign_tableRows rows
      · rcases Fallible.bind_error_iff.mp failed with copied | ⟨copied, -, failed⟩
        · exact execute_error copied
        · exact ih failed

/-- Where a schema may be replaced, the role alone can be refused by the converter. -/
theorem convertDatabase_error {database : SqliteDatabase} {schema role : String}
    {plans : List TablePlan} {store : Store} {exc : DomainError}
    (failed : convertDatabase unicode numerals server database schema plans role true store =
      .error (.domain exc)) : toPgIdentifier unicode role "role" = .error exc := by
  have foreign {exc : DomainError} : ¬Foreign (.domain exc) := nofun
  rcases Fallible.bind_error_iff.mp failed with cleared | ⟨cleared, -, failed⟩
  · rw [clearSchema] at cleared
    split at cleared
    · cases cleared
    · exact absurd (execute_error cleared) foreign
  · rcases Fallible.bind_error_iff.mp failed with created | ⟨created, -, failed⟩
    · exact absurd (execute_error created) foreign
    · rcases Fallible.bind_error_iff.mp failed with loaded | ⟨loaded, -, failed⟩
      · exact absurd (foreign_loadTables loaded) foreign
      · rcases Fallible.bind_error_iff.mp failed with granted | ⟨granted, -, done⟩
        · rcases Fallible.bind_error_iff.mp granted with refused | ⟨grantee, -, granted⟩
          · cases known : toPgIdentifier unicode role "role" with
            | ok grantee =>
              rw [known] at refused
              cases refused
            | error e =>
              rw [known] at refused
              cases refused
              rfl
          · rcases Fallible.bind_error_iff.mp granted with used | ⟨used, -, reads⟩
            · exact absurd (execute_error used) foreign
            · exact absurd (execute_error reads) foreign
        · cases done

end Convert
