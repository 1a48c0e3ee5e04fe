import Mathlib.Data.Prod.Lex
import Mathlib.Data.String.Basic
import TextToSqlAgent.Schema.Readers

/-!
# Reading the target schema

`PostgresIntrospector.snapshot`: the server's catalog is read three times, outside of a
transaction, so that it may be another catalog each time; and a few values are read of
every column that may be sampled. What is found is indexed, dataset by dataset.
-/

namespace Introspection

open Exceptions Schema Catalog Indexer Refresh Readers Fallible

/-! ## The server's catalog -/

/-- A row of `pg_attribute`, its type and comment, and what `has_column_privilege` says. -/
structure PgAttribute where
  attname : String
  attnum : Int
  formatType : String
  attnotnull : Bool
  attisdropped : Bool
  description : Option String
  select : Bool
  deriving DecidableEq

/-- A row of `pg_class`, and what `has_table_privilege` says. -/
structure PgClass where
  oid : Nat
  nspname : String
  relname : String
  relkind : Char
  description : Option String
  select : Bool
  attributes : List PgAttribute
  deriving DecidableEq

/-- A row of `pg_constraint`: `keys` is `unnest(conkey, confkey)`. -/
structure PgConstraint where
  conname : String
  contype : Char
  conrelid : Nat
  confrelid : Nat
  keys : List (Int × Int)
  deriving DecidableEq

/-- What the unique indexes of the server hold apart. -/
structure PgCatalog where
  classes : List PgClass
  constraints : List PgConstraint
  relnames : (classes.map fun c => (c.nspname, c.relname)).Nodup
  attnames : ∀ c ∈ classes, (c.attributes.map PgAttribute.attname).Nodup

/-- `_RELKINDS`. -/
def relkinds : List Char := ['r', 'p', 'v', 'm', 'f']

section queries

variable (schema : String) (catalog : PgCatalog)

def PgClass.readable (c : PgClass) : Bool :=
  c.nspname = schema ∧ c.relkind ∈ relkinds ∧ c.select

def PgAttribute.readable (a : PgAttribute) : Bool :=
  0 < a.attnum ∧ a.attisdropped = false ∧ a.select

/-- `_TABLES_SQL`. -/
def tablesSql : List (String × Option String) :=
  (Counting.sortBy PgClass.relname (catalog.classes.filter (PgClass.readable schema))).map
    fun c => (c.relname, c.description)

/-- `_COLUMNS_SQL`. -/
def columnsSql : List (String × PgAttribute) :=
  Counting.sortBy (fun row => toLex (row.1, row.2.attnum))
    ((catalog.classes.filter (PgClass.readable schema)).flatMap fun c =>
      (c.attributes.filter PgAttribute.readable).map fun a => (c.relname, a))

def classAt (oid : Nat) : Option PgClass := catalog.classes.find? fun c => c.oid = oid

def PgClass.attributeAt (c : PgClass) (attnum : Int) : Option PgAttribute :=
  c.attributes.find? fun a => a.attnum = attnum

/-- The column pairs of a constraint between relations that may both be read. Only the
referencing one is of the schema. -/
def pairsOf (con : PgConstraint) : List (String × Nat × ForeignKey) :=
  match classAt catalog con.conrelid, classAt catalog con.confrelid with
  | some source, some target =>
    if con.contype = 'f' ∧ source.nspname = schema ∧ source.select ∧ target.select then
      con.keys.zipIdx.filterMap fun key => do
        let one ← source.attributeAt key.1.1
        let other ← target.attributeAt key.1.2
        return (con.conname, key.2,
          ⟨source.relname, one.attname, target.relname, other.attname, some con.conname⟩)
    else []
  | _, _ => []

/-- `_FOREIGN_KEYS_SQL`. -/
def foreignKeysSql : List ForeignKey :=
  (Counting.sortBy (fun row => toLex (row.1, row.2.1))
    (catalog.constraints.flatMap (pairsOf schema catalog))).map fun row => row.2.2

end queries

/-! ## The introspector -/

/-- The sampling query on a column, with its bounds. -/
structure SampleQuery where
  schema : String
  table : String
  column : String
  maxChars : Int
  scanLimit : Int
  count : Int
  deriving DecidableEq

/-- What the queries of a snapshot are answered with: the catalog that each of the three
meets, and of a column its values, or the text of the driver's error. -/
structure Answers where
  columns : Except Raised PgCatalog
  tables : Except Raised PgCatalog
  foreignKeys : Except Raised PgCatalog
  samples : SampleQuery → Except String (List String)

structure PostgresIntrospector where
  schema : String
  sampleValues : Bool
  sampleCount : Int
  sampleMaxChars : Int
  sampleScanLimit : Int
  sensitivePatterns : List String
  names : Names

/-- The constructor. A sampling query that fails would abort a transaction. -/
def postgresIntrospector (autocommit : Bool) (introspector : PostgresIntrospector) :
    Except Raised PostgresIntrospector :=
  if introspector.sampleValues && !autocommit then
    .error (.unexpected "ValueError: sampling requires an autocommit connection")
  else .ok { introspector with
    sampleValues := introspector.sampleValues && 0 < introspector.sampleCount }

section snapshot

variable (introspector : PostgresIntrospector) (answers : Answers)

/-- `_samples`: a few values, or nothing at all. -/
def samples (table column : String) : List String :=
  if introspector.sampleValues = false then []
  else if isSensitive introspector.names column introspector.sensitivePatterns then []
  else
    match answers.samples ⟨introspector.schema, table, column, introspector.sampleMaxChars,
        introspector.sampleScanLimit, introspector.sampleCount⟩ with
    | .error _ => []
    | .ok values => values

/-- What is made of a row of `_COLUMNS_SQL`. -/
def columnOf (row : String × PgAttribute) : Column where
  table := row.1
  name := row.2.attname
  dataType := row.2.formatType
  isNullable := !row.2.attnotnull
  comment := row.2.description
  sampleValues := samples introspector answers row.1 row.2.attname

/-- `_columns`. -/
def columns : Except Raised (Dictionary String (List Column)) := do
  let catalog ← answers.columns
  return Dictionary.groupBy Column.table
    ((columnsSql introspector.schema catalog).map (columnOf introspector answers))

/-- `snapshot`. -/
def snapshot : Except Raised SchemaSnapshot := do
  let columnsByTable ← columns introspector answers
  let tables ← answers.tables
  let foreignKeys ← answers.foreignKeys
  return {
    tables := (tablesSql introspector.schema tables).map fun row =>
      { name := row.1, comment := row.2, columns := (columnsByTable.get? row.1).getD [] }
    foreignKeys := foreignKeysSql introspector.schema foreignKeys }

end snapshot

/-! ## Indexing what is found -/

/-- A schema is read and indexed, each schema in a dataset of its name. -/
structure Pass (V T : Type) where
  introspector : PostgresIntrospector
  answers : Answers
  server : Server T
  indexer : SchemaIndexer V

section passes

variable {V T : Type}

/-- The outcome of a pass, and the connection of the indexer after it. -/
def Pass.outcome (pass : Pass V T) (conn : Connection V T) :
    Except Raised IndexReport × Connection V T :=
  match snapshot pass.introspector pass.answers with
  | .error exc => (.error exc, conn)
  | .ok found =>
    match index pass.server pass.indexer found conn with
    | .ok report next => (.ok report, next)
    | .error exc next => (.error exc, next)

/-- Passes one after the other, whatever becomes of each. -/
def indexAll : Connection V T → List (Pass V T) → List (Except Raised IndexReport) × Connection V T
  | conn, [] => ([], conn)
  | conn, pass :: rest =>
    let first := pass.outcome conn
    let later := indexAll first.2 rest
    (first.1 :: later.1, later.2)

theorem indexAll_append (conn : Connection V T) (first rest : List (Pass V T)) :
    (indexAll conn (first ++ rest)).2 = (indexAll (indexAll conn first).2 rest).2 := by
  induction first generalizing conn with
  | nil => rfl
  | cons pass first ih => exact ih _

end passes

/-! ## What a snapshot has -/

section found

variable {introspector : PostgresIntrospector} {answers : Answers} {found : SchemaSnapshot}

theorem snapshot_ok (done : snapshot introspector answers = .ok found) :
    ∃ columns tables foreignKeys, answers.columns = .ok columns ∧ answers.tables = .ok tables ∧
      answers.foreignKeys = .ok foreignKeys ∧
      found.tables = (tablesSql introspector.schema tables).map (fun row =>
        { name := row.1
          comment := row.2
          columns := ((columnsSql introspector.schema columns).filter fun column =>
            column.1 = row.1).map (columnOf introspector answers) }) ∧
      found.foreignKeys = foreignKeysSql introspector.schema foreignKeys := by
  obtain ⟨byTable, grouped, done⟩ := bind_ok_iff.mp done
  obtain ⟨columns, first, same⟩ := bind_ok_iff.mp grouped
  obtain ⟨tables, second, done⟩ := bind_ok_iff.mp done
  obtain ⟨foreignKeys, third, done⟩ := bind_ok_iff.mp done
  obtain rfl := Except.ok.inj same
  obtain rfl := Except.ok.inj done
  refine ⟨columns, tables, foreignKeys, first, second, third, ?_, rfl⟩
  refine List.map_congr_left fun row _ => ?_
  rw [Dictionary.getD_groupBy, List.filter_map]
  rfl

theorem perm_sortBy {α κ : Type} [LinearOrder κ] (key : α → κ) (l : List α) :
    (Counting.sortBy key l).Perm l := List.perm_insertionSort _ l

theorem mem_tablesSql_iff {schema name : String} {catalog : PgCatalog} :
    name ∈ (tablesSql schema catalog).map Prod.fst ↔
      ∃ c ∈ catalog.classes, c.readable schema = true ∧ c.relname = name := by
  rw [tablesSql, List.map_map, List.mem_map]
  simp only [(perm_sortBy _ _).mem_iff, List.mem_filter, and_assoc, Function.comp_apply]

theorem mem_columnsSql_iff {schema : String} {catalog : PgCatalog} {row : String × PgAttribute} :
    row ∈ columnsSql schema catalog ↔ ∃ c ∈ catalog.classes, c.readable schema = true ∧
      c.relname = row.1 ∧ row.2 ∈ c.attributes ∧ row.2.readable = true := by
  rw [columnsSql, (perm_sortBy _ _).mem_iff]
  simp only [List.mem_flatMap, List.mem_filter, List.mem_map]
  constructor
  · rintro ⟨c, ⟨listed, readable⟩, a, ⟨own, selected⟩, rfl⟩
    exact ⟨c, listed, readable, rfl, own, selected⟩
  · rintro ⟨c, listed, readable, same, own, selected⟩
    exact ⟨c, ⟨listed, readable⟩, row.2, ⟨own, selected⟩, Prod.ext same rfl⟩

/-- The elements of a snapshot: tables of the second read, and their columns in the first. -/
theorem mem_elementNames_iff (done : snapshot introspector answers = .ok found)
    {columns tables : PgCatalog} (first : answers.columns = .ok columns)
    (second : answers.tables = .ok tables) {name : String} {column : Option String} :
    (name, column) ∈ elementNames found ↔
      (∃ c ∈ tables.classes, c.readable introspector.schema = true ∧ c.relname = name) ∧
        ∀ own ∈ column, ∃ c ∈ columns.classes, c.readable introspector.schema = true ∧
          c.relname = name ∧ ∃ a ∈ c.attributes, a.readable = true ∧ a.attname = own := by
  obtain ⟨columns', tables', foreignKeys, first', second', -, read, -⟩ := snapshot_ok done
  obtain rfl := Except.ok.inj (first.symm.trans first')
  obtain rfl := Except.ok.inj (second.symm.trans second')
  rw [elementNames, List.mem_append, read, ← mem_tablesSql_iff]
  simp only [List.map_map, List.flatMap_map, List.mem_map, List.mem_flatMap]
  cases column with
  | none =>
    constructor
    · rintro (⟨row, listed, same⟩ | ⟨column, -, same⟩)
      · exact ⟨⟨row, listed, (Prod.mk.inj same).1⟩, fun own none => absurd none (by simp)⟩
      · cases (Prod.mk.inj same).2
    · rintro ⟨⟨row, listed, rfl⟩, -⟩
      exact .inl ⟨row, listed, rfl⟩
  | some own =>
    constructor
    · rintro (⟨row, -, same⟩ | ⟨column, ⟨row, listed, made⟩, same⟩)
      · cases (Prod.mk.inj same).2
      · obtain ⟨pair, kept, rfl⟩ := made
        obtain ⟨selected, here⟩ := List.mem_filter.mp kept
        obtain ⟨rfl, named⟩ := Prod.mk.inj same
        obtain ⟨c, classed, readable, relname, member, live⟩ := mem_columnsSql_iff.mp selected
        refine ⟨⟨row, listed, (of_decide_eq_true here).symm⟩, ?_⟩
        intro other equal
        obtain rfl := Option.some.inj equal
        exact ⟨c, classed, readable, relname, pair.2, member, live, Option.some.inj named⟩
    · rintro ⟨⟨row, listed, rfl⟩, columns⟩
      obtain ⟨c, classed, readable, relname, a, member, live, rfl⟩ := columns own rfl
      refine .inr ⟨columnOf introspector answers (row.1, a),
        ⟨row, listed, (row.1, a), ?_, rfl⟩, rfl⟩
      exact List.mem_filter.mpr ⟨mem_columnsSql_iff.mpr
        ⟨c, classed, readable, relname, member, live⟩, decide_eq_true rfl⟩

/-- Whatever happens between the reads, no element of a snapshot is there twice. -/
theorem distinct_snapshot (done : snapshot introspector answers = .ok found) : Distinct found := by
  obtain ⟨columns, tables, foreignKeys, -, -, -, read, -⟩ := snapshot_ok done
  have apart (catalog : PgCatalog) : ((catalog.classes.filter
      (PgClass.readable introspector.schema)).map PgClass.relname).Nodup := by
    refine (List.Nodup.of_map _ (catalog.relnames.sublist
      (List.filter_sublist.map _))).map_on fun one first two second same => ?_
    have nspname {c : PgClass} (listed : c ∈ catalog.classes.filter
        (PgClass.readable introspector.schema)) : c.nspname = introspector.schema :=
      (of_decide_eq_true (List.mem_filter.mp listed).2).1
    refine List.inj_on_of_nodup_map catalog.relnames (List.mem_of_mem_filter first)
      (List.mem_of_mem_filter second) ?_
    rw [nspname first, nspname second, same]
  have names : (tablesSql introspector.schema tables).map Prod.fst =
      (Counting.sortBy PgClass.relname (tables.classes.filter
        (PgClass.readable introspector.schema))).map PgClass.relname := by
    rw [tablesSql, List.map_map]
    rfl
  have rows : ((tablesSql introspector.schema tables).map Prod.fst).Nodup := by
    rw [names, ((perm_sortBy _ _).map _).nodup_iff]
    exact apart tables
  have selected : ((columnsSql introspector.schema columns).map fun row =>
      (row.1, row.2.attname)).Nodup := by
    rw [columnsSql, ((perm_sortBy _ _).map _).nodup_iff, List.map_flatMap, List.nodup_flatMap]
    constructor
    · intro c listed
      rw [List.map_map]
      have own := columns.attnames c (List.mem_of_mem_filter listed)
      have live := own.sublist (List.filter_sublist (p := PgAttribute.readable).map _)
      refine List.Nodup.of_map Prod.snd ?_
      rw [List.map_map]
      exact live
    · refine List.Pairwise.imp ?_ (List.pairwise_map.mp (apart columns))
      intro c other differ
      refine List.disjoint_left.mpr ?_
      rintro pair one two
      obtain ⟨row, first, rfl⟩ := List.mem_map.mp one
      obtain ⟨a, -, rfl⟩ := List.mem_map.mp first
      obtain ⟨row', second, same⟩ := List.mem_map.mp two
      obtain ⟨b, -, rfl⟩ := List.mem_map.mp second
      exact differ (Prod.mk.inj same).1.symm
  constructor
  · rw [read, List.map_map]
    exact rows
  · rw [read, List.flatMap_map, List.map_flatMap, List.nodup_flatMap]
    constructor
    · intro row _
      rw [List.map_map]
      exact selected.sublist (List.filter_sublist.map _)
    · refine List.Pairwise.imp ?_ (List.pairwise_map.mp rows)
      intro row other differ
      refine List.disjoint_left.mpr ?_
      rintro pair one two
      obtain ⟨column, first, rfl⟩ := List.mem_map.mp one
      obtain ⟨own, kept, rfl⟩ := List.mem_map.mp first
      obtain ⟨column', second, same⟩ := List.mem_map.mp two
      obtain ⟨own', kept', rfl⟩ := List.mem_map.mp second
      have here := of_decide_eq_true (List.mem_filter.mp kept).2
      have there := of_decide_eq_true (List.mem_filter.mp kept').2
      exact differ (here.symm.trans ((Prod.mk.inj same).1.symm.trans there))

end found

/-! ## What a pass does -/

section pass

variable {V T : Type} {server : Server T} {indexer : SchemaIndexer V} {found : SchemaSnapshot}
  {conn next : Connection V T} {report : IndexReport} {pass : Pass V T}

theorem tables_of_index (done : index server indexer found conn = .ok report next) :
    report.tables = found.tables.length := by
  obtain ⟨⟨⟩, first, checked, done⟩ := Transactions.bind_ok_iff.mp done
  by_cases empty : buildRows indexer found = []
  · rw [if_pos empty] at done
    obtain ⟨rfl, -⟩ := EStateM.Result.ok.inj done
    rw [buildRows_eq_nil_iff.mp empty]
    rfl
  · rw [if_neg empty] at done
    obtain ⟨vectors, second, embedded, later⟩ := Transactions.bind_ok_iff.mp done
    obtain ⟨out, third, committed, reported⟩ := Transactions.bind_ok_iff.mp later
    obtain ⟨rfl, -⟩ := EStateM.Result.ok.inj reported
    rfl

/-- Nothing is indexed of a schema in which nothing can be read. -/
theorem index_unreadable (empty : found.tables = [])
    (done : index server indexer found conn = .ok report next) : next.stored = conn.stored := by
  obtain ⟨⟨⟩, first, checked, done⟩ := Transactions.bind_ok_iff.mp done
  rw [if_pos (buildRows_eq_nil_iff.mpr empty)] at done
  obtain ⟨-, rfl⟩ := EStateM.Result.ok.inj done
  exact assertDimensions_spec checked

/-- A pass that fails, or that finds nothing to read, changes nothing that is stored. -/
theorem stored_of_idle
    (idle : ∀ report, (pass.outcome conn).1 = .ok report → report.tables = 0) :
    (pass.outcome conn).2.stored = conn.stored := by
  rw [Pass.outcome] at idle ⊢
  cases taken : snapshot pass.introspector pass.answers with
  | error exc => rfl
  | ok found =>
    simp only [taken] at idle ⊢
    cases done : index pass.server pass.indexer found conn with
    | error exc next => exact index_failed done
    | ok report next =>
      simp only [done] at idle ⊢
      have none := idle report rfl
      rw [tables_of_index done] at none
      exact index_unreadable (List.length_eq_zero_iff.mp none) done

theorem outcome_ok (done : (pass.outcome conn).1 = .ok report) :
    ∃ found, snapshot pass.introspector pass.answers = .ok found ∧
      index pass.server pass.indexer found conn = .ok report (pass.outcome conn).2 := by
  rw [Pass.outcome] at done ⊢
  cases taken : snapshot pass.introspector pass.answers with
  | error exc =>
    simp only [taken] at done
    cases done
  | ok found =>
    simp only [taken] at done ⊢
    cases indexed : index pass.server pass.indexer found conn with
    | error exc next =>
      simp only [indexed] at done
      cases done
    | ok own next =>
      simp only [indexed] at done ⊢
      obtain rfl := Except.ok.inj done
      exact ⟨found, rfl, indexed⟩

/-- Whatever happens to the schema between the reads: a pass that succeeds has stored its
snapshot and nothing else under its dataset and model version, each element once and every
column with its table, or there was nothing to read and it has stored nothing. -/
theorem pass_exact (done : (pass.outcome conn).1 = .ok report) :
    ∃ found, snapshot pass.introspector pass.answers = .ok found ∧
      (∀ column ∈ found.tables.flatMap Table.columns,
        column.table ∈ found.tables.map Table.name) ∧
      (report.tables = 0 ∧ found.tables = [] ∧
          (pass.outcome conn).2.stored = conn.stored ∨
        0 < report.tables ∧
          Refreshed pass.indexer found conn.stored (pass.outcome conn).2.stored) := by
  obtain ⟨found, taken, indexed⟩ := outcome_ok done
  have counted := tables_of_index indexed
  refine ⟨found, taken, ?_, ?_⟩
  · obtain ⟨columns, tables, foreignKeys, -, -, -, read, -⟩ := snapshot_ok taken
    intro column listed
    obtain ⟨table, member, own⟩ := List.mem_flatMap.mp listed
    have named : column.table = table.name := by
      rw [read] at member
      obtain ⟨row, -, rfl⟩ := List.mem_map.mp member
      obtain ⟨pair, kept, rfl⟩ := List.mem_map.mp own
      exact of_decide_eq_true (List.mem_filter.mp kept).2
    exact named ▸ List.mem_map_of_mem member
  · by_cases empty : found.tables = []
    · refine .inl ⟨by rw [counted, empty]; rfl, empty, index_unreadable empty indexed⟩
    · refine .inr ⟨counted ▸ List.length_pos_iff.mpr empty, ?_⟩
      obtain ⟨vectors, embedded, replaced⟩ := index_spec empty indexed
      exact refreshed (distinct_snapshot taken) embedded replaced

end pass

def plainNames : Names := ⟨id, fun _ _ => none⟩

def customersClass : PgClass where
  oid := 1
  nspname := "shop"
  relname := "customers"
  relkind := 'r'
  description := none
  select := true
  attributes := [⟨"id", 1, "bigint", true, false, none, true⟩,
    ⟨"email", 2, "text", false, false, none, true⟩, ⟨"phone", 3, "text", false, true, none, true⟩]

def ordersClass : PgClass where
  oid := 2
  nspname := "shop"
  relname := "orders"
  relkind := 'r'
  description := none
  select := true
  attributes := [⟨"id", 1, "bigint", true, false, none, true⟩]

def bothTables : PgCatalog := ⟨[ordersClass, customersClass], [], by decide, by decide⟩

def customersOnly : PgCatalog := ⟨[customersClass], [], by decide, by decide⟩

def reader : PostgresIntrospector where
  schema := "shop"
  sampleValues := true
  sampleCount := 3
  sampleMaxChars := 40
  sampleScanLimit := 1000
  sensitivePatterns := ["email"]
  names := plainNames

/-- The first read still sees the orders, the others do not. A sample of the column of
addresses is the given one. -/
def dropped (address : String) : Pass (List Nat) Nat where
  introspector := reader
  answers :=
    { columns := .ok bothTables
      tables := .ok customersOnly
      foreignKeys := .ok customersOnly
      samples := fun query => if query.column = "email" then .ok [address] else .error "timeout" }
  server := serverAt 1
  indexer := { ordersIndexer with names := plainNames }

private theorem tables_dropped :
    ((dropped "").outcome freshConnection).1.toOption.map IndexReport.tables = some 1 := by
  decide +kernel

/-- The orders are not in the snapshot, nor is their column. -/
theorem pass_exact_dropped : ∃ found,
    snapshot (dropped "").introspector (dropped "").answers = .ok found ∧
      Refreshed (dropped "").indexer found freshConnection.stored
        ((dropped "").outcome freshConnection).2.stored := by
  obtain ⟨report, given, one⟩ := Option.map_eq_some_iff.mp tables_dropped
  obtain ⟨found, taken, -, ⟨none, -⟩ | ⟨-, stored⟩⟩ := pass_exact (toOption_eq_some_iff.mp given)
  · rw [one] at none
    cases none
  · exact ⟨found, taken, stored⟩

/-! ## What the readers know after passes -/

section known

variable {V T : Type} {dataset : String} {runs : List (IndexRun V T dataset)}
  {conn : Connection V T} {pass : Pass V T}

def Pass.version (pass : Pass V T) : String := pass.indexer.embedder.modelVersion

/-- A pass over another dataset keeps what is stored of this one. -/
theorem stores_of_other (stores : Stores runs conn.stored)
    (other : pass.indexer.dataset ≠ dataset) : Stores runs (pass.outcome conn).2.stored := by
  intro key here
  have same : (pass.outcome conn).2.stored.elements.get? key = conn.stored.elements.get? key := by
    by_cases idle : ∀ report, (pass.outcome conn).1 = .ok report → report.tables = 0
    · rw [stored_of_idle idle]
    · rw [not_forall] at idle
      obtain ⟨report, nonempty⟩ := idle
      obtain ⟨done, some⟩ := Classical.not_imp.mp nonempty
      obtain ⟨found, -, indexed⟩ := outcome_ok done
      rw [tables_of_index indexed, List.length_eq_zero_iff] at some
      obtain ⟨vectors, -, replaced⟩ := index_spec some indexed
      exact replaced.kept key fun inScope => other (inScope.1.symm.trans here)
  rw [same]
  exact stores key here

/-- A pass that finds something to read is one more run over its dataset. -/
theorem stores_of_indexed (stores : Stores runs conn.stored) (ours : pass.indexer.dataset = dataset)
    {report : IndexReport} (done : (pass.outcome conn).1 = .ok report) (some : 0 < report.tables) :
    ∃ run : IndexRun V T dataset, run.version = pass.version ∧
      snapshot pass.introspector pass.answers = .ok run.snapshot ∧
      Stores (runs ++ [run]) (pass.outcome conn).2.stored := by
  obtain ⟨found, taken, indexed⟩ := outcome_ok done
  have nonempty : found.tables ≠ [] := by
    rw [tables_of_index indexed] at some
    exact List.length_pos_iff.mp some
  refine ⟨⟨pass.server, pass.indexer, found, ours, nonempty⟩, rfl, taken, stores.step ?_⟩
  rw [Readers.step]
  simp only [indexed]

/-- Passes of one model version. -/
theorem stores_indexAll {version : String} (passes : List (Pass V T))
    (oneVersion : ∀ p ∈ passes, p.indexer.dataset = dataset → p.version = version)
    (stores : Stores runs conn.stored) (same : ∀ run ∈ runs, run.version = version) :
    ∃ later : List (IndexRun V T dataset), (∀ run ∈ later, run.version = version) ∧
      Stores later (indexAll conn passes).2.stored := by
  induction passes generalizing conn runs with
  | nil => exact ⟨runs, same, stores⟩
  | cons pass rest ih =>
    have others := fun p listed => oneVersion p (List.mem_cons_of_mem pass listed)
    by_cases ours : pass.indexer.dataset = dataset
    · by_cases idle : ∀ report, (pass.outcome conn).1 = .ok report → report.tables = 0
      · exact ih others (stored_of_idle idle ▸ stores) same
      · rw [not_forall] at idle
        obtain ⟨report, nonempty⟩ := idle
        obtain ⟨done, some⟩ := Classical.not_imp.mp nonempty
        obtain ⟨run, own, -, stored⟩ :=
          stores_of_indexed stores ours done (Nat.pos_of_ne_zero some)
        refine ih others stored ?_
        intro other listed
        rcases List.mem_append.mp listed with earlier | last
        · exact same other earlier
        · rw [List.mem_singleton.mp last, own]
          exact oneVersion pass List.mem_cons_self ours
    · exact ih others (stores_of_other stores ours) same

/-- Passes that index nothing of the dataset. -/
theorem stores_idle (passes : List (Pass V T))
    (idle : ∀ one ∈ passes.zip (indexAll conn passes).1, one.1.indexer.dataset = dataset →
      ∀ report, one.2 = .ok report → report.tables = 0)
    (stores : Stores runs conn.stored) : Stores runs (indexAll conn passes).2.stored := by
  induction passes generalizing conn with
  | nil => exact stores
  | cons pass rest ih =>
    refine ih (fun one listed => idle one (List.mem_cons_of_mem _ listed)) ?_
    by_cases ours : pass.indexer.dataset = dataset
    · exact stored_of_idle (idle (pass, (pass.outcome conn).1) List.mem_cons_self ours) ▸ stores
    · exact stores_of_other stores ours

/-- The tables and columns that a catalog knows are those that the role may read. -/
structure Knows (names : Names) (schema : String) (catalog : PgCatalog) (known : SchemaCatalog) :
    Prop where
  tables : ∀ name, known.hasTable names name = true ↔ ∃ c ∈ catalog.classes,
    c.readable schema = true ∧ names.casefold c.relname = names.casefold name
  columns : ∀ table column, known.hasColumn names table column = true ↔ ∃ c ∈ catalog.classes,
    c.readable schema = true ∧ names.casefold c.relname = names.casefold table ∧
      ∃ a ∈ c.attributes, a.readable = true ∧ names.casefold a.attname = names.casefold column

end known

/-- The orders were dropped for good. -/
def still : Pass (List Nat) Nat :=
  { dropped "" with answers := { (dropped "").answers with columns := .ok customersOnly } }

def refused : Pass (List Nat) Nat :=
  { dropped "" with
    answers := { (dropped "").answers with columns := .error (.unexpected "OperationalError") } }

private theorem tables_still :
    (still.outcome (indexAll freshConnection [dropped ""]).2).1.toOption.map IndexReport.tables =
      some 1 := by
  decide +kernel

section values

variable {V T : Type}

/-- Two passes that meet the same but for the values in some columns: in these, one of the
two gates is closed, by the name of the column. -/
structure Veiled (one other : Pass V T) : Prop where
  introspector : other.introspector = one.introspector
  server : other.server = one.server
  indexer : other.indexer = one.indexer
  columns : other.answers.columns = one.answers.columns
  tables : other.answers.tables = one.answers.tables
  foreignKeys : other.answers.foreignKeys = one.answers.foreignKeys
  samples : one.introspector.sampleValues = true → ∀ query,
    other.answers.samples query = one.answers.samples query ∨
      isSensitive one.introspector.names query.column one.introspector.sensitivePatterns = true ∨
      isSensitive one.indexer.names query.column one.indexer.sensitivePatterns = true

theorem index_congr {server : Server T} {indexer : SchemaIndexer V} {one other : SchemaSnapshot}
    (rows : buildRows indexer other = buildRows indexer one)
    (edges : other.foreignKeys = one.foreignKeys)
    (tables : other.tables.length = one.tables.length)
    (columns : other.columnCount = one.columnCount)
    (conn : Connection V T) : index server indexer other conn = index server indexer one conn := by
  simp only [index, rows, edges, tables, columns]

/-- The text of a table has the names of its columns only. -/
theorem serializeTable_congr {one other : Table} (name : other.name = one.name)
    (comment : other.comment = one.comment)
    (columns : other.columns.map Column.name = one.columns.map Column.name) :
    serializeTable other = serializeTable one := by
  have length : other.columns.length = one.columns.length := by
    simpa only [List.length_map] using congrArg List.length columns
  have none : other.columns ≠ [] ↔ one.columns ≠ [] := by
    rw [← List.length_pos_iff, ← List.length_pos_iff, length]
  simp only [serializeTable, name, comment, List.map_take, columns, length, none]

theorem tableElement_congr (indexer : SchemaIndexer V) {one other : Table}
    (name : other.name = one.name) (comment : other.comment = one.comment)
    (columns : other.columns.map Column.name = one.columns.map Column.name) :
    tableElement indexer other = tableElement indexer one := by
  simp only [tableElement, name, comment, serializeTable_congr name comment columns]

theorem columnElement_veiled {one other : Pass V T} (veiled : Veiled one other)
    (row : String × PgAttribute) :
    columnElement one.indexer (columnOf one.introspector other.answers row) =
      columnElement one.indexer (columnOf one.introspector one.answers row) := by
  have same : serializeColumn one.indexer.names one.indexer.sensitivePatterns
        (columnOf one.introspector other.answers row) =
      serializeColumn one.indexer.names one.indexer.sensitivePatterns
        (columnOf one.introspector one.answers row) := by
    cases sampled : one.introspector.sampleValues with
    | false => simp only [columnOf, samples, sampled, if_true]
    | true =>
      rcases veiled.samples sampled ⟨one.introspector.schema, row.1, row.2.attname,
        one.introspector.sampleMaxChars, one.introspector.sampleScanLimit,
        one.introspector.sampleCount⟩ with equal | first | second
      · simp only [columnOf, samples, equal]
      · simp only [columnOf, samples, first, if_true]
      · simp only [serializeColumn, columnOf, second, Bool.true_eq_false, and_false, if_false]
  simp only [columnElement, same]
  rfl

/-- Two such passes fail alike, or find what is written alike. -/
theorem snapshot_veiled {one other : Pass V T} (veiled : Veiled one other) :
    (∃ exc, snapshot one.introspector other.answers = .error exc ∧
        snapshot one.introspector one.answers = .error exc) ∨
      ∃ found' found, snapshot one.introspector other.answers = .ok found' ∧
        snapshot one.introspector one.answers = .ok found ∧
        buildRows one.indexer found' = buildRows one.indexer found ∧
        found'.foreignKeys = found.foreignKeys ∧ found'.tables.length = found.tables.length ∧
        found'.columnCount = found.columnCount := by
  simp only [snapshot, columns, veiled.columns, veiled.tables, veiled.foreignKeys]
  cases one.answers.columns with
  | error exc => exact .inl ⟨exc, rfl, rfl⟩
  | ok columns =>
    cases one.answers.tables with
    | error exc => exact .inl ⟨exc, rfl, rfl⟩
    | ok tables =>
      cases one.answers.foreignKeys with
      | error exc => exact .inl ⟨exc, rfl, rfl⟩
      | ok foreignKeys =>
        refine .inr ⟨_, _, rfl, rfl, ?_, rfl, ?_, ?_⟩
        · simp only [buildRows, List.flatMap_map]
          refine List.flatMap_congr fun row _ => ?_
          rw [Dictionary.getD_groupBy, Dictionary.getD_groupBy, List.filter_map, List.filter_map]
          refine congrArg₂ List.cons ?_ ?_
          · refine tableElement_congr one.indexer rfl rfl ?_
            rw [List.map_map, List.map_map]
            rfl
          · rw [List.map_map, List.map_map]
            exact List.map_congr_left fun row _ => columnElement_veiled veiled row
        · simp only [List.length_map]
        · simp only [SchemaSnapshot.columnCount, List.map_map]
          refine congrArg List.sum (List.map_congr_left fun row _ => ?_)
          simp only [Function.comp_apply, Dictionary.getD_groupBy, List.filter_map, List.length_map]
          rfl

/-- Neither the vectors nor what is stored depends on a value in a sensitive column. -/
theorem outcome_veiled {one other : Pass V T} (veiled : Veiled one other) (conn : Connection V T) :
    other.outcome conn = one.outcome conn := by
  rw [Pass.outcome, Pass.outcome, veiled.introspector, veiled.server, veiled.indexer]
  rcases snapshot_veiled veiled with ⟨exc, first, second⟩ |
    ⟨found', found, first, second, rows, edges, tables, columns⟩
  · rw [first, second]
  · rw [first, second]
    dsimp only
    rw [index_congr rows edges tables columns]

/-- Over whole runs: whatever is in a column that either gate names as sensitive, or in any
where nothing is sampled, the same is reported of every pass and the same is stored. -/
theorem indexAll_veiled {ones others : List (Pass V T)} (veiled : List.Forall₂ Veiled ones others)
    (conn : Connection V T) : indexAll conn others = indexAll conn ones := by
  induction veiled generalizing conn with
  | nil => rfl
  | cons first _ ih => rw [indexAll, indexAll, outcome_veiled first, ih]

end values

theorem sensitive_email : isSensitive reader.names "email" reader.sensitivePatterns = true := by
  decide +kernel

theorem veiled_dropped (one other : String) : Veiled (dropped one) (dropped other) := by
  refine ⟨rfl, rfl, rfl, rfl, rfl, rfl, ?_⟩
  intro _ query
  by_cases email : query.column = "email"
  · refine .inr (.inl ?_)
    rw [email]
    exact sensitive_email
  · refine .inl ?_
    simp only [dropped, email, if_false]

/-- Nobody's address shows. -/
theorem indexAll_veiled_addresses :
    indexAll freshConnection [dropped "ada@shop"] = indexAll freshConnection [dropped "bob@shop"] :=
  indexAll_veiled (.cons (veiled_dropped "bob@shop" "ada@shop") .nil) freshConnection

end Introspection
