import Mathlib.Data.List.Flatten
import TextToSqlAgent.Core.Exceptions
import TextToSqlAgent.Library.Dictionary
import TextToSqlAgent.Library.Fallible
import TextToSqlAgent.Library.KeyedTable
import TextToSqlAgent.Library.Transactions
import TextToSqlAgent.Schema.Models

/-!
# Writing the schema catalog

`SchemaIndexer.index` against the two tables of `agent_meta`: serialize, embed,
upsert, delete what was not written, replace the edges. Any statement may be
refused. A rolled back transaction restores the tables, not their sequences.
-/

namespace Indexer

open Exceptions Schema Catalog Transactions

inductive ElementType
  | table
  | column
  deriving DecidableEq, Repr

def ElementType.text : ElementType → String
  | .table => "table"
  | .column => "column"

/-- One row of `_build_rows`. -/
structure Element where
  dataset : String
  elementType : ElementType
  tableName : String
  columnName : Option String
  dataType : Option String
  comment : Option String
  serialized : String
  deriving DecidableEq

/-- The columns of `schema_elements_unique`. It is `NULLS NOT DISTINCT`, so two
absent column names are equal. -/
structure ElementKey where
  dataset : String
  tableName : String
  columnName : Option String
  modelVersion : String
  deriving DecidableEq

def Element.key (version : String) (element : Element) : ElementKey :=
  ⟨element.dataset, element.tableName, element.columnName, version⟩

/-- A row of `agent_meta.schema_elements`. -/
structure ElementRow (V T : Type) where
  id : Nat
  element : Element
  embedding : V
  modelVersion : String
  updatedAt : T
  deriving DecidableEq

def ElementRow.key {V T : Type} (row : ElementRow V T) : ElementKey :=
  row.element.key row.modelVersion

/-- The join path of an edge, without the constraint that declared it. -/
def endpoints (fk : ForeignKey) : String × String × String × String :=
  (fk.fromTable, fk.fromColumn, fk.toTable, fk.toColumn)

/-- A row of `agent_meta.foreign_keys`. -/
structure EdgeRow where
  id : Nat
  dataset : String
  edge : ForeignKey
  deriving DecidableEq

/-- The columns of `foreign_keys_unique`. -/
def EdgeRow.key (row : EdgeRow) : String × String × String × String × String :=
  (row.dataset, endpoints row.edge)

structure Store (V T : Type) where
  elements : KeyedTable (ElementRow.id (V := V) (T := T)) ElementRow.key
  foreignKeys : KeyedTable EdgeRow.id EdgeRow.key

/-- What is stored, the next value of either sequence, and how many statements
were sent. -/
structure Connection (V T : Type) where
  stored : Store V T
  elementId : Nat := 1
  edgeId : Nat := 1
  sent : Nat := 0

/-- What the server makes of the statements of a run: the exceptions it refuses
some of them with, the type of the embedding column, and `now()`. -/
structure Server (T : Type) where
  refuses : Nat → Option Raised
  embeddingType : Option String
  now : T

structure Embedder (V : Type) where
  modelVersion : String
  dimensions : Nat
  embed : List String → Except Raised (List V)

/-- What the indexer was built with, and `repr` of a text. -/
structure SchemaIndexer (V : Type) where
  embedder : Embedder V
  dataset : String
  sensitivePatterns : List String
  names : Names
  repr : String → String

/-- What one indexing run did. -/
structure IndexReport where
  modelVersion : String
  tables : Nat
  columns : Nat
  elementsWritten : Nat
  elementsRemoved : Nat
  foreignKeys : Nat
  deriving DecidableEq

def mismatch (message : String) : Raised :=
  .domain ⟨.embeddingModelMismatchError, message, none, none⟩

def uniqueViolation (constraint : String) : Raised :=
  .unexpected s!"UniqueViolation: duplicate key value violates unique constraint {constraint}"

/-- `^vector\((\d+)\)$`. -/
def vectorWidth (type : String) : Option Nat :=
  let opening := "vector(".toList
  let rest := type.toList.drop opening.length
  let digits := rest.takeWhile Char.isDigit
  if opening <+: type.toList ∧ digits ≠ [] ∧
      rest.dropWhile Char.isDigit ∈ [[')'], [')', '\n']] then
    some (digits.foldl (fun n c => 10 * n + (c.toNat - '0'.toNat)) 0)
  else none

/-- One row per join path, keeping the first constraint that declared it. -/
def distinctEdges (foreignKeys : List ForeignKey) : List ForeignKey :=
  (foreignKeys.foldl (fun seen fk => seen.setDefault (endpoints fk) fk)
    Dictionary.empty).entries.map Prod.snd

section run

variable {V T : Type} (server : Server T) (indexer : SchemaIndexer V)

abbrev Work (V T α : Type) := EStateM Raised (Connection V T) α

/-- A statement is sent, and refused or carried out. -/
def execute {α : Type} (statement : Work V T α) : Work V T α := fun conn =>
  match server.refuses conn.sent with
  | some raised => .error raised { conn with sent := conn.sent + 1 }
  | none => statement { conn with sent := conn.sent + 1 }

/-- `conn.transaction()`, from `BEGIN` to `COMMIT` or the rollback. -/
def transaction {α : Type} (body : Work V T α) : Work V T α :=
  atomically (fun before after => { after with stored := before.stored }) do
    execute server (pure ())
    let result ← body
    execute server (pure ())
    return result

/-- `DO UPDATE SET`, of the row that is there. -/
def ElementRow.excluded (new old : ElementRow V T) : ElementRow V T :=
  { old with
    element := { old.element with
      elementType := new.element.elementType
      dataType := new.element.dataType
      comment := new.element.comment
      serialized := new.element.serialized }
    embedding := new.embedding
    updatedAt := new.updatedAt }

theorem ElementRow.excluded_keeps (new old : ElementRow V T) :
    (new.excluded old).id = old.id ∧ (new.excluded old).key = old.key :=
  ⟨rfl, rfl⟩

/-- `_UPSERT_SQL`. The sequence advances whether a row is new or not. -/
def upsert (pair : Element × V) : Work V T Nat := execute server fun conn =>
  let row : ElementRow V T :=
    ⟨conn.elementId, pair.1, pair.2, indexer.embedder.modelVersion, server.now⟩
  let next := { conn with elementId := conn.elementId + 1 }
  match conn.stored.elements.upsert row row.excluded row.excluded_keeps with
  | some (id, elements) => .ok id { next with stored := { conn.stored with elements } }
  | none => .error (uniqueViolation "schema_elements_pkey") next

/-- `_DELETE_STALE_SQL`, and how many rows it removed. -/
def deleteStale (written : List Nat) : Work V T Nat := execute server fun conn =>
  let stale (row : ElementRow V T) : Bool :=
    row.element.dataset = indexer.dataset ∧ row.modelVersion = indexer.embedder.modelVersion ∧
      row.id ∉ written
  .ok (conn.stored.elements.rows.countP stale)
    { conn with
      stored := { conn.stored with elements := conn.stored.elements.deleteWhere stale } }

/-- `DELETE FROM agent_meta.foreign_keys WHERE dataset = …`. -/
def deleteEdges : Work V T Unit := execute server fun conn =>
  .ok () { conn with
    stored := { conn.stored with
      foreignKeys := conn.stored.foreignKeys.deleteWhere fun row =>
        row.dataset = indexer.dataset } }

/-- `_INSERT_FK_SQL`. -/
def insertEdge (fk : ForeignKey) : Work V T Unit := execute server fun conn =>
  let next := { conn with edgeId := conn.edgeId + 1 }
  match conn.stored.foreignKeys.insert ⟨conn.edgeId, indexer.dataset, fk⟩ with
  | some foreignKeys => .ok () { next with stored := { conn.stored with foreignKeys } }
  | none =>
    .error (uniqueViolation (if conn.edgeId ∈ conn.stored.foreignKeys.rows.map EdgeRow.id
      then "foreign_keys_pkey" else "foreign_keys_unique")) next

def tableElement (table : Table) : Element :=
  ⟨indexer.dataset, .table, table.name, none, none, table.comment, serializeTable table⟩

def columnElement (column : Column) : Element :=
  ⟨indexer.dataset, .column, column.table, some column.name, some column.dataType,
    column.comment, serializeColumn indexer.names indexer.sensitivePatterns column⟩

/-- `_build_rows`: one row per element. -/
def buildRows (snapshot : SchemaSnapshot) : List Element :=
  snapshot.tables.flatMap fun table =>
    tableElement indexer table :: table.columns.map (columnElement indexer)

/-- What `_assert_dimensions` makes of the type of the embedding column. -/
def dimensionsAgree : Option String → Except Raised Unit
  | none => .error (mismatch
      "agent_meta.schema_elements.embedding not found -- run migrations first")
  | some type =>
    match vectorWidth type with
    | none => .error (mismatch s!"embedding column has unexpected type {indexer.repr type}")
    | some expected =>
      if indexer.embedder.dimensions ≠ expected then
        .error (mismatch (s!"embedder {indexer.repr indexer.embedder.modelVersion} produces " ++
          s!"{indexer.embedder.dimensions}-dimensional vectors but " ++
          s!"agent_meta.schema_elements.embedding is vector({expected}). " ++
          "Changing the retriever's width is a migration, not a config change."))
      else .ok ()

/-- `_assert_dimensions`. -/
def assertDimensions : Work V T Unit := do
  execute server (pure ())
  lift (dimensionsAgree indexer server.embeddingType)

/-- One vector for every row. -/
def embed (rows : List Element) : Except Raised (List V) := do
  let vectors ← indexer.embedder.embed (rows.map Element.serialized)
  if vectors.length ≠ rows.length then
    .error (mismatch s!"embedder returned {vectors.length} vectors for {rows.length} elements")
  else .ok vectors

/-- What the transaction of `index` does: the ids written, how many rows were
removed, and the edges. -/
def replace (pairs : List (Element × V)) (foreignKeys : List ForeignKey) :
    Work V T (List Nat × Nat × List ForeignKey) := do
  let written ← pairs.mapM (upsert server indexer)
  let removed ← deleteStale server indexer written
  deleteEdges server indexer
  let edges := distinctEdges foreignKeys
  let _ ← edges.mapM (insertEdge server indexer)
  return (written, removed, edges)

/-- `SchemaIndexer.index`. -/
def index (snapshot : SchemaSnapshot) : Work V T IndexReport := do
  assertDimensions server indexer
  let rows := buildRows indexer snapshot
  if rows = [] then
    return ⟨indexer.embedder.modelVersion, 0, 0, 0, 0, 0⟩
  else
    let vectors ← lift (embed indexer rows)
    let (written, removed, edges) ←
      transaction server (replace server indexer (rows.zip vectors) snapshot.foreignKeys)
    return ⟨indexer.embedder.modelVersion, snapshot.tables.length, snapshot.columnCount,
      written.length, removed, edges.length⟩

/-! ## What a statement does -/

section statements

variable {server indexer} {conn next : Connection V T}

theorem execute_ok_iff {α : Type} {statement : Work V T α} {a : α} :
    execute server statement conn = .ok a next ↔
      server.refuses conn.sent = none ∧
        statement { conn with sent := conn.sent + 1 } = .ok a next := by
  rw [execute]
  cases server.refuses conn.sent with
  | none => exact ⟨fun done => ⟨rfl, done⟩, fun done => done.2⟩
  | some raised =>
    constructor
    · nofun
    · rintro ⟨refused, -⟩
      cases refused

theorem ElementRow.excluded_element {new old : ElementRow V T} (same : old.key = new.key) :
    (new.excluded old).element = new.element := by
  obtain ⟨_, ⟨_, _, _, _, _, _, _⟩, _, _, _⟩ := new
  obtain ⟨_, ⟨_, _, _, _, _, _, _⟩, _, _, _⟩ := old
  obtain ⟨rfl, rfl, rfl, -⟩ := ElementKey.mk.inj same
  rfl

/-- The row of an upsert holds what was written, under its old id if it had one. -/
structure Holds (now : T) (before : Option (ElementRow V T)) (pair : Element × V)
    (row : ElementRow V T) : Prop where
  element : row.element = pair.1
  embedding : row.embedding = pair.2
  updatedAt : row.updatedAt = now
  id : ∀ old, before = some old → row.id = old.id

theorem upsert_spec {pair : Element × V} {id : Nat}
    (done : upsert server indexer pair conn = .ok id next) :
    ∃ row, next.stored.elements.get? (pair.1.key indexer.embedder.modelVersion) = some row ∧
      row.id = id ∧
      Holds server.now
        (conn.stored.elements.get? (pair.1.key indexer.embedder.modelVersion)) pair row ∧
      (∀ key, key ≠ pair.1.key indexer.embedder.modelVersion →
        next.stored.elements.get? key = conn.stored.elements.get? key) ∧
      next.stored.foreignKeys = conn.stored.foreignKeys := by
  obtain ⟨-, done⟩ := execute_ok_iff.mp done
  set row : ElementRow V T :=
    ⟨conn.elementId, pair.1, pair.2, indexer.embedder.modelVersion, server.now⟩ with new
  cases made : conn.stored.elements.upsert row row.excluded row.excluded_keeps with
  | none => simp only [made] at done; cases done
  | some result =>
    obtain ⟨written, elements⟩ := result
    simp only [made] at done
    obtain ⟨rfl, rfl⟩ := EStateM.Result.ok.inj done
    obtain ⟨there, found, same, changed, added, others⟩ :=
      KeyedTable.upsert_spec row.excluded_keeps made
    refine ⟨there, found, same, ?_, others, rfl⟩
    cases before : conn.stored.elements.get? (pair.1.key indexer.embedder.modelVersion) with
    | none =>
      rw [added before]
      exact ⟨rfl, rfl, rfl, nofun⟩
    | some old =>
      rw [changed old before]
      have same : (row.excluded old).element = row.element :=
        ElementRow.excluded_element (KeyedTable.keyOf_of_get? before)
      refine ⟨same, rfl, rfl, ?_⟩
      intro other equal
      exact Option.some.inj equal ▸ rfl

/-! ## The loop of upserts -/

/-- The last pair of a list under a key: the one whose upsert stays. -/
def lastOf (version : String) (pairs : List (Element × V)) (key : ElementKey) :
    Option (Element × V) :=
  pairs.reverse.find? fun pair => pair.1.key version = key

theorem lastOf_append_singleton {version : String} {pairs : List (Element × V)}
    {pair : Element × V} {key : ElementKey} :
    lastOf version (pairs ++ [pair]) key =
      if pair.1.key version = key then some pair else lastOf version pairs key := by
  rw [lastOf, List.reverse_append, List.reverse_singleton, List.singleton_append, List.find?_cons]
  by_cases same : pair.1.key version = key
  · simp [same]
  · simp [same, lastOf]

theorem lastOf_eq_none_iff {version : String} {pairs : List (Element × V)} {key : ElementKey} :
    lastOf version pairs key = none ↔ key ∉ pairs.map fun pair => pair.1.key version := by
  simp [lastOf]

/-- Under distinct keys every pair is the last one. -/
theorem lastOf_eq_some_iff {version : String} {pairs : List (Element × V)} {key : ElementKey}
    {pair : Element × V} (distinct : (pairs.map fun pair => pair.1.key version).Nodup) :
    lastOf version pairs key = some pair ↔ pair ∈ pairs ∧ pair.1.key version = key := by
  constructor
  · intro found
    refine ⟨?_, by simpa using List.find?_some found⟩
    exact List.mem_reverse.mp (List.mem_of_find?_eq_some found)
  · rintro ⟨listed, rfl⟩
    cases found : lastOf version pairs (pair.1.key version) with
    | none =>
      exact absurd (List.mem_map_of_mem listed) (lastOf_eq_none_iff.mp found)
    | some other =>
      have same : other.1.key version = pair.1.key version := by
        simpa using List.find?_some found
      have member := List.mem_reverse.mp (List.mem_of_find?_eq_some found)
      rw [List.inj_on_of_nodup_map distinct member listed same]

/-- The table after the upserts of `done`, which returned `written`. -/
structure Upserted (now : T) (version : String) (before : Store V T) (done : List (Element × V))
    (written : List Nat) (after : Store V T) : Prop where
  last : ∀ key pair, lastOf version done key = some pair →
    ∃ row, after.elements.get? key = some row ∧ Holds now (before.elements.get? key) pair row ∧
      row.id ∈ written
  rest : ∀ key, lastOf version done key = none →
    after.elements.get? key = before.elements.get? key
  ids : ∀ id ∈ written, ∃ key row, lastOf version done key ≠ none ∧
    after.elements.get? key = some row ∧ row.id = id
  foreignKeys : after.foreignKeys = before.foreignKeys

theorem Upserted.step {before : Store V T} {done : List (Element × V)} {written : List Nat}
    {pair : Element × V} {id : Nat}
    (earlier : Upserted server.now indexer.embedder.modelVersion before done written conn.stored)
    (taken : upsert server indexer pair conn = .ok id next) :
    Upserted server.now indexer.embedder.modelVersion before (done ++ [pair]) (written ++ [id])
      next.stored := by
  obtain ⟨row, found, rfl, holds, others, edges⟩ := upsert_spec taken
  have old : ∀ old, before.elements.get? (pair.1.key indexer.embedder.modelVersion) = some old →
      row.id = old.id := by
    intro old first
    cases seen : lastOf indexer.embedder.modelVersion done
        (pair.1.key indexer.embedder.modelVersion) with
    | none => exact holds.id old ((earlier.rest _ seen).trans first)
    | some other =>
      obtain ⟨there, now, kept, -⟩ := earlier.last _ other seen
      exact (holds.id there now).trans (kept.id old first)
  constructor
  · intro key last written
    rw [lastOf_append_singleton] at written
    split at written
    · rename_i same
      subst same
      cases written
      exact ⟨row, found, ⟨holds.element, holds.embedding, holds.updatedAt, old⟩, by simp⟩
    · rename_i other
      obtain ⟨there, now, kept, listed⟩ := earlier.last key last written
      refine ⟨there, ?_, kept, List.mem_append_left _ listed⟩
      rw [others key fun same => other same.symm, now]
  · intro key unwritten
    rw [lastOf_append_singleton] at unwritten
    split at unwritten
    · cases unwritten
    · rename_i other
      rw [others key fun same => other same.symm, earlier.rest key unwritten]
  · intro id listed
    rcases List.mem_append.mp listed with listed | last
    · obtain ⟨key, there, seen, now, same⟩ := earlier.ids id listed
      by_cases here : key = pair.1.key indexer.embedder.modelVersion
      · subst here
        refine ⟨_, row, ?_, found, (holds.id there now).trans same⟩
        rw [lastOf_append_singleton, if_pos rfl]
        nofun
      · refine ⟨key, there, ?_, (others key here).trans now, same⟩
        rw [lastOf_append_singleton, if_neg fun same => here same.symm]
        exact seen
    · refine ⟨_, row, ?_, found, (List.mem_singleton.mp last).symm⟩
      rw [lastOf_append_singleton, if_pos rfl]
      nofun
  · exact edges.trans earlier.foreignKeys

theorem upserted_mapM {pairs : List (Element × V)} {written : List Nat}
    (reached : pairs.mapM (upsert server indexer) conn = .ok written next) :
    Upserted server.now indexer.embedder.modelVersion conn.stored pairs written next.stored := by
  refine mapM_invariant (fun done written conn' =>
    Upserted server.now indexer.embedder.modelVersion conn.stored done written conn'.stored)
    ?_ ?_ reached
  · exact ⟨nofun, fun _ _ => rfl, nofun, rfl⟩
  · intro done written u pair id v _ earlier taken
    exact earlier.step taken

/-! ## The transaction -/

def InScope (indexer : SchemaIndexer V) (key : ElementKey) : Prop :=
  key.dataset = indexer.dataset ∧ key.modelVersion = indexer.embedder.modelVersion

instance (indexer : SchemaIndexer V) : DecidablePred (InScope indexer) := fun _ =>
  inferInstanceAs (Decidable (_ ∧ _))

/-- What the transaction leaves: under every key in scope what was last written
there, elsewhere what was stored, and the edges of the dataset replaced. -/
structure Replaced (server : Server T) (indexer : SchemaIndexer V) (before : Store V T)
    (pairs : List (Element × V)) (edges : List ForeignKey) (after : Store V T) : Prop where
  written : ∀ key pair, lastOf indexer.embedder.modelVersion pairs key = some pair →
    ∃ row, after.elements.get? key = some row ∧
      Holds server.now (before.elements.get? key) pair row
  removed : ∀ key, InScope indexer key → lastOf indexer.embedder.modelVersion pairs key = none →
    after.elements.get? key = none
  kept : ∀ key, ¬InScope indexer key → after.elements.get? key = before.elements.get? key
  edges : (after.foreignKeys.rows.filter fun row => row.dataset = indexer.dataset).map
    EdgeRow.edge = edges
  otherEdges : (after.foreignKeys.rows.filter fun row => ¬row.dataset = indexer.dataset) =
    before.foreignKeys.rows.filter fun row => ¬row.dataset = indexer.dataset

theorem deleteStale_spec {written : List Nat} {removed : Nat}
    (done : deleteStale server indexer written conn = .ok removed next) :
    (∀ key, next.stored.elements.get? key =
      (conn.stored.elements.get? key).filter fun row =>
        ¬(InScope indexer key ∧ row.id ∉ written)) ∧
    next.stored.foreignKeys = conn.stored.foreignKeys := by
  obtain ⟨-, done⟩ := execute_ok_iff.mp done
  obtain ⟨-, rfl⟩ := EStateM.Result.ok.inj done
  refine ⟨?_, rfl⟩
  intro key
  refine (KeyedTable.get?_deleteWhere _ key).trans ?_
  cases found : conn.stored.elements.get? key with
  | none => rfl
  | some row =>
    have same := KeyedTable.keyOf_of_get? found
    subst same
    simp [Option.filter_some, InScope, ElementRow.key, Element.key, and_assoc]

theorem deleteEdges_spec (done : deleteEdges server indexer conn = .ok () next) :
    next.stored.elements = conn.stored.elements ∧
      next.stored.foreignKeys.rows = conn.stored.foreignKeys.rows.filter fun row =>
        ¬row.dataset = indexer.dataset := by
  obtain ⟨-, done⟩ := execute_ok_iff.mp done
  obtain ⟨-, rfl⟩ := EStateM.Result.ok.inj done
  refine ⟨rfl, ?_⟩
  simp [KeyedTable.deleteWhere]

theorem insertEdge_spec {fk : ForeignKey} (done : insertEdge server indexer fk conn = .ok () next) :
    next.stored.elements = conn.stored.elements ∧
      next.stored.foreignKeys.rows =
        conn.stored.foreignKeys.rows ++ [⟨conn.edgeId, indexer.dataset, fk⟩] := by
  obtain ⟨-, done⟩ := execute_ok_iff.mp done
  cases made : conn.stored.foreignKeys.insert ⟨conn.edgeId, indexer.dataset, fk⟩ with
  | none => simp only [made] at done; cases done
  | some foreignKeys =>
    simp only [made] at done
    obtain ⟨-, rfl⟩ := EStateM.Result.ok.inj done
    exact ⟨rfl, (KeyedTable.insert_eq_some_iff.mp made).2.2⟩

/-- Inserted edges follow the rows that are there. -/
theorem insertEdges_spec {edges : List ForeignKey} {units : List Unit}
    (done : edges.mapM (insertEdge server indexer) conn = .ok units next) :
    next.stored.elements = conn.stored.elements ∧
      ∃ rows : List EdgeRow, next.stored.foreignKeys.rows = conn.stored.foreignKeys.rows ++ rows ∧
        (∀ row ∈ rows, row.dataset = indexer.dataset) ∧ rows.map EdgeRow.edge = edges := by
  refine mapM_invariant (fun done _ conn' =>
    conn'.stored.elements = conn.stored.elements ∧
      ∃ rows : List EdgeRow, conn'.stored.foreignKeys.rows =
        conn.stored.foreignKeys.rows ++ rows ∧
        (∀ row ∈ rows, row.dataset = indexer.dataset) ∧ rows.map EdgeRow.edge = done) ?_ ?_ done
  · exact ⟨rfl, [], (List.append_nil _).symm, nofun, rfl⟩
  · rintro done _ u fk _ v - ⟨elements, rows, stored, dataset, mapped⟩ taken
    obtain ⟨same, added⟩ := insertEdge_spec taken
    refine ⟨same.trans elements, rows ++ [⟨u.edgeId, indexer.dataset, fk⟩], ?_, ?_, ?_⟩
    · rw [added, stored, List.append_assoc]
    · intro row listed
      rcases List.mem_append.mp listed with listed | last
      · exact dataset row listed
      · rw [List.mem_singleton.mp last]
    · rw [List.map_append, mapped]
      rfl

/-- Rows in scope that were not written are stale, and only these. -/
theorem deleted_spec {pairs : List (Element × V)} {written : List Nat} {removed : Nat}
    {before : Store V T}
    (upserted : Upserted server.now indexer.embedder.modelVersion before pairs written conn.stored)
    (done : deleteStale server indexer written conn = .ok removed next) (key : ElementKey) :
    next.stored.elements.get? key =
      if InScope indexer key ∧ lastOf indexer.embedder.modelVersion pairs key = none then none
      else conn.stored.elements.get? key := by
  rw [(deleteStale_spec done).1 key]
  cases found : conn.stored.elements.get? key with
  | none => simp
  | some row =>
    rw [Option.filter_some]
    cases last : lastOf indexer.embedder.modelVersion pairs key with
    | none =>
      have fresh : row.id ∉ written := by
        intro listed
        obtain ⟨other, there, seen, now, same⟩ := upserted.ids row.id listed
        have equal := KeyedTable.key_eq_of_id_eq now found same
        exact seen (equal ▸ last)
      simp [fresh]
    | some pair =>
      obtain ⟨there, now, -, listed⟩ := upserted.last key pair last
      cases Option.some.inj (found.symm.trans now)
      simp [listed]

theorem replace_spec {pairs : List (Element × V)} {foreignKeys : List ForeignKey}
    {out : List Nat × Nat × List ForeignKey}
    (inside : ∀ pair ∈ pairs, pair.1.dataset = indexer.dataset)
    (done : replace server indexer pairs foreignKeys conn = .ok out next) :
    Replaced server indexer conn.stored pairs (distinctEdges foreignKeys) next.stored := by
  obtain ⟨written, first, loop, done⟩ := bind_ok_iff.mp done
  obtain ⟨removed, second, stale, done⟩ := bind_ok_iff.mp done
  obtain ⟨⟨⟩, third, cleared, done⟩ := bind_ok_iff.mp done
  obtain ⟨units, last, inserted, done⟩ := bind_ok_iff.mp done
  obtain ⟨-, rfl⟩ := EStateM.Result.ok.inj done
  have upserted := upserted_mapM loop
  have deleted := deleted_spec upserted stale
  obtain ⟨sameElements, noEdges⟩ := deleteEdges_spec cleared
  obtain ⟨elements, rows, stored, dataset, mapped⟩ := insertEdges_spec inserted
  have table : last.stored.elements = second.stored.elements := elements.trans sameElements
  have edgesBefore : second.stored.foreignKeys = conn.stored.foreignKeys :=
    (deleteStale_spec stale).2.trans upserted.foreignKeys
  have unwritten : ∀ key, ¬InScope indexer key →
      lastOf indexer.embedder.modelVersion pairs key = none := by
    intro key outside
    refine lastOf_eq_none_iff.mpr fun listed => outside ?_
    obtain ⟨pair, member, rfl⟩ := List.mem_map.mp listed
    exact ⟨inside pair member, rfl⟩
  constructor
  · intro key pair found
    obtain ⟨row, now, holds, -⟩ := upserted.last key pair found
    refine ⟨row, ?_, holds⟩
    rw [table, deleted, if_neg (by simp [found]), now]
  · intro key inScope none
    rw [table, deleted, if_pos ⟨inScope, none⟩]
  · intro key outside
    rw [table, deleted, if_neg fun both => outside both.1,
      upserted.rest key (unwritten key outside)]
  · rw [stored, noEdges, List.filter_append, List.filter_filter]
    simp only [decide_not, Bool.and_not_self, List.filter_false, List.nil_append]
    rw [List.filter_eq_self.mpr (by simpa using dataset), mapped]
  · have none : (rows.filter fun row => ¬row.dataset = indexer.dataset) = [] :=
      List.filter_eq_nil_iff.mpr (by simpa using dataset)
    rw [stored, noEdges, edgesBefore, List.filter_append, List.filter_filter, none,
      List.append_nil]
    simp only [Bool.and_self]

theorem ping_spec (done : execute server (pure ()) conn = .ok () next) :
    next.stored = conn.stored := by
  obtain ⟨-, done⟩ := execute_ok_iff.mp done
  obtain ⟨-, rfl⟩ := EStateM.Result.ok.inj done
  rfl

theorem ping_refused {raised : Raised}
    (failed : execute server (pure ()) conn = .error raised next) :
    next.stored = conn.stored := by
  rw [execute] at failed
  split at failed
  · obtain ⟨-, rfl⟩ := EStateM.Result.error.inj failed
    rfl
  · cases failed

theorem assertDimensions_spec (done : assertDimensions server indexer conn = .ok () next) :
    next.stored = conn.stored := by
  obtain ⟨⟨⟩, u, sent, agreed⟩ := bind_ok_iff.mp done
  rw [(lift_ok_iff.mp agreed).2]
  exact ping_spec sent

theorem assertDimensions_failed {raised : Raised}
    (failed : assertDimensions server indexer conn = .error raised next) :
    next.stored = conn.stored := by
  rcases bind_error_iff.mp failed with refused | ⟨⟨⟩, u, sent, disagreed⟩
  · exact ping_refused refused
  · rw [(lift_error_iff.mp disagreed).2]
    exact ping_spec sent

theorem dataset_of_mem_buildRows {snapshot : SchemaSnapshot} {element : Element}
    (listed : element ∈ buildRows indexer snapshot) : element.dataset = indexer.dataset := by
  obtain ⟨table, -, listed⟩ := List.mem_flatMap.mp listed
  rcases List.mem_cons.mp listed with rfl | listed
  · rfl
  · obtain ⟨column, -, rfl⟩ := List.mem_map.mp listed
    rfl

theorem buildRows_eq_nil_iff {snapshot : SchemaSnapshot} :
    buildRows indexer snapshot = [] ↔ snapshot.tables = [] := by
  rw [buildRows, List.flatMap_eq_nil_iff, List.eq_nil_iff_forall_not_mem]
  exact forall_congr' fun table => imp_congr Iff.rfl (by simp)

/-- A run that succeeds replaces what is in scope by the snapshot's elements. -/
theorem index_spec {snapshot : SchemaSnapshot} {report : IndexReport}
    (nonempty : snapshot.tables ≠ [])
    (done : index server indexer snapshot conn = .ok report next) :
    ∃ vectors, embed indexer (buildRows indexer snapshot) = .ok vectors ∧
      Replaced server indexer conn.stored ((buildRows indexer snapshot).zip vectors)
        (distinctEdges snapshot.foreignKeys) next.stored := by
  obtain ⟨⟨⟩, first, checked, done⟩ := bind_ok_iff.mp done
  have same := assertDimensions_spec checked
  rw [if_neg (buildRows_eq_nil_iff.not.mpr nonempty)] at done
  obtain ⟨vectors, second, embedded, later⟩ := bind_ok_iff.mp done
  obtain ⟨answered, rfl⟩ := lift_ok_iff.mp embedded
  refine ⟨vectors, answered, ?_⟩
  obtain ⟨out, third, committed, reported⟩ := bind_ok_iff.mp later
  obtain ⟨-, rfl⟩ := EStateM.Result.ok.inj reported
  obtain ⟨⟨⟩, began, opened, body⟩ := bind_ok_iff.mp (atomically_ok_iff.mp committed)
  obtain ⟨result, replaced, written, closing⟩ := bind_ok_iff.mp body
  obtain ⟨⟨⟩, ended, closed, last⟩ := bind_ok_iff.mp closing
  obtain ⟨-, rfl⟩ := EStateM.Result.ok.inj last
  have spec := replace_spec (fun pair listed =>
    dataset_of_mem_buildRows (List.of_mem_zip listed).1) written
  rwa [← ping_spec closed, ping_spec opened, same] at spec

/-- A run that fails, wherever it does, leaves what was stored. -/
theorem index_failed {snapshot : SchemaSnapshot} {raised : Raised}
    (failed : index server indexer snapshot conn = .error raised next) :
    next.stored = conn.stored := by
  rcases bind_error_iff.mp failed with checked | ⟨⟨⟩, first, checked, failed⟩
  · exact assertDimensions_failed checked
  · have same := assertDimensions_spec checked
    by_cases empty : buildRows indexer snapshot = []
    · rw [if_pos empty] at failed
      cases failed
    · rw [if_neg empty] at failed
      rcases bind_error_iff.mp failed with embedded | ⟨vectors, second, embedded, later⟩
      · rw [(lift_error_iff.mp embedded).2]
        exact same
      · obtain ⟨-, rfl⟩ := lift_ok_iff.mp embedded
        rcases bind_error_iff.mp later with body | ⟨out, third, committed, reported⟩
        · obtain ⟨reached, -, rfl⟩ := atomically_error_iff.mp body
          exact same
        · cases reported

end statements

end run

/-! ## The distinct edges -/

theorem get?_foldl_setDefault (foreignKeys : List ForeignKey)
    (seen : Dictionary (String × String × String × String) ForeignKey)
    (path : String × String × String × String) :
    (foreignKeys.foldl (fun seen fk => seen.setDefault (endpoints fk) fk) seen).get? path =
      (seen.get? path).or (foreignKeys.find? fun fk => endpoints fk = path) := by
  induction foreignKeys generalizing seen with
  | nil => simp
  | cons fk rest ih =>
    rw [List.foldl_cons, ih, Dictionary.get?_setDefault, List.find?_cons]
    by_cases same : path = endpoints fk
    · subst same
      cases seen.get? (endpoints fk) <;> simp
    · have other : endpoints fk ≠ path := fun equal => same equal.symm
      simp [same, other]

/-- The first edge on a path is the one kept. -/
theorem mem_distinctEdges_iff {foreignKeys : List ForeignKey} {fk : ForeignKey} :
    fk ∈ distinctEdges foreignKeys ↔
      foreignKeys.find? (fun other => endpoints other = endpoints fk) = some fk := by
  have kept := get?_foldl_setDefault foreignKeys Dictionary.empty
  simp only [Dictionary.get?_empty, Option.none_or] at kept
  rw [distinctEdges, List.mem_map]
  constructor
  · rintro ⟨⟨path, value⟩, listed, rfl⟩
    have found := (kept path).symm.trans (Dictionary.mem_entries_iff.mp listed)
    have same : endpoints value = path := by simpa using List.find?_some found
    rw [same]
    exact found
  · intro found
    exact ⟨(endpoints fk, fk), Dictionary.mem_entries_iff.mpr ((kept _).trans found), rfl⟩

theorem nodup_endpoints_distinctEdges (foreignKeys : List ForeignKey) :
    ((distinctEdges foreignKeys).map endpoints).Nodup := by
  have kept := get?_foldl_setDefault foreignKeys Dictionary.empty
  simp only [Dictionary.get?_empty, Option.none_or] at kept
  have paths : (distinctEdges foreignKeys).map endpoints =
      (foreignKeys.foldl (fun seen fk => seen.setDefault (endpoints fk) fk)
        Dictionary.empty).entries.map Prod.fst := by
    rw [distinctEdges, List.map_map]
    refine List.map_congr_left fun entry listed => ?_
    have found := (kept entry.1).symm.trans (Dictionary.mem_entries_iff.mp listed)
    simpa using List.find?_some found
  rw [paths]
  exact Dictionary.distinct _

theorem mem_endpoints_distinctEdges_iff {foreignKeys : List ForeignKey}
    {path : String × String × String × String} :
    path ∈ (distinctEdges foreignKeys).map endpoints ↔ path ∈ foreignKeys.map endpoints := by
  constructor
  · intro listed
    obtain ⟨fk, member, rfl⟩ := List.mem_map.mp listed
    exact List.mem_map_of_mem (List.mem_of_find?_eq_some (mem_distinctEdges_iff.mp member))
  · intro listed
    obtain ⟨fk, member, rfl⟩ := List.mem_map.mp listed
    obtain ⟨first, found⟩ := Option.isSome_iff_exists.mp
      (List.find?_isSome (p := fun other => decide (endpoints other = endpoints fk)).mpr
        ⟨fk, member, by simp⟩)
    have same : endpoints first = endpoints fk := by simpa using List.find?_some found
    refine List.mem_map.mpr ⟨first, ?_, same⟩
    rw [mem_distinctEdges_iff, same]
    exact found

end Indexer
