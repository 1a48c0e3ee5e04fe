import TextToSqlAgent.Schema.Indexer

/-!
# An index refresh

What a successful run leaves stored, what a failed one does, and what the same run
changes when it is repeated.
-/

namespace Refresh

open Exceptions Schema Indexer

section refresh

variable {V T : Type} {server later : Server T} {indexer : SchemaIndexer V}
  {snapshot : SchemaSnapshot}

/-- Tables with different names, and columns that differ in their table or in
their name. -/
def Distinct (snapshot : SchemaSnapshot) : Prop :=
  (snapshot.tables.map Table.name).Nodup ∧
    ((snapshot.tables.flatMap Table.columns).map fun column => (column.table, column.name)).Nodup

/-- The elements of a snapshot: its tables, which have no column name, and its
columns. -/
def elementNames (snapshot : SchemaSnapshot) : List (String × Option String) :=
  snapshot.tables.map (fun table => (table.name, none)) ++
    (snapshot.tables.flatMap Table.columns).map fun column => (column.table, some column.name)

def namesOf (element : Element) : String × Option String :=
  (element.tableName, element.columnName)

/-- The rows of the dataset and of the model version. -/
def scopeRows (indexer : SchemaIndexer V) (store : Store V T) : List (ElementRow V T) :=
  store.elements.rows.filter fun row => InScope indexer row.key

def edgesOf (dataset : String) (store : Store V T) : List ForeignKey :=
  (store.foreignKeys.rows.filter fun row => row.dataset = dataset).map EdgeRow.edge

/-- What a successful run has made of the tables. -/
structure Refreshed (indexer : SchemaIndexer V) (snapshot : SchemaSnapshot)
    (before after : Store V T) : Prop where
  elements : ((scopeRows indexer after).map fun row => namesOf row.element).Perm
    (elementNames snapshot)
  contents : ∃ vectors, embed indexer (buildRows indexer snapshot) = .ok vectors ∧
    ((scopeRows indexer after).map fun row => (row.element, row.embedding)).Perm
      ((buildRows indexer snapshot).zip vectors)
  paths : ((edgesOf indexer.dataset after).map endpoints).Nodup
  edges : ∀ path, path ∈ (edgesOf indexer.dataset after).map endpoints ↔
    path ∈ snapshot.foreignKeys.map endpoints
  declared : ∀ fk ∈ edgesOf indexer.dataset after, fk ∈ snapshot.foreignKeys
  otherElements : ∀ row : ElementRow V T, ¬InScope indexer row.key →
    (row ∈ after.elements.rows ↔ row ∈ before.elements.rows)
  otherEdges : ∀ row : EdgeRow, row.dataset ≠ indexer.dataset →
    (row ∈ after.foreignKeys.rows ↔ row ∈ before.foreignKeys.rows)

def withoutTime (row : ElementRow V T) : Nat × Element × V × String :=
  (row.id, row.element, row.embedding, row.modelVersion)

/-- The same rows, but for update times. -/
structure SameButTimes (first second : Store V T) : Prop where
  elements : (second.elements.rows.map withoutTime).Perm
    (first.elements.rows.map withoutTime)
  foreignKeys : second.foreignKeys.rows.Perm first.foreignKeys.rows

/-- The same rows, but for update times and the ids of the dataset's edges. -/
structure SameButTimesAndEdgeIds (dataset : String) (first second : Store V T) : Prop where
  elements : (second.elements.rows.map withoutTime).Perm
    (first.elements.rows.map withoutTime)
  edges : (edgesOf dataset second).Perm (edgesOf dataset first)
  otherEdges : ∀ row : EdgeRow, row.dataset ≠ dataset →
    (row ∈ second.foreignKeys.rows ↔ row ∈ first.foreignKeys.rows)

theorem perm_names_buildRows (snapshot : SchemaSnapshot) :
    ((buildRows indexer snapshot).map namesOf).Perm (elementNames snapshot) := by
  rw [buildRows, List.map_flatMap]
  have split := List.map_append_flatMap_perm snapshot.tables
    (fun table => (table.name, (none : Option String)))
    fun table => table.columns.map fun column => (column.table, some column.name)
  rw [elementNames, List.map_flatMap]
  refine List.Perm.trans ?_ split.symm
  refine List.Perm.of_eq (List.flatMap_congr fun table _ => ?_)
  rw [List.map_cons, List.map_map]
  rfl

theorem nodup_elementNames (distinct : Distinct snapshot) : (elementNames snapshot).Nodup := by
  refine List.Nodup.append ?_ ?_ ?_
  · refine List.Nodup.of_map Prod.fst ?_
    rw [List.map_map]
    exact distinct.1
  · refine List.Nodup.of_map (fun names => (names.1, names.2.getD "")) ?_
    rw [List.map_map]
    exact distinct.2
  · intro names table column
    obtain ⟨_, _, rfl⟩ := List.mem_map.mp table
    obtain ⟨_, _, same⟩ := List.mem_map.mp column
    cases congrArg Prod.snd same

theorem map_names_zip_buildRows {vectors : List V}
    (embedded : embed indexer (buildRows indexer snapshot) = .ok vectors) :
    (((buildRows indexer snapshot).zip vectors).map fun pair => namesOf pair.1) =
      (buildRows indexer snapshot).map namesOf := by
  obtain ⟨answered, -, checked⟩ := Fallible.bind_ok_iff.mp embedded
  split at checked
  · cases checked
  · rename_i lengths
    cases checked
    have firsts := List.map_fst_zip (le_of_eq (not_not.mp lengths).symm)
    change List.map (namesOf ∘ Prod.fst) _ = _
    rw [← List.map_map, firsts]

/-- The keys of the written pairs are distinct, and in scope. -/
theorem nodup_keys_of_distinct {vectors : List V} (distinct : Distinct snapshot)
    (embedded : embed indexer (buildRows indexer snapshot) = .ok vectors) :
    (((buildRows indexer snapshot).zip vectors).map fun pair =>
      pair.1.key indexer.embedder.modelVersion).Nodup := by
  have names : ((buildRows indexer snapshot).map namesOf).Nodup :=
    (perm_names_buildRows snapshot).nodup_iff.mpr (nodup_elementNames distinct)
  refine List.Nodup.of_map (fun key : ElementKey => (key.tableName, key.columnName)) ?_
  rw [List.map_map]
  exact (map_names_zip_buildRows embedded).symm ▸ names

theorem mem_contents_iff {before after : Store V T} {pairs : List (Element × V)}
    {edges : List ForeignKey} (replaced : Replaced server indexer before pairs edges after)
    (inside : ∀ pair ∈ pairs, pair.1.dataset = indexer.dataset)
    (distinct : (pairs.map fun pair => pair.1.key indexer.embedder.modelVersion).Nodup)
    {pair : Element × V} :
    pair ∈ (scopeRows indexer after).map (fun row => (row.element, row.embedding)) ↔
      pair ∈ pairs := by
  constructor
  · intro listed
    obtain ⟨row, member, rfl⟩ := List.mem_map.mp listed
    obtain ⟨stored, inScope⟩ := List.mem_filter.mp member
    have found := KeyedTable.get?_keyOf stored
    cases last : lastOf indexer.embedder.modelVersion pairs row.key with
    | none =>
      have gone := replaced.removed row.key (of_decide_eq_true inScope) last
      rw [found] at gone
      cases gone
    | some pair =>
      obtain ⟨there, now, holds⟩ := replaced.written row.key pair last
      cases Option.some.inj (found.symm.trans now)
      rw [holds.element, holds.embedding]
      exact ((lastOf_eq_some_iff distinct).mp last).1
  · intro listed
    obtain ⟨row, now, holds⟩ := replaced.written _ pair
      ((lastOf_eq_some_iff distinct).mpr ⟨listed, rfl⟩)
    obtain ⟨stored, key⟩ := KeyedTable.get?_eq_some_iff.mp now
    refine List.mem_map.mpr ⟨row, List.mem_filter.mpr ⟨stored, ?_⟩, ?_⟩
    · rw [key]
      exact decide_eq_true ⟨inside pair listed, rfl⟩
    · rw [holds.element, holds.embedding]

theorem perm_contents {before after : Store V T} {pairs : List (Element × V)}
    {edges : List ForeignKey} (replaced : Replaced server indexer before pairs edges after)
    (inside : ∀ pair ∈ pairs, pair.1.dataset = indexer.dataset)
    (distinct : (pairs.map fun pair => pair.1.key indexer.embedder.modelVersion).Nodup) :
    ((scopeRows indexer after).map fun row => (row.element, row.embedding)).Perm pairs := by
  refine (List.perm_ext_iff_of_nodup ?_ (List.Nodup.of_map _ distinct)).mpr fun pair =>
    mem_contents_iff replaced inside distinct
  refine KeyedTable.nodup_map fun row other inScope too same => ?_
  have version : row.modelVersion = other.modelVersion :=
    (of_decide_eq_true inScope).2.trans (of_decide_eq_true too).2.symm
  rw [ElementRow.key, ElementRow.key, (Prod.mk.inj same).1, version]

theorem mem_otherEdges_iff {before after : Store V T} {pairs : List (Element × V)}
    {edges : List ForeignKey} (replaced : Replaced server indexer before pairs edges after)
    {row : EdgeRow} (other : row.dataset ≠ indexer.dataset) :
    row ∈ after.foreignKeys.rows ↔ row ∈ before.foreignKeys.rows := by
  have same := congrArg (row ∈ ·) replaced.otherEdges
  simpa [other] using same

theorem refreshed {before after : Store V T} {vectors : List V}
    (distinct : Distinct snapshot)
    (embedded : embed indexer (buildRows indexer snapshot) = .ok vectors)
    (replaced : Replaced server indexer before ((buildRows indexer snapshot).zip vectors)
      (distinctEdges snapshot.foreignKeys) after) :
    Refreshed indexer snapshot before after := by
  have contents := perm_contents replaced
    (fun pair listed => dataset_of_mem_buildRows (List.of_mem_zip listed).1)
    (nodup_keys_of_distinct distinct embedded)
  have edges : edgesOf indexer.dataset after = distinctEdges snapshot.foreignKeys :=
    replaced.edges
  constructor
  · have names := contents.map fun pair => namesOf pair.1
    rw [List.map_map] at names
    exact (names.trans (.of_eq (map_names_zip_buildRows embedded))).trans
      (perm_names_buildRows snapshot)
  · exact ⟨vectors, embedded, contents⟩
  · rw [edges]
    exact nodup_endpoints_distinctEdges _
  · intro path
    rw [edges]
    exact mem_endpoints_distinctEdges_iff
  · intro fk listed
    rw [edges] at listed
    exact List.mem_of_find?_eq_some (mem_distinctEdges_iff.mp listed)
  · intro row outside
    exact KeyedTable.mem_rows_iff_of_get?_eq (replaced.kept row.key outside)
  · exact fun row other => mem_otherEdges_iff replaced other

/-- Writing the same pairs again keeps every row, but for its time. -/
theorem again {before first second : Store V T} {pairs : List (Element × V)}
    {edges : List ForeignKey} (once : Replaced server indexer before pairs edges first)
    (twice : Replaced later indexer first pairs edges second) :
    SameButTimesAndEdgeIds indexer.dataset first second := by
  constructor
  · refine KeyedTable.perm_map_rows ?_ fun key => ?_
    · intro row other same
      simp only [withoutTime, Prod.mk.injEq] at same
      obtain ⟨-, element, -, version⟩ := same
      rw [ElementRow.key, ElementRow.key, element, version]
    · by_cases inScope : InScope indexer key
      · cases last : lastOf indexer.embedder.modelVersion pairs key with
        | none => rw [twice.removed key inScope last, once.removed key inScope last]
        | some pair =>
          obtain ⟨row, now, holds⟩ := once.written key pair last
          obtain ⟨row', now', holds'⟩ := twice.written key pair last
          have versions : row'.modelVersion = row.modelVersion :=
            congrArg ElementKey.modelVersion
              ((KeyedTable.keyOf_of_get? now').trans (KeyedTable.keyOf_of_get? now).symm)
          rw [now, now']
          simp only [Option.map_some, withoutTime, holds'.id row now, holds'.element,
            holds.element, holds'.embedding, holds.embedding, versions]
      · rw [twice.kept key inScope]
  · exact .of_eq (twice.edges.trans once.edges.symm)
  · exact fun row other => mem_otherEdges_iff twice other

/-- The connection after a run, whether it succeeded or failed. -/
def connectionAfter : EStateM.Result Raised (Connection V T) IndexReport → Connection V T
  | .ok _ next => next
  | .error _ next => next

def succeeded : EStateM.Result Raised (Connection V T) IndexReport → Bool
  | .ok _ _ => true
  | .error _ _ => false

theorem ok_of_succeeded {result : EStateM.Result Raised (Connection V T) IndexReport}
    (ok : succeeded result = true) : ∃ report, result = .ok report (connectionAfter result) := by
  cases result with
  | ok report next => exact ⟨report, rfl⟩
  | error raised next => cases ok

/-- A failed run changes nothing. A successful one leaves exactly the snapshot's
elements and edges and the rows of others as they were, and repeating it changes only
update times and the ids of edges. -/
theorem refresh_exact (indexer : SchemaIndexer V) (server later : Server T)
    (snapshot : SchemaSnapshot) (nonempty : snapshot.tables ≠ []) (distinct : Distinct snapshot)
    (conn : Connection V T) :
    (∀ raised next, index server indexer snapshot conn = .error raised next →
      next.stored = conn.stored) ∧
    ∀ report next, index server indexer snapshot conn = .ok report next →
      Refreshed indexer snapshot conn.stored next.stored ∧
        SameButTimesAndEdgeIds indexer.dataset next.stored
          (connectionAfter (index later indexer snapshot next)).stored := by
  constructor
  · intro raised next failed
    exact index_failed failed
  · intro report next done
    obtain ⟨vectors, embedded, replaced⟩ := index_spec nonempty done
    refine ⟨refreshed distinct embedded replaced, ?_⟩
    cases again : index later indexer snapshot next with
    | ok report' last =>
      obtain ⟨vectors', embedded', replaced'⟩ := index_spec nonempty again
      cases Except.ok.inj (embedded.symm.trans embedded')
      exact Refresh.again replaced replaced'
    | error raised last =>
      rw [connectionAfter, index_failed again]
      exact ⟨.refl _, .refl _, fun _ _ => Iff.rfl⟩

end refresh

/-! ## One run after another -/

def ordersSnapshot : SchemaSnapshot where
  tables := [
    ⟨"orders", some "One per checkout.",
      [⟨"orders", "id", "bigint", false, none, []⟩,
        ⟨"orders", "customer_id", "bigint", false, none, []⟩]⟩,
    ⟨"customers", none, [⟨"customers", "id", "bigint", false, none, []⟩]⟩]
  foreignKeys := [⟨"orders", "customer_id", "customers", "id", some "orders_fk"⟩]

/-- The width of a text stands for its vector. -/
def ordersIndexer : SchemaIndexer (List Nat) where
  embedder := ⟨"hashing-1", 1, fun texts => .ok (texts.map fun text => [text.length])⟩
  dataset := "shop"
  sensitivePatterns := ["password"]
  names := ⟨String.toLower, fun _ _ => none⟩
  repr := fun text => "'" ++ text ++ "'"

def serverAt (now : Nat) : Server Nat := ⟨fun _ => none, some "vector(1)", now⟩

def freshConnection : Connection (List Nat) Nat where
  stored := ⟨.empty, .empty⟩

def firstRun : EStateM.Result Raised (Connection (List Nat) Nat) IndexReport :=
  index (serverAt 1) ordersIndexer ordersSnapshot freshConnection

def secondRun : EStateM.Result Raised (Connection (List Nat) Nat) IndexReport :=
  index (serverAt 2) ordersIndexer ordersSnapshot (connectionAfter firstRun)

theorem refresh_exact_orders :
    succeeded firstRun = true ∧
      Refreshed ordersIndexer ordersSnapshot freshConnection.stored
        (connectionAfter firstRun).stored ∧
      SameButTimesAndEdgeIds ordersIndexer.dataset (connectionAfter firstRun).stored
        (connectionAfter secondRun).stored := by
  have ok : succeeded firstRun = true := by decide +kernel
  obtain ⟨report, done⟩ := ok_of_succeeded ok
  exact ⟨ok, (refresh_exact ordersIndexer (serverAt 1) (serverAt 2) ordersSnapshot
    (by decide +kernel) ⟨by decide +kernel, by decide +kernel⟩ freshConnection).2 report _ done⟩

/-- The second run deletes the edge and inserts it again, under a new id. -/
theorem edge_ids_change :
    succeeded firstRun = true ∧ succeeded secondRun = true ∧
      ¬SameButTimes (connectionAfter firstRun).stored (connectionAfter secondRun).stored := by
  refine ⟨by decide +kernel, by decide +kernel, ?_⟩
  intro same
  have ids := same.foreignKeys.map EdgeRow.id
  revert ids
  decide +kernel

end Refresh
