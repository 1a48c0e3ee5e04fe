import Mathlib.Data.List.Dedup
import TextToSqlAgent.Library.Counting
import TextToSqlAgent.Library.Runs
import TextToSqlAgent.Schema.Refresh

/-!
# Reading the catalog back

The two readers of the indexed rows: the identifier index validation uses, and the
full schema. Both select by dataset, while the indexer writes and deletes by dataset
and model version.
-/

namespace Readers

open Python Catalog Schema Indexer Refresh Runs

section readers

variable {V T : Type} (names : Names) (store : Store V T) (dataset : String)

def rowsOf : List (ElementRow V T) :=
  store.elements.rows.filter fun row => row.element.dataset = dataset

/-- One row of `_LOAD_SQL`, put into its bucket. -/
def addName (columns : Dictionary String (List String)) (row : String × Option String) :
    Dictionary String (List String) :=
  let opened := columns.setDefault (names.casefold row.1) []
  match row.2 with
  | none => opened
  | some column => opened.modify (names.casefold row.1) (List.insert (names.casefold column))

/-- `load_catalog`. -/
def loadCatalog : SchemaCatalog :=
  let rows := ((rowsOf store dataset).map fun row => namesOf row.element).dedup
  ⟨(rows.foldl (addName names) Dictionary.empty).entries⟩

/-- How the database compares two texts, and `ORDER BY` two expressions, an absent
one before every other. -/
def sortedBefore (collation : String → String → Bool) (a b : String × Option String) : Bool :=
  if a.1 = b.1 then
    match a.2, b.2 with
    | none, _ => true
    | some _, none => false
    | some c, some d => collation c d
  else collation a.1 b.1

/-- `read_full_schema`. -/
def readFullSchema (collation : String → String → Bool) : RetrievalResult where
  elements := ((rowsOf store dataset).mergeSort fun a b =>
    sortedBefore collation (namesOf a.element) (namesOf b.element)).map fun row =>
      { elementType := row.element.elementType.text
        table := row.element.tableName
        column := row.element.columnName
        dataType := row.element.dataType
        comment := row.element.comment
        serialized := row.element.serialized
        score := .finite 1 }
  foreignKeys := ((store.foreignKeys.rows.filter fun row => row.dataset = dataset).mergeSort
    fun a b => sortedBefore collation (a.edge.fromTable, some a.edge.fromColumn)
      (b.edge.fromTable, some b.edge.fromColumn)).map EdgeRow.edge

end readers

/-! ## Runs of one dataset -/

section histories

variable {V T : Type} {dataset : String}

/-- A run of the indexer over a snapshot that is not empty. -/
structure IndexRun (V T : Type) (dataset : String) where
  server : Server T
  indexer : SchemaIndexer V
  snapshot : SchemaSnapshot
  ofDataset : indexer.dataset = dataset
  nonempty : snapshot.tables ≠ []

def IndexRun.version (run : IndexRun V T dataset) : String := run.indexer.embedder.modelVersion

/-- A run that fails is none. -/
def step (conn : Connection V T) (run : IndexRun V T dataset) : Option (Connection V T) :=
  match index run.server run.indexer run.snapshot conn with
  | .ok _ next => some next
  | .error _ _ => none

/-- The last run under a model version. -/
def latest (version : String) (runs : List (IndexRun V T dataset)) :
    Option (IndexRun V T dataset) :=
  runs.reverse.find? fun run => run.version = version

theorem latest_append_singleton {version : String} {runs : List (IndexRun V T dataset)}
    {run : IndexRun V T dataset} :
    latest version (runs ++ [run]) = if run.version = version then some run
      else latest version runs := by
  rw [latest, List.reverse_append, List.reverse_singleton, List.singleton_append, List.find?_cons]
  by_cases same : run.version = version
  · simp [same]
  · simp [same, latest]

/-- The keys under which something of the dataset is stored are the elements of the
last snapshot of each model version. -/
def Stores (runs : List (IndexRun V T dataset)) (store : Store V T) : Prop :=
  ∀ key : ElementKey, key.dataset = dataset → ((∃ row, store.elements.get? key = some row) ↔
    ∃ run, latest key.modelVersion runs = some run ∧
      (key.tableName, key.columnName) ∈ elementNames run.snapshot)

/-- What a run writes are the elements of its snapshot. -/
theorem mem_keys_iff {indexer : SchemaIndexer V} {snapshot : SchemaSnapshot} {vectors : List V}
    (embedded : embed indexer (buildRows indexer snapshot) = .ok vectors) {key : ElementKey}
    (inScope : InScope indexer key) :
    key ∈ (((buildRows indexer snapshot).zip vectors).map fun pair =>
        pair.1.key indexer.embedder.modelVersion) ↔
      (key.tableName, key.columnName) ∈ elementNames snapshot := by
  rw [← (perm_names_buildRows snapshot).mem_iff, ← map_names_zip_buildRows embedded,
    List.mem_map, List.mem_map]
  refine exists_congr fun pair => and_congr_right fun listed => ?_
  have ours := dataset_of_mem_buildRows (List.of_mem_zip listed).1
  obtain ⟨dataset, table, column, version⟩ := key
  obtain ⟨rfl, rfl⟩ := inScope
  simp [Element.key, namesOf, ours]

theorem Stores.step {runs : List (IndexRun V T dataset)} {run : IndexRun V T dataset}
    {conn next : Connection V T} (stores : Stores runs conn.stored)
    (taken : step conn run = some next) : Stores (runs ++ [run]) next.stored := by
  rw [Readers.step] at taken
  split at taken
  · rename_i report reached done
    cases taken
    obtain ⟨vectors, embedded, replaced⟩ := index_spec run.nonempty done
    intro key here
    rw [latest_append_singleton]
    by_cases same : run.version = key.modelVersion
    · have inScope : InScope run.indexer key := ⟨here.trans run.ofDataset.symm, same.symm⟩
      rw [if_pos same]
      simp only [Option.some.injEq, exists_eq_left']
      rw [← mem_keys_iff embedded inScope]
      cases last : lastOf run.indexer.embedder.modelVersion
          ((buildRows run.indexer run.snapshot).zip vectors) key with
      | none =>
        rw [replaced.removed key inScope last]
        constructor
        · rintro ⟨row, found⟩
          cases found
        · exact fun listed => absurd listed (lastOf_eq_none_iff.mp last)
      | some pair =>
        obtain ⟨row, found, -⟩ := replaced.written key pair last
        refine ⟨fun _ => ?_, fun _ => ⟨row, found⟩⟩
        by_contra fresh
        rw [lastOf_eq_none_iff.mpr fresh] at last
        cases last
    · rw [if_neg same, replaced.kept key fun inScope => same inScope.2.symm]
      exact stores key here
  · cases taken

theorem stores_of_run {runs : List (IndexRun V T dataset)} {start final : Connection V T}
    (absent : ∀ row ∈ start.stored.elements.rows, row.element.dataset ≠ dataset)
    (reached : run step start runs = some final) : Stores runs final.stored := by
  induction runs using List.reverseRecOn generalizing final with
  | nil =>
    cases reached
    intro key here
    constructor
    · rintro ⟨row, found⟩
      obtain ⟨listed, rfl⟩ := KeyedTable.get?_eq_some_iff.mp found
      exact absurd here (absent row listed)
    · rintro ⟨run, none, -⟩
      cases none
  | append_singleton runs last ih =>
    obtain ⟨conn, earlier, taken⟩ := run_append_some.mp reached
    obtain ⟨next, taken, done⟩ := run_cons_some.mp taken
    cases done
    exact (ih earlier).step taken

end histories

/-! ## What the readers see -/

section seen

variable {V T : Type} {names : Names} {store : Store V T} {dataset : String}

/-- The buckets after these rows. -/
structure Bucketed (names : Names) (rows : List (String × Option String))
    (columns : Dictionary String (List String)) : Prop where
  tables : ∀ table, (∃ found, columns.get? table = some found) ↔
    ∃ row ∈ rows, names.casefold row.1 = table
  columns : ∀ table column, (∃ found, columns.get? table = some found ∧ column ∈ found) ↔
    ∃ row ∈ rows, names.casefold row.1 = table ∧ row.2.map names.casefold = some column

theorem get?_addName (columns : Dictionary String (List String)) (row : String × Option String)
    (table : String) :
    (addName names columns row).get? table =
      if table = names.casefold row.1 then
        some ((row.2.map names.casefold).elim id List.insert
          ((columns.get? (names.casefold row.1)).getD []))
      else columns.get? table := by
  obtain ⟨name, column⟩ := row
  rw [addName]
  cases column with
  | none => exact Dictionary.get?_setDefault columns _ table []
  | some column =>
    rw [Dictionary.get?_modify]
    by_cases same : table = names.casefold name
    · rw [if_pos same, if_pos same, Dictionary.get?_setDefault, if_pos rfl]
      rfl
    · rw [if_neg same, if_neg same, Dictionary.get?_setDefault, if_neg same]

theorem Bucketed.step {rows : List (String × Option String)}
    {columns : Dictionary String (List String)} (bucketed : Bucketed names rows columns)
    (row : String × Option String) :
    Bucketed names (rows ++ [row]) (addName names columns row) := by
  have more : ∀ P : String × Option String → Prop,
      (∃ other ∈ rows ++ [row], P other) ↔ (∃ other ∈ rows, P other) ∨ P row := by
    intro P
    simp only [List.mem_append, List.mem_singleton, or_and_right, exists_or, exists_eq_left]
  constructor
  · intro table
    rw [get?_addName, more, ← bucketed.tables table]
    by_cases same : table = names.casefold row.1
    · simp [same]
    · have other : names.casefold row.1 ≠ table := fun equal => same equal.symm
      simp [same, other]
  · intro table column
    rw [get?_addName, more, ← bucketed.columns table column]
    by_cases same : table = names.casefold row.1
    · subst same
      have kept : column ∈ (columns.get? (names.casefold row.1)).getD [] ↔
          ∃ found, columns.get? (names.casefold row.1) = some found ∧ column ∈ found := by
        cases columns.get? (names.casefold row.1) <;> simp
      rw [← kept]
      cases row.2 with
      | none => simp
      | some added => simp [or_comm, eq_comm]
    · have other : names.casefold row.1 ≠ table := fun equal => same equal.symm
      simp [same, other]

theorem bucketed_foldl (names : Names) (rows : List (String × Option String)) :
    Bucketed names rows (rows.foldl (addName names) Dictionary.empty) := by
  induction rows using List.reverseRecOn with
  | nil =>
    exact ⟨fun _ => by simp [Dictionary.get?_empty], fun _ _ => by simp [Dictionary.get?_empty]⟩
  | append_singleton rows row ih =>
    rw [List.foldl_append]
    exact ih.step row

theorem hasTable_loadCatalog_iff {name : String} :
    (loadCatalog names store dataset).hasTable names name = true ↔
      ∃ element ∈ (rowsOf store dataset).map fun row => namesOf row.element,
        names.casefold element.1 = names.casefold name := by
  have bucketed := bucketed_foldl names
    ((rowsOf store dataset).map fun row => namesOf row.element).dedup
  have known := bucketed.tables (names.casefold name)
  simp only [List.mem_dedup] at known
  rw [← known, SchemaCatalog.hasTable, loadCatalog, List.any_eq_true]
  constructor
  · rintro ⟨⟨table, found⟩, listed, same⟩
    exact ⟨found, beq_iff_eq.mp same ▸ Dictionary.mem_entries_iff.mp listed⟩
  · rintro ⟨found, stored⟩
    exact ⟨_, Dictionary.mem_entries_iff.mpr stored, beq_self_eq_true _⟩

theorem hasColumn_loadCatalog_iff {table column : String} :
    (loadCatalog names store dataset).hasColumn names table column = true ↔
      ∃ element ∈ (rowsOf store dataset).map fun row => namesOf row.element,
        names.casefold element.1 = names.casefold table ∧
          element.2.map names.casefold = some (names.casefold column) := by
  have bucketed := bucketed_foldl names
    ((rowsOf store dataset).map fun row => namesOf row.element).dedup
  have known := bucketed.columns (names.casefold table) (names.casefold column)
  simp only [List.mem_dedup] at known
  rw [← known, SchemaCatalog.hasColumn, SchemaCatalog.columnsAt, loadCatalog]
  set columns := (((rowsOf store dataset).map fun row => namesOf row.element).dedup).foldl
    (addName names) Dictionary.empty with made
  cases found : columns.entries.find? fun entry => entry.1 == names.casefold table with
  | none =>
    have absent : columns.get? (names.casefold table) = none := by
      rw [Dictionary.get?]
      exact congrArg (Option.map Prod.snd) found
    simp [absent]
  | some entry =>
    have present : columns.get? (names.casefold table) = some entry.2 := by
      rw [Dictionary.get?]
      exact congrArg (Option.map Prod.snd) found
    simp [present]

/-- The full schema lists the elements of the rows, in some order. -/
theorem perm_readFullSchema (collation : String → String → Bool) :
    ((readFullSchema store dataset collation).elements.map fun element =>
      (element.table, element.column)).Perm
        ((rowsOf store dataset).map fun row => namesOf row.element) := by
  rw [readFullSchema, List.map_map]
  exact (List.mergeSort_perm _ _).map _

end seen

/-! ## The last run and the readers -/

section last

variable {V T : Type} {dataset : String} (names : Names)

/-- The readers see the elements of the snapshot: its names are the known ones, and
each of its elements is listed once. -/
structure Follows (snapshot : SchemaSnapshot) (catalog : SchemaCatalog)
    (full : RetrievalResult) : Prop where
  tables : ∀ name, catalog.hasTable names name = true ↔
    ∃ element ∈ elementNames snapshot, names.casefold element.1 = names.casefold name
  columns : ∀ table column, catalog.hasColumn names table column = true ↔
    ∃ element ∈ elementNames snapshot, names.casefold element.1 = names.casefold table ∧
      element.2.map names.casefold = some (names.casefold column)
  listed : ∀ element ∈ elementNames snapshot,
    (full.elements.map fun listed => (listed.table, listed.column)).count element = 1

/-- The names of an element are, but for their case, names of the snapshot. -/
structure Covered (snapshot : SchemaSnapshot) (element : String × Option String) : Prop where
  table : ∃ other ∈ elementNames snapshot, names.casefold other.1 = names.casefold element.1
  column : ∀ column, element.2 = some column → ∃ other ∈ elementNames snapshot,
    names.casefold other.1 = names.casefold element.1 ∧
      other.2.map names.casefold = some (names.casefold column)

/-- What was last indexed under another model version shares no element with the last
snapshot, and has no name that it has not. -/
def Superseded (earlier : List (IndexRun V T dataset)) (last : IndexRun V T dataset) : Prop :=
  ∀ run, latest run.version earlier = some run → run.version ≠ last.version →
    ∀ element ∈ elementNames run.snapshot,
      element ∉ elementNames last.snapshot ∧ Covered names last.snapshot element

variable {names} {earlier : List (IndexRun V T dataset)} {last : IndexRun V T dataset}
  {store : Store V T}

theorem version_of_latest {version : String} {runs : List (IndexRun V T dataset)}
    {run : IndexRun V T dataset} (found : latest version runs = some run) :
    run.version = version := by
  simpa using List.find?_some found

/-- Under the last run's version the elements of the last run are stored. -/
theorem stored_iff_of_last (stores : Stores (earlier ++ [last]) store)
    {element : String × Option String} :
    (∃ row, store.elements.get? ⟨dataset, element.1, element.2, last.version⟩ = some row) ↔
      element ∈ elementNames last.snapshot := by
  rw [stores _ rfl, latest_append_singleton, if_pos rfl]
  simp

/-- Under any other, those of the last run under it. -/
theorem stored_iff_of_other (stores : Stores (earlier ++ [last]) store) {version : String}
    (other : version ≠ last.version) {element : String × Option String} :
    (∃ row, store.elements.get? ⟨dataset, element.1, element.2, version⟩ = some row) ↔
      ∃ run, latest version earlier = some run ∧ element ∈ elementNames run.snapshot := by
  rw [stores _ rfl, latest_append_singleton, if_neg fun same => other same.symm]

theorem mem_names_rowsOf_iff {element : String × Option String} :
    element ∈ (rowsOf store dataset).map (fun row => namesOf row.element) ↔
      ∃ version row, store.elements.get? ⟨dataset, element.1, element.2, version⟩ = some row := by
  rw [List.mem_map]
  constructor
  · rintro ⟨row, listed, rfl⟩
    obtain ⟨stored, ours⟩ := List.mem_filter.mp listed
    exact ⟨row.modelVersion, row, of_decide_eq_true ours ▸ KeyedTable.get?_keyOf stored⟩
  · rintro ⟨version, row, found⟩
    obtain ⟨stored, key⟩ := KeyedTable.get?_eq_some_iff.mp found
    obtain ⟨ours, table, column, -⟩ := ElementKey.mk.inj key
    exact ⟨row, List.mem_filter.mpr ⟨stored, decide_eq_true ours⟩, Prod.ext table column⟩

/-- The stored elements are those of the last run, and those of the last run under
every other model version. -/
theorem mem_names_rowsOf_iff_of_stores (stores : Stores (earlier ++ [last]) store)
    {element : String × Option String} :
    element ∈ (rowsOf store dataset).map (fun row => namesOf row.element) ↔
      element ∈ elementNames last.snapshot ∨
        ∃ run, latest run.version earlier = some run ∧ run.version ≠ last.version ∧
          element ∈ elementNames run.snapshot := by
  rw [mem_names_rowsOf_iff]
  constructor
  · rintro ⟨version, stored⟩
    by_cases here : version = last.version
    · subst here
      exact Or.inl ((stored_iff_of_last stores).mp stored)
    · obtain ⟨run, found, listed⟩ := (stored_iff_of_other stores here).mp stored
      obtain rfl := version_of_latest found
      exact Or.inr ⟨run, found, here, listed⟩
  · rintro (listed | ⟨run, found, other, listed⟩)
    · exact ⟨last.version, (stored_iff_of_last stores).mpr listed⟩
    · exact ⟨run.version, (stored_iff_of_other stores other).mpr ⟨run, found, listed⟩⟩

/-- An element of the last snapshot is listed once exactly when no other model version
stores it. -/
theorem listed_once_iff (stores : Stores (earlier ++ [last]) store)
    (collation : String → String → Bool) {element : String × Option String}
    (indexed : element ∈ elementNames last.snapshot) :
    ((readFullSchema store dataset collation).elements.map fun listed =>
        (listed.table, listed.column)).count element = 1 ↔
      ∀ run, latest run.version earlier = some run → run.version ≠ last.version →
        element ∉ elementNames run.snapshot := by
  rw [(perm_readFullSchema collation).count_eq]
  obtain ⟨row, found⟩ := (stored_iff_of_last stores).mpr indexed
  obtain ⟨stored, key⟩ := KeyedTable.get?_eq_some_iff.mp found
  obtain ⟨ours, table, column, version⟩ := ElementKey.mk.inj key
  have named : namesOf row.element = element := Prod.ext table column
  have member : row ∈ rowsOf store dataset := List.mem_filter.mpr ⟨stored, decide_eq_true ours⟩
  have once := Counting.count_map_eq_one_iff (f := fun row : ElementRow V T => namesOf row.element)
    (store.elements.nodup_rows.filter _) member
  simp only [named] at once
  refine Iff.trans once ?_
  constructor
  · intro alone run latestRun other listed
    obtain ⟨there, also⟩ := (stored_iff_of_other stores other).mpr ⟨run, latestRun, listed⟩
    obtain ⟨stored', key'⟩ := KeyedTable.get?_eq_some_iff.mp also
    obtain ⟨ours', table', column', version'⟩ := ElementKey.mk.inj key'
    have same := alone there (List.mem_filter.mpr ⟨stored', decide_eq_true ours'⟩)
      (Prod.ext table' column')
    exact other (version'.symm.trans (same ▸ version))
  · intro none there listed same
    obtain ⟨stored', ours'⟩ := List.mem_filter.mp listed
    have keys := KeyedTable.get?_keyOf stored'
    have names : there.key = ⟨dataset, element.1, element.2, there.modelVersion⟩ := by
      rw [← same, ← of_decide_eq_true ours']
      rfl
    rw [names] at keys
    by_cases here : there.modelVersion = last.version
    · rw [here] at keys
      exact Option.some.inj (keys.symm.trans found)
    · obtain ⟨run, latestRun, member⟩ := (stored_iff_of_other stores here).mp ⟨there, keys⟩
      have version := version_of_latest latestRun
      exact absurd member (none run (version.symm ▸ latestRun) (version.symm ▸ here))

/-- After runs of one dataset the readers follow the last of them exactly when
nothing else is left under another model version. -/
theorem follows_last_iff (names : Names) (collation : String → String → Bool)
    {start final : Connection V T}
    (absent : ∀ row ∈ start.stored.elements.rows, row.element.dataset ≠ dataset)
    (reached : run step start (earlier ++ [last]) = some final) :
    Follows names last.snapshot (loadCatalog names final.stored dataset)
        (readFullSchema final.stored dataset collation) ↔
      Superseded names earlier last := by
  have stores := stores_of_run absent reached
  constructor
  · intro follows run found other element listed
    have stored := (mem_names_rowsOf_iff_of_stores stores).mpr (.inr ⟨run, found, other, listed⟩)
    refine ⟨?_, ?_, ?_⟩
    · intro indexed
      exact (listed_once_iff stores collation indexed).mp (follows.listed element indexed) run
        found other listed
    · exact (follows.tables element.1).mp (hasTable_loadCatalog_iff.mpr ⟨element, stored, rfl⟩)
    · intro column named
      refine (follows.columns element.1 column).mp (hasColumn_loadCatalog_iff.mpr
        ⟨element, stored, rfl, ?_⟩)
      rw [named]
      rfl
  · intro superseded
    constructor
    · intro name
      rw [hasTable_loadCatalog_iff]
      constructor
      · rintro ⟨element, stored, same⟩
        rcases (mem_names_rowsOf_iff_of_stores stores).mp stored with
          listed | ⟨run, found, other, listed⟩
        · exact ⟨element, listed, same⟩
        · obtain ⟨covering, member, equal⟩ :=
            (superseded run found other element listed).2.table
          exact ⟨covering, member, equal.trans same⟩
      · rintro ⟨element, listed, same⟩
        exact ⟨element, (mem_names_rowsOf_iff_of_stores stores).mpr (.inl listed), same⟩
    · intro table column
      rw [hasColumn_loadCatalog_iff]
      constructor
      · rintro ⟨element, stored, same, named⟩
        rcases (mem_names_rowsOf_iff_of_stores stores).mp stored with
          listed | ⟨run, found, other, listed⟩
        · exact ⟨element, listed, same, named⟩
        · obtain ⟨own, written, folded⟩ := Option.map_eq_some_iff.mp named
          obtain ⟨covering, member, equal, found⟩ :=
            (superseded run found other element listed).2.column own written
          exact ⟨covering, member, equal.trans same, found.trans (congrArg some folded)⟩
      · rintro ⟨element, listed, same⟩
        exact ⟨element, (mem_names_rowsOf_iff_of_stores stores).mpr (.inl listed), same⟩
    · intro element indexed
      refine (listed_once_iff stores collation indexed).mpr ?_
      intro run found other listed
      exact (superseded run found other element listed).1 indexed

end last

def ordersRun : IndexRun (List Nat) Nat "shop" where
  server := serverAt 1
  indexer := ordersIndexer
  snapshot := ordersSnapshot
  ofDataset := rfl
  nonempty := by decide

/-- The table of orders was dropped. -/
def customersSnapshot : SchemaSnapshot where
  tables := [⟨"customers", none, [⟨"customers", "id", "bigint", false, none, []⟩]⟩]

def customersRun : IndexRun (List Nat) Nat "shop" where
  server := serverAt 2
  indexer := ordersIndexer
  snapshot := customersSnapshot
  ofDataset := rfl
  nonempty := by decide

/-- The same run, after the embedding model was changed. -/
def newModelRun : IndexRun (List Nat) Nat "shop" where
  server := serverAt 2
  indexer := { ordersIndexer with
    embedder := { ordersIndexer.embedder with modelVersion := "hashing-2" } }
  snapshot := customersSnapshot
  ofDataset := rfl
  nonempty := by decide

def alphabetical (a b : String) : Bool := decide (a ≤ b)

theorem follows_last_sameModel :
    ∃ final, run step freshConnection [ordersRun, customersRun] = some final ∧
      Follows ordersIndexer.names customersSnapshot
        (loadCatalog ordersIndexer.names final.stored "shop")
        (readFullSchema final.stored "shop" alphabetical) := by
  obtain ⟨final, reached⟩ := Option.isSome_iff_exists.mp
    (show (run step freshConnection [ordersRun, customersRun]).isSome = true by decide +kernel)
  have inTurn : run step freshConnection ([ordersRun] ++ [customersRun]) = some final := reached
  have absent : ∀ row ∈ freshConnection.stored.elements.rows, row.element.dataset ≠ "shop" :=
    fun row listed => absurd listed List.not_mem_nil
  refine ⟨final, reached, (follows_last_iff ordersIndexer.names alphabetical absent inTurn).mpr ?_⟩
  intro run found other
  have version := List.mem_singleton.mp (List.mem_reverse.mp (List.mem_of_find?_eq_some found))
  exact absurd (version ▸ rfl) other

/-- The dropped table is still accepted. -/
theorem dropped_table_known :
    ∃ final, run step freshConnection [ordersRun, newModelRun] = some final ∧
      ¬Follows ordersIndexer.names customersSnapshot
        (loadCatalog ordersIndexer.names final.stored "shop")
        (readFullSchema final.stored "shop" alphabetical) := by
  obtain ⟨final, reached⟩ := Option.isSome_iff_exists.mp
    (show (run step freshConnection [ordersRun, newModelRun]).isSome = true by decide +kernel)
  refine ⟨final, reached, ?_⟩
  intro follows
  have known : ((run step freshConnection [ordersRun, newModelRun]).map fun final =>
      (loadCatalog ordersIndexer.names final.stored "shop").hasTable ordersIndexer.names
        "orders") = some true := by decide +kernel
  rw [reached] at known
  obtain ⟨element, listed, same⟩ := (follows.tables "orders").mp (Option.some.inj known)
  revert element
  decide +kernel

end Readers
