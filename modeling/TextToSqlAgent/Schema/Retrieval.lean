import Mathlib.Data.Prod.Lex
import Mathlib.Data.String.Basic
import TextToSqlAgent.Schema.Readers

/-!
# Retrieval over the schema catalog

`SchemaRetriever.search`: a question in, ranked elements out. What the server's index
scan finds among the selected rows, and in which order, is its own affair. Only rows of
the retriever's dataset and model version are selected; the order is made afterwards.
-/

namespace Retrieval

open Python Exceptions Schema Indexer Readers Refresh Runs Fallible

def maxK : Int := 50
def maxTableFilter : Nat := 50
def maxEfSearch : Int := 1000

/-- `_clamp`. -/
def clamp (value low high : Int) : Int := max low (min value high)

def valueError (message : String) : Raised := .unexpected s!"ValueError: {message}"

def retrievalError (message : String) : Raised := .domain ⟨.retrievalError, message, none, none⟩

/-- What the server answers: whether `hnsw.iterative_scan` is known to it, how near two
vectors are, what its scan of the selected rows finds with a breadth and a limit, and how
it compares texts. No vector of the catalog is zero, so that a nearness is a number. -/
structure Catalog (V T : Type) where
  iterativeScan : Bool
  similarity : V → V → Rat
  scan : Int → Bool → V → List (ElementRow V T) → Nat → Except Raised (List (ElementRow V T))
  collation : String → String → Bool

/-- `repr` of a text, and whether a vector has no component but zeros. -/
structure SchemaRetriever (V : Type) where
  embedder : Embedder V
  isZero : V → Bool
  repr : String → String
  dataset : String
  defaultK : Int
  efSearch : Int

/-- The constructor. -/
def schemaRetriever {V : Type} (embedder : Embedder V) (isZero : V → Bool)
    (repr : String → String) (dataset : String) (defaultK efSearch : Int) : SchemaRetriever V :=
  ⟨embedder, isZero, repr, dataset, clamp defaultK 1 maxK, clamp efSearch 1 maxEfSearch⟩

/-- `_clean_table_filter`. -/
def cleanTableFilter (tableFilter : Option (List String)) :
    Except Raised (Option (List String)) :=
  match tableFilter with
  | none => .ok none
  | some names =>
    let cleaned := (names.map strip).eraseDups
    if cleaned = [] ∨ "" ∈ cleaned then
      .error (valueError "table_filter must contain non-empty table names, or be None")
    else if maxTableFilter < cleaned.length then
      .error (valueError s!"table_filter accepts at most {maxTableFilter} tables")
    else .ok (some cleaned)

section Search

variable {V T : Type} (catalog : Catalog V T) (store : Store V T) (r : SchemaRetriever V)

/-- `_embed_query`. -/
def embedQuery (text : String) : Except Raised V := do
  match ← r.embedder.embed [text] with
  | [vector] =>
    if r.isZero vector then
      .error (retrievalError (s!"query {r.repr text} produced a zero vector -- it is too short or "
        ++ "has no content the retriever recognises"))
    else .ok vector
  | vectors => .error (retrievalError
      s!"embedder returned {vectors.length} vectors for one query")

/-- The rows of the `WHERE` clause. -/
def selected (tables : Option (List String)) : List (ElementRow V T) :=
  store.elements.rows.filter fun row =>
    row.element.dataset = r.dataset ∧ row.modelVersion = r.embedder.modelVersion ∧
      ∀ names ∈ tables, row.element.tableName ∈ names

def hit (vector : V) (row : ElementRow V T) : RetrievedElement where
  elementType := row.element.elementType.text
  table := row.element.tableName
  column := row.element.columnName
  dataType := row.element.dataType
  comment := row.element.comment
  serialized := row.element.serialized
  score := .finite (catalog.similarity vector row.embedding)

/-- The best score first, then by table and column. -/
def place (vector : V) (row : ElementRow V T) : Rat ×ₗ (String ×ₗ String) :=
  toLex (-catalog.similarity vector row.embedding,
    toLex (row.element.tableName, row.element.columnName.getD ""))

/-- `_rank`. -/
def rank (vector : V) (rows : List (ElementRow V T)) : List RetrievedElement :=
  (Counting.sortBy (place catalog vector) rows).map (hit catalog vector)

/-- `ORDER BY` several texts. -/
def textsBefore (collation : String → String → Bool) : List String → List String → Bool
  | a :: as, b :: bs => if a = b then textsBefore collation as bs else collation a b
  | _, _ => true

def edgeTexts (row : EdgeRow) : List String :=
  [row.edge.fromTable, row.edge.fromColumn, row.edge.toTable, row.edge.toColumn]

/-- `_foreign_keys`: both ends were retrieved. -/
def foreignKeys (tables : List String) : List ForeignKey :=
  if tables = [] then []
  else
    ((store.foreignKeys.rows.filter fun row => row.dataset = r.dataset ∧
      row.edge.fromTable ∈ tables ∧ row.edge.toTable ∈ tables).mergeSort fun a b =>
        textsBefore catalog.collation (edgeTexts a) (edgeTexts b)).map EdgeRow.edge

/-- The elements and the join paths of what the scan found. -/
def resultOf (vector : V) (rows : List (ElementRow V T)) : RetrievalResult :=
  let elements := rank catalog vector rows
  ⟨elements, foreignKeys catalog store r (elements.map RetrievedElement.table).eraseDups⟩

def search (query : String) (k : Option Int) (tableFilter : Option (List String)) :
    Except Raised RetrievalResult := do
  let text := strip query
  if text = "" then throw (valueError "query must not be blank")
  let tables ← cleanTableFilter tableFilter
  let limit := clamp (k.getD r.defaultK) 1 maxK
  let vector ← embedQuery r text
  -- The breadth is at least the limit, or the scan returns fewer than asked for.
  let rows ← catalog.scan (max r.efSearch limit) catalog.iterativeScan vector
    (selected store r tables) limit.toNat
  return resultOf catalog store r vector rows

end Search

/-! ## What the scan may do -/

variable {V T : Type} {catalog : Catalog V T} {store : Store V T} {r : SchemaRetriever V}

/-- It returns selected rows, none twice and not more than asked for. -/
def Scans (catalog : Catalog V T) : Prop :=
  ∀ breadth iterative vector rows limit found,
    catalog.scan breadth iterative vector rows limit = .ok found →
      found.Subperm rows ∧ found.length ≤ limit

theorem search_ok {query : String} {k : Option Int} {tableFilter : Option (List String)}
    {result : RetrievalResult} (done : search catalog store r query k tableFilter = .ok result) :
    ∃ tables vector rows, cleanTableFilter tableFilter = .ok tables ∧
      embedQuery r (strip query) = .ok vector ∧
      catalog.scan (max r.efSearch (clamp (k.getD r.defaultK) 1 maxK)) catalog.iterativeScan vector
        (selected store r tables) (clamp (k.getD r.defaultK) 1 maxK).toNat = .ok rows ∧
      result = resultOf catalog store r vector rows := by
  rw [search] at done
  dsimp only at done
  split at done
  · cases done
  · obtain ⟨-, -, done⟩ := bind_ok_iff.mp done
    obtain ⟨tables, cleaned, done⟩ := bind_ok_iff.mp done
    obtain ⟨vector, embedded, done⟩ := bind_ok_iff.mp done
    obtain ⟨rows, scanned, done⟩ := bind_ok_iff.mp done
    exact ⟨tables, vector, rows, cleaned, embedded, scanned, (Except.ok.inj done).symm⟩

/-! ## What is returned -/

theorem cleanTableFilter_ok {tableFilter tables : Option (List String)}
    (cleaned : cleanTableFilter tableFilter = .ok tables) :
    tables = tableFilter.map fun names => (names.map strip).eraseDups := by
  unfold cleanTableFilter at cleaned
  split at cleaned
  · exact (Except.ok.inj cleaned).symm
  · dsimp only at cleaned
    split_ifs at cleaned
    exact (Except.ok.inj cleaned).symm

/-- A row of the dataset and the model version, and of one of the tables if some are
asked for. -/
def Selectable (r : SchemaRetriever V) (tableFilter : Option (List String))
    (row : ElementRow V T) : Prop :=
  row.element.dataset = r.dataset ∧ row.modelVersion = r.embedder.modelVersion ∧
    ∀ names ∈ tableFilter, row.element.tableName ∈ names.map strip

theorem mem_selected_iff {tableFilter tables : Option (List String)} {row : ElementRow V T}
    (cleaned : cleanTableFilter tableFilter = .ok tables) :
    row ∈ selected store r tables ↔
      row ∈ store.elements.rows ∧ Selectable r tableFilter row := by
  rw [cleanTableFilter_ok cleaned]
  simp [selected, Selectable]

theorem nodup_selected (store : Store V T) (r : SchemaRetriever V)
    (tables : Option (List String)) :
    ((selected store r tables).map fun row => namesOf row.element).Nodup := by
  refine (List.Nodup.of_map _ (store.elements.keys.sublist
    (List.filter_sublist.map _))).map_on fun one first two second same => ?_
  have scope {row : ElementRow V T} (listed : row ∈ selected store r tables) :
      row.element.dataset = r.dataset ∧ row.modelVersion = r.embedder.modelVersion := by
    have chosen := (List.mem_filter.mp listed).2
    simp only [decide_eq_true_eq] at chosen
    exact ⟨chosen.1, chosen.2.1⟩
  obtain ⟨table, column⟩ := Prod.mk.inj same
  refine List.inj_on_of_nodup_map store.elements.keys (List.mem_of_mem_filter first)
    (List.mem_of_mem_filter second) ?_
  rw [ElementRow.key, ElementRow.key, Element.key, Element.key, (scope first).1, (scope second).1,
    (scope first).2, (scope second).2, table, column]

theorem perm_sortBy {α κ : Type} [LinearOrder κ] (key : α → κ) (l : List α) :
    (Counting.sortBy key l).Perm l := List.perm_insertionSort _ l

theorem mem_rank_iff {vector : V} {rows : List (ElementRow V T)} {element : RetrievedElement} :
    element ∈ rank catalog vector rows ↔ ∃ row ∈ rows, hit catalog vector row = element := by
  rw [rank, List.mem_map]
  simp only [(perm_sortBy _ _).mem_iff]

theorem length_rank (vector : V) (rows : List (ElementRow V T)) :
    (rank catalog vector rows).length = rows.length := by
  rw [rank, List.length_map]
  exact (perm_sortBy _ _).length_eq

theorem mem_foreignKeys_iff {tables : List String} {fk : ForeignKey} :
    fk ∈ foreignKeys catalog store r tables ↔ ∃ row ∈ store.foreignKeys.rows,
      row.dataset = r.dataset ∧ row.edge = fk ∧ fk.fromTable ∈ tables ∧ fk.toTable ∈ tables := by
  rw [foreignKeys]
  split_ifs with none
  · subst none
    simp
  · simp only [List.mem_map, List.mem_mergeSort, List.mem_filter, decide_eq_true_eq]
    constructor
    · rintro ⟨row, ⟨listed, here, source, target⟩, rfl⟩
      exact ⟨row, listed, here, rfl, source, target⟩
    · rintro ⟨row, listed, here, rfl, source, target⟩
      exact ⟨row, ⟨listed, here, source, target⟩, rfl⟩

/-- The better score first; of one score the lesser names. -/
def Precedes (a b : RetrievedElement) : Prop :=
  ∃ p q : Rat, a.score = .finite p ∧ b.score = .finite q ∧
    (q < p ∨ q = p ∧ (a.table < b.table ∨
      a.table = b.table ∧ a.column.getD "" ≤ b.column.getD ""))

theorem pairwise_rank (vector : V) (rows : List (ElementRow V T)) :
    (rank catalog vector rows).Pairwise Precedes := by
  have sorted : (Counting.sortBy (place catalog vector) rows).Pairwise fun a b =>
      place catalog vector a ≤ place catalog vector b := by
    have : Std.Total fun a b : ElementRow V T => place catalog vector a ≤ place catalog vector b :=
      ⟨fun a b => le_total _ _⟩
    have : IsTrans (ElementRow V T) fun a b => place catalog vector a ≤ place catalog vector b :=
      ⟨fun _ _ _ => le_trans⟩
    exact List.pairwise_insertionSort _ _
  rw [rank, List.pairwise_map]
  refine sorted.imp fun {a b} before => ⟨_, _, rfl, rfl, ?_⟩
  rcases Prod.Lex.toLex_le_toLex.mp before with better | ⟨tied, rest⟩
  · exact Or.inl (neg_lt_neg_iff.mp better)
  · refine Or.inr ⟨(neg_inj.mp tied).symm, ?_⟩
    exact Prod.Lex.toLex_le_toLex.mp rest

/-- What a search returns: no more than the clamped count, each element a stored row of
the retriever's own dataset and model version and of the tables asked for, none twice, the
best first; and of the stored join paths exactly those with both ends among the elements. -/
theorem search_exact (scans : Scans catalog) {query : String} {k : Option Int}
    {tableFilter : Option (List String)} {result : RetrievalResult}
    (done : search catalog store r query k tableFilter = .ok result) :
    (result.elements.length : Int) ≤ clamp (k.getD r.defaultK) 1 maxK ∧
      (∃ vector, embedQuery r (strip query) = .ok vector ∧ ∀ element ∈ result.elements,
        ∃ row ∈ store.elements.rows, Selectable r tableFilter row ∧
          hit catalog vector row = element) ∧
      (result.elements.map fun element => (element.table, element.column)).Nodup ∧
      result.elements.Pairwise Precedes ∧
      ∀ fk, fk ∈ result.foreignKeys ↔ ∃ row ∈ store.foreignKeys.rows, row.dataset = r.dataset ∧
        row.edge = fk ∧ fk.fromTable ∈ result.elements.map RetrievedElement.table ∧
          fk.toTable ∈ result.elements.map RetrievedElement.table := by
  obtain ⟨tables, vector, rows, cleaned, embedded, scanned, rfl⟩ := search_ok done
  obtain ⟨among, few⟩ := scans _ _ _ _ _ _ scanned
  refine ⟨?_, ⟨vector, embedded, fun element listed => ?_⟩, ?_, pairwise_rank vector rows, ?_⟩
  · have positive : 1 ≤ clamp (k.getD r.defaultK) 1 maxK := le_max_left _ _
    simp only [resultOf, length_rank]
    omega
  · obtain ⟨row, found, rfl⟩ := mem_rank_iff.mp listed
    obtain ⟨stored, selectable⟩ := (mem_selected_iff cleaned).mp (among.subset found)
    exact ⟨row, stored, selectable, rfl⟩
  · have names : ((resultOf catalog store r vector rows).elements.map fun element =>
        (element.table, element.column)) =
          (Counting.sortBy (place catalog vector) rows).map fun row => namesOf row.element := by
      simp only [resultOf, rank, List.map_map]
      rfl
    rw [names, ((perm_sortBy _ _).map _).nodup_iff]
    obtain ⟨found, perm, part⟩ := among
    have distinct := (nodup_selected store r tables).sublist (part.map _)
    exact (perm.map _).nodup_iff.mp distinct
  · intro fk
    simp only [resultOf, mem_foreignKeys_iff, List.mem_eraseDups]

/-- A scan from the front, of vectors that are near only to themselves. -/
def frontCatalog : Catalog (List Nat) Nat where
  iterativeScan := true
  similarity := fun a b => if a = b then 1 else 0
  scan := fun _ _ _ rows limit => .ok (rows.take limit)
  collation := alphabetical

def shopRetriever : SchemaRetriever (List Nat) :=
  schemaRetriever ordersIndexer.embedder (fun vector => vector.all (· == 0)) id "shop" 10 40

theorem scans_frontCatalog : Scans frontCatalog := by
  intro breadth iterative vector rows limit found scanned
  obtain rfl := Except.ok.inj scanned
  exact ⟨(List.take_sublist _ _).subperm, List.length_take_le _ _⟩

def customersStore : Store (List Nat) Nat where
  elements := ⟨[⟨1, ⟨"shop", .table, "customers", none, none, none, "customers (table)"⟩, [1],
    "hashing-1", 0⟩], by decide, by decide⟩
  foreignKeys := ⟨[], by decide, by decide⟩

theorem search_exact_customers : ∃ result,
    search frontCatalog customersStore shopRetriever " who bought? " (some 900) none = .ok result ∧
      result.elements.length ≤ 50 ∧ result.foreignKeys = [] := by
  obtain ⟨result, done⟩ : ∃ result, search frontCatalog customersStore shopRetriever
      " who bought? " (some 900) none = .ok result := ⟨_, rfl⟩
  obtain ⟨few, -, -, -, edges⟩ := search_exact scans_frontCatalog done
  have ceiling : clamp ((some 900).getD shopRetriever.defaultK) 1 maxK = 50 := by decide
  rw [ceiling] at few
  refine ⟨result, done, by exact_mod_cast few, List.eq_nil_iff_forall_not_mem.mpr ?_⟩
  intro fk listed
  obtain ⟨row, stored, -⟩ := (edges fk).mp listed
  cases stored

/-- The same rows in some order, or the same failure. -/
inductive SameRows : Except Raised (List (ElementRow V T)) →
    Except Raised (List (ElementRow V T)) → Prop
  | ok {rows others : List (ElementRow V T)} (perm : rows.Perm others) :
    SameRows (.ok rows) (.ok others)
  | error (exc : Raised) : SameRows (.error exc) (.error exc)

theorem resultOf_perm {vector : V} {rows others : List (ElementRow V T)} (perm : rows.Perm others)
    {tables : Option (List String)} (among : ∀ row ∈ rows, row ∈ selected store r tables)
    (columns : ∀ row ∈ store.elements.rows, row.element.columnName ≠ some "") :
    resultOf catalog store r vector rows = resultOf catalog store r vector others := by
  have ranked : rank catalog vector rows = rank catalog vector others := by
    rw [rank, rank, Counting.sortBy_eq_of_perm _ ?_ perm]
    intro one first two second same
    have named (row : ElementRow V T) (listed : row ∈ rows) : row.element.columnName ≠ some "" :=
      columns row (List.mem_of_mem_filter (among row listed))
    obtain ⟨-, names⟩ := Prod.mk.inj (toLex_inj.mp same)
    obtain ⟨table, column⟩ := Prod.mk.inj (toLex_inj.mp names)
    have sameColumn : one.element.columnName = two.element.columnName := by
      have oneNamed := named one first
      have twoNamed := named two second
      revert column oneNamed twoNamed
      cases one.element.columnName <;> cases two.element.columnName <;> simp_all
    refine List.inj_on_of_nodup_map (nodup_selected store r tables) (among one first)
      (among two second) ?_
    rw [namesOf, namesOf, table, sameColumn]
  rw [resultOf, resultOf, ranked]

/-- Whatever order the scan happens to produce, the result is the same, to the last tie:
no two elements of a retriever's rows have one table and one column. -/
theorem search_order_free (scans : Scans catalog)
    (other : Int → Bool → V → List (ElementRow V T) → Nat → Except Raised (List (ElementRow V T)))
    (sameRows : ∀ breadth iterative vector rows limit,
      SameRows (catalog.scan breadth iterative vector rows limit)
        (other breadth iterative vector rows limit))
    (columns : ∀ row ∈ store.elements.rows, row.element.columnName ≠ some "")
    (query : String) (k : Option Int) (tableFilter : Option (List String)) :
    search catalog store r query k tableFilter =
      search { catalog with scan := other } store r query k tableFilter := by
  rw [search, search]
  dsimp only
  split
  · rfl
  · cases cleanTableFilter tableFilter with
    | error exc => rfl
    | ok tables =>
      cases embedQuery r (strip query) with
      | error exc => rfl
      | ok vector =>
        have same := sameRows (max r.efSearch (clamp (k.getD r.defaultK) 1 maxK))
          catalog.iterativeScan vector (selected store r tables)
          (clamp (k.getD r.defaultK) 1 maxK).toNat
        have spec := scans (max r.efSearch (clamp (k.getD r.defaultK) 1 maxK))
          catalog.iterativeScan vector (selected store r tables)
          (clamp (k.getD r.defaultK) 1 maxK).toNat
        change (catalog.scan _ _ _ _ _ >>= fun rows => .ok (resultOf catalog store r vector rows)) =
          (other _ _ _ _ _ >>= fun rows => .ok (resultOf catalog store r vector rows))
        generalize catalog.scan _ _ _ _ _ = one at same spec ⊢
        generalize other _ _ _ _ _ = two at same ⊢
        cases same with
        | error exc => rfl
        | ok perm =>
          have among := (spec _ rfl).1.subset
          exact congrArg Except.ok (resultOf_perm perm (fun row listed => among listed) columns)

theorem search_order_free_customers :
    search frontCatalog customersStore shopRetriever "who bought?" none none =
      search { frontCatalog with
        scan := fun _ _ _ rows limit => .ok (rows.take limit).reverse }
        customersStore shopRetriever "who bought?" none none := by
  refine search_order_free scans_frontCatalog _ ?_ (by decide) _ _ _
  exact fun _ _ _ rows limit => .ok (List.reverse_perm _).symm

/-! ## Over runs of the indexer -/

section histories

variable {dataset : String} {earlier : List (IndexRun V T dataset)} {last : IndexRun V T dataset}
  {start final : Connection V T}

theorem edges_of_step {conn next : Connection V T} (taken : step conn last = some next)
    {row : EdgeRow} (listed : row ∈ next.stored.foreignKeys.rows) (here : row.dataset = dataset) :
    row.edge ∈ last.snapshot.foreignKeys := by
  rw [Readers.step] at taken
  split at taken
  · rename_i report reached done
    cases taken
    obtain ⟨vectors, -, replaced⟩ := index_spec last.nonempty done
    have ours : row ∈ next.stored.foreignKeys.rows.filter fun row =>
        row.dataset = last.indexer.dataset :=
      List.mem_filter.mpr ⟨listed, decide_eq_true (here.trans last.ofDataset.symm)⟩
    have edge := List.mem_map_of_mem (f := EdgeRow.edge) ours
    rw [replaced.edges] at edge
    exact List.mem_of_find?_eq_some (mem_distinctEdges_iff.mp edge)
  · cases taken

end histories

end Retrieval
