import TextToSqlAgent.Validation.Scopes
import TextToSqlAgent.Validation.Validator

/-!
# Statements the identifier check turns down

SQL looks a name up from where it stands; the check gathers the names of a whole
statement. The two are compared on the statements whose names all resolve.
-/

namespace Rejections

open Syntax Catalog Validator Scopes

/-- What the database makes of a statement beyond its tree: which `WITH` is
recursive, and what the columns of a projection are called in the result. -/
structure Reading where
  recursive : Node → Bool
  outputs : Node → List String

variable (p : Platform) (catalog : SchemaCatalog) (reading : Reading)

def seen (statement : Node) : List (Place × Node) :=
  places (rulesOf p.toNames reading.recursive) start statement

/-! ## What resolves -/

/-- The columns of the table with a folded name. -/
def columnsUnder (table : String) : List String :=
  match catalog.columnsByTable.find? fun entry => entry.1 == table with
  | some entry => entry.2
  | none => []

/-- Whether an item has a column. Nothing is asked of a query's own columns. -/
def offers (column : String) : Target → Bool
  | .base table => (columnsUnder catalog table).contains column
  | .derived => true

/-- The names of result columns, of every `SELECT` of the statement. -/
def outputNames (statement : Node) : List String :=
  ((statement.findAll (· = .select)).flatMap fun n =>
    (n.argList "expressions").flatMap reading.outputs).map p.casefold

/-- A name without a schema may be of a common table expression. -/
def TableResolves (place : Place) (table : Node) : Prop :=
  table.name = "" ∨ (p.casefold table.name ∈ place.ctes ∧ (table.arg? "db").isNone = true) ∨
    catalog.hasTable p.toNames table.name = true

/-- A column is of the item its qualifier stands for, or of any item that is
seen; a bare name may also be of a whole item, or of a result's column. -/
def ColumnResolves (statement : Node) (place : Place) (column : Node) : Prop :=
  column.name = "" ∨ column.name = "*" ∨
    if column.text "table" = "" then
      (∃ scope ∈ place.inner, ∃ source ∈ scope, source.name = p.casefold column.name ∨
        offers catalog (p.casefold column.name) source.target = true) ∨
      p.casefold column.name ∈ outputNames p reading statement
    else (resolve place.inner (p.casefold (column.text "table"))).any
      (offers catalog (p.casefold column.name)) = true

/-- Every name of the statement resolves where it stands. -/
structure WellScoped (statement : Node) : Prop where
  tables : ∀ found ∈ seen p reading statement, found.2.kind = .table →
    TableResolves p catalog found.1 found.2
  columns : ∀ found ∈ seen p reading statement, found.2.kind = .column →
    ColumnResolves p catalog reading statement found.1 found.2

/-! ## What the check mistakes -/

/-- Whether the check takes a name as one the statement defines. -/
def IsLocal (statement : Node) (name : String) : Prop :=
  p.casefold name ∈ localNames p statement

/-- The tables that bare names are looked up in. -/
def realTables (statement : Node) : List String :=
  (referencedTables statement).filter fun t => !(localNames p statement).contains (p.casefold t)

/-- Whether the catalog has the table, and the table not the column. -/
def Lacks (table name : String) : Prop :=
  catalog.hasTable p.toNames table = true ∧ catalog.hasColumn p.toNames table name = false

/-- The first table of the statement with the alias. -/
def firstAliased (statement : Node) (qualifier : String) : Option Node :=
  (statement.findAll (· = .table)).find? fun t =>
    t.aliasName ≠ "" && p.casefold t.aliasName == p.casefold qualifier

/-- Whether the qualifier is taken for another table: the first with the alias,
or where none has it the table that a query's name is also of. -/
def Mistaken (first : Option Node) (resolved : Option Target) (qualifier name : String) : Prop :=
  match first with
  | some t => resolved ≠ some (.base (p.casefold t.name)) ∧ Lacks p catalog t.name name
  | none => resolved = some .derived ∧ Lacks p catalog qualifier name

/-- Whether the columns of an item are left out of what a bare name may be. -/
def passedOver (statement : Node) (name : String) (source : Source) : Bool :=
  source.name == name ||
    match source.target with
    | .base table => (localNames p statement).contains table && offers catalog name source.target
    | .derived => true

/-- Whether a bare name is only of items that the check passes over. -/
structure Unlisted (statement : Node) (place : Place) (name : String) : Prop where
  absent : ∀ table ∈ referencedTables statement, IsLocal p statement table ∨
    catalog.hasColumn p.toNames table name = false
  elsewhere : p.casefold name ∈ outputNames p reading statement ∨ ∃ scope ∈ place.inner,
    ∃ source ∈ scope, passedOver p catalog statement (p.casefold name) source = true

/-- Whether the names of other parts of the statement get in a column's way. -/
def Clash (statement : Node) (place : Place) (column : Node) : Prop :=
  column.name ≠ "" ∧ column.name ≠ "*" ∧
    if column.text "table" = "" then
      ¬IsLocal p statement column.name ∧ Unlisted p catalog reading statement place column.name
    else
      ¬IsLocal p statement (column.text "table") ∧
        Mistaken p catalog (firstAliased p statement (column.text "table"))
          (resolve place.inner (p.casefold (column.text "table"))) (column.text "table") column.name

variable {p catalog reading}

theorem isLocal_of_cte {statement : Node} {name : String}
    (cte : IsCteOf (rulesOf p.toNames reading.recursive) statement (p.casefold name)) :
    IsLocal p statement name := by
  obtain ⟨cte, occurs, kind, named, same⟩ := cte
  refine List.mem_map.mpr ⟨cte.aliasName, List.mem_filter.mpr ⟨?_, decide_eq_true named⟩, same⟩
  refine List.mem_append_left _ (List.mem_append_left _ (List.mem_flatMap.mpr ⟨cte, ?_, ?_⟩))
  · exact List.mem_filter.mpr ⟨Node.mem_walk.mpr occurs, decide_eq_true kind⟩
  · exact List.mem_append_left _ (List.mem_singleton.mpr rfl)

theorem mem_referencedTables {statement : Node} {name : String} :
    name ∈ referencedTables statement ↔
      ∃ t : Node, t.Occurs statement ∧ t.kind = .table ∧ t.name ≠ "" ∧ t.name = name := by
  rw [referencedTables, List.mem_eraseDups, List.mem_filter, List.mem_map]
  constructor
  · rintro ⟨⟨t, listed, rfl⟩, named⟩
    obtain ⟨walked, kind⟩ := List.mem_filter.mp listed
    exact ⟨t, Node.mem_walk.mp walked, of_decide_eq_true kind, of_decide_eq_true named, rfl⟩
  · rintro ⟨t, occurs, kind, named, rfl⟩
    exact ⟨⟨t, List.mem_filter.mpr ⟨Node.mem_walk.mpr occurs, decide_eq_true kind⟩, rfl⟩,
      decide_eq_true named⟩

theorem exists_seen_iff (reading : Reading) {statement n : Node} :
    (∃ place, (place, n) ∈ seen p reading statement) ↔ n.Occurs statement :=
  ⟨fun ⟨_, there⟩ => occurs_of_mem_places there, fun occurs => exists_place_of_occurs _ occurs _⟩

/-- No table of a well-scoped statement is refused. -/
theorem tableFailure_eq_none {sql : String} {statement : Node}
    (wellScoped : WellScoped p catalog reading statement) {name : String}
    (listed : name ∈ referencedTables statement) :
    tableFailure p catalog sql statement name = none := by
  obtain ⟨t, occurs, kind, named, rfl⟩ := mem_referencedTables.mp listed
  obtain ⟨place, there⟩ := (exists_seen_iff reading).mpr occurs
  rw [tableFailure, if_pos]
  rcases wellScoped.tables _ there kind with nameless | ⟨cte, -⟩ | known
  · exact absurd nameless named
  · rcases isCteOf_of_mem_ctes there cte with outside | inside
    · exact absurd outside List.not_mem_nil
    · rw [List.contains_iff_mem.mpr (isLocal_of_cte inside), Bool.true_or]
  · rw [known, Bool.or_true]

theorem aliasName_eq_itemAlias {t : Node} (aliased : itemAlias t ≠ "") :
    t.aliasName = itemAlias t := by
  cases given : t.arg? "alias" with
  | none => simp [itemAlias, given] at aliased
  | some a =>
    by_cases tableAlias : a.kind = .tableAlias
    · simp [itemAlias, Node.aliasName, given, tableAlias]
    · simp [itemAlias, given, tableAlias] at aliased

/-- A qualifier that is no table's alias, and stands for a table, is its name. -/
theorem eq_casefold_of_resolve {statement : Node} {found : Place × Node}
    (there : found ∈ seen p reading statement) {qualifier table : String}
    (unaliased : firstAliased p statement qualifier = none)
    (resolved : resolve found.1.inner (p.casefold qualifier) = some (.base table)) :
    table = p.casefold qualifier := by
  obtain ⟨scope, listed, source, member, called, target⟩ := exists_source_of_resolve resolved
  obtain ⟨t, occurs, item⟩ := exists_item_of_mem_scopes there listed member (by simp [target])
  have named := item.name
  by_cases noAlias : itemAlias t = ""
  · rw [if_pos noAlias] at named
    have same := Target.base.inj (target.symm.trans item.target)
    exact same.trans (named.symm.trans called)
  · rw [if_neg noAlias, ← aliasName_eq_itemAlias noAlias] at named
    have among : t ∈ statement.findAll (· = .table) :=
      List.mem_filter.mpr ⟨Node.mem_walk.mpr occurs, decide_eq_true item.kind⟩
    have other := List.find?_eq_none.mp unaliased t among
    rw [← aliasName_eq_itemAlias noAlias] at noAlias
    refine absurd ?_ other
    rw [Bool.and_eq_true, beq_iff_eq]
    exact ⟨decide_eq_true noAlias, named.symm.trans called⟩

/-- What the check asks of a qualified column. -/
theorem qualified_iff {statement : Node} {found : Place × Node} {qualifier name : String}
    (there : found ∈ seen p reading statement)
    (resolves : (resolve found.1.inner (p.casefold qualifier)).any
      (offers catalog (p.casefold name)) = true) :
    Lacks p catalog (resolveAlias p statement qualifier) name ↔
      Mistaken p catalog (firstAliased p statement qualifier)
        (resolve found.1.inner (p.casefold qualifier)) qualifier name := by
  have target : resolveAlias p statement qualifier =
      match firstAliased p statement qualifier with
      | some t => t.name
      | none => qualifier := rfl
  rw [target]
  cases first : firstAliased p statement qualifier with
  | some t =>
    refine ⟨fun lacks => ⟨fun resolved => ?_, lacks⟩, And.right⟩
    rw [resolved] at resolves
    exact Bool.false_ne_true (lacks.2.symm.trans resolves)
  | none =>
    refine ⟨fun lacks => ⟨?_, lacks⟩, And.right⟩
    cases resolved : resolve found.1.inner (p.casefold qualifier) with
    | none =>
      rw [resolved] at resolves
      exact absurd resolves Bool.false_ne_true
    | some item =>
      cases item with
      | derived => rfl
      | base table =>
        obtain rfl := eq_casefold_of_resolve there first resolved
        rw [resolved] at resolves
        exact absurd (lacks.2.symm.trans resolves) Bool.false_ne_true

/-- What the check asks of a bare one. -/
theorem bare_iff {statement : Node} {found : Place × Node} {name : String}
    (there : found ∈ seen p reading statement)
    (resolves : (∃ scope ∈ found.1.inner, ∃ source ∈ scope, source.name = p.casefold name ∨
        offers catalog (p.casefold name) source.target = true) ∨
      p.casefold name ∈ outputNames p reading statement) :
    p.casefold name ∉ catalog.columnsOf p.toNames (realTables p statement) ↔
      Unlisted p catalog reading statement found.1 name := by
  have absent_iff : p.casefold name ∉ catalog.columnsOf p.toNames (realTables p statement) ↔
      ∀ table ∈ referencedTables statement, IsLocal p statement table ∨
        catalog.hasColumn p.toNames table name = false := by
    simp only [SchemaCatalog.columnsOf, SchemaCatalog.hasColumn, realTables, IsLocal,
      List.mem_flatMap, List.mem_filter, Bool.not_eq_true', List.contains_eq_mem,
      decide_eq_false_iff_not]
    grind
  rw [absent_iff]
  refine ⟨fun absent => ⟨absent, ?_⟩, fun unlisted => unlisted.absent⟩
  rcases resolves with ⟨scope, listed, source, member, found_⟩ | output
  · refine Or.inr ⟨scope, listed, source, member, ?_⟩
    rw [passedOver, Bool.or_eq_true, beq_iff_eq]
    refine found_.imp id fun offered => ?_
    cases target : source.target with
    | derived => rfl
    | base table =>
      obtain ⟨t, occurs, item⟩ :=
        exists_item_of_mem_scopes there listed member (by simp [target])
      obtain rfl := Target.base.inj (target.symm.trans item.target)
      rw [target] at offered
      have local_ : IsLocal p statement t.name := by
        rcases absent t.name (mem_referencedTables.mpr ⟨t, occurs, item.kind, item.named, rfl⟩) with
          local_ | without
        · exact local_
        · exact absurd (without.symm.trans offered) Bool.false_ne_true
      exact Bool.and_eq_true _ _ ▸ ⟨List.contains_iff_mem.mpr local_, offered⟩
  · exact Or.inl output

theorem columnFailure_eq_none_iff {sql : String} {statement : Node} {found : Place × Node}
    (there : found ∈ seen p reading statement)
    (resolves : ColumnResolves p catalog reading statement found.1 found.2) :
    columnFailure p catalog sql statement (realTables p statement) found.2 = none ↔
      ¬Clash p catalog reading statement found.1 found.2 := by
  rw [columnFailure, Clash]
  dsimp only
  by_cases skipped : found.2.name = "" ∨ found.2.name = "*"
  · rw [if_pos skipped]
    grind
  rw [if_neg skipped]
  obtain ⟨named, notStar⟩ := not_or.mp skipped
  have resolves := (resolves.resolve_left named).resolve_left notStar
  by_cases bare : found.2.text "table" = ""
  · rw [if_pos bare] at resolves ⊢
    rw [if_neg (not_not_intro bare), ← bare_iff there resolves]
    simp only [List.contains_eq_mem, List.mem_append, decide_eq_true_eq, IsLocal]
    grind
  · rw [if_neg bare] at resolves ⊢
    rw [if_pos bare, ← qualified_iff there resolves]
    simp only [List.contains_eq_mem, IsLocal, Lacks]
    grind

instance (table name : String) : Decidable (Lacks p catalog table name) :=
  inferInstanceAs (Decidable (_ ∧ _))

instance (first : Option Node) (resolved : Option Target) (qualifier name : String) :
    Decidable (Mistaken p catalog first resolved qualifier name) :=
  match first with
  | some _ => inferInstanceAs (Decidable (_ ∧ _))
  | none => inferInstanceAs (Decidable (_ ∧ _))

instance (statement : Node) (name : String) : Decidable (IsLocal p statement name) :=
  inferInstanceAs (Decidable (_ ∈ _))

instance (statement : Node) (place : Place) (name : String) :
    Decidable (Unlisted p catalog reading statement place name) :=
  decidable_of_iff (_ ∧ _) ⟨fun both => ⟨both.1, both.2⟩, fun both => ⟨both.absent, both.elsewhere⟩⟩

instance (statement : Node) (place : Place) (column : Node) :
    Decidable (Clash p catalog reading statement place column) :=
  inferInstanceAs (Decidable (_ ∧ _ ∧ @ite Prop _ _ _ _))

instance (place : Place) (table : Node) : Decidable (TableResolves p catalog place table) :=
  inferInstanceAs (Decidable (_ ∨ _ ∨ _))

instance (statement : Node) (place : Place) (column : Node) :
    Decidable (ColumnResolves p catalog reading statement place column) :=
  inferInstanceAs (Decidable (_ ∨ _ ∨ @ite Prop _ _ _ _))

instance (statement : Node) : Decidable (WellScoped p catalog reading statement) :=
  decidable_of_iff (_ ∧ _) ⟨fun both => ⟨both.1, both.2⟩, fun both => ⟨both.tables, both.columns⟩⟩

private def ident (name : String) : Node := .mk (.identifier name) []

private def bare (name : String) : Node := .mk .column [("this", ident name)]

private def qualified (qualifier name : String) : Node :=
  .mk .column [("this", ident name), ("table", ident qualifier)]

private def fromItem (item : Node) : Node := .mk (.other "from" "") [("this", item)]

private def aliased (item name : String) : Node :=
  .mk .table [("this", ident item), ("alias", .mk .tableAlias [("this", ident name)])]

private def called (name column : String) : Node :=
  .mk .tableAlias [("this", ident name), ("columns", ident column)]

private def idsOfCustomers : Node :=
  .mk .select [("expressions", bare "id"),
    ("from", fromItem (.mk .table [("this", ident "customers")]))]

/-- `SELECT x.id FROM customers x WHERE x.id IN (SELECT …customer_id FROM orders …)`,
the inner names under the alias. -/
private def buyers (alias_ : String) : Node :=
  .mk .select [("expressions", qualified "x" "id"), ("from", fromItem (aliased "customers" "x")),
    ("where", .mk (.other "where" "") [("this", .mk (.other "in" "")
      [("this", qualified "x" "id"), ("query", .mk .subquery [("this",
        .mk .select [("expressions", qualified alias_ "customer_id"),
          ("from", fromItem (aliased "orders" alias_))])])])])]

/-- `WITH c(n) AS (SELECT id FROM customers) SELECT n FROM c`. -/
private def listedCte : Node :=
  .mk .select [("expressions", bare "n"),
    ("from", fromItem (.mk .table [("this", ident "c")])),
    ("with", .mk (.other "with" "") [("expressions",
      .mk .cte [("this", idsOfCustomers), ("alias", called "c" "n")])])]

/-- `SELECT n FROM (SELECT id FROM customers) AS d(n)`. -/
private def listedQuery : Node :=
  .mk .select [("expressions", bare "n"), ("from", fromItem (.mk .subquery
    [("this", idsOfCustomers), ("alias", called "d" "n")]))]

private def shop : SchemaCatalog where
  columnsByTable := [("customers", ["id", "name"]), ("orders", ["customer_id", "total"])]

private def reader : Platform where
  casefold s := String.ofList (s.toList.map Char.toLower)
  closeMatch _ _ := none
  parse _ := .error "Invalid expression"
  sql _ := ""
  str _ := ""
  float _ := none

private def plainly : Reading where
  recursive _ := false
  outputs n := [n.aliasOrName]

private def buyersSql (alias_ : String) : String :=
  "SELECT x.id FROM customers x WHERE x.id IN (SELECT " ++ alias_ ++ ".customer_id FROM orders " ++
    alias_ ++ ")"

/-- Whether a query of the shop whose names resolve is said to have an unknown one. -/
private def Rejected (sql : String) (query : Node) : Prop :=
  WellScoped reader shop plainly query ∧ checkReadOnly sql query = none ∧
    (checkIdentifiers reader shop sql query (referencedTables query)).bind
      ValidationResult.errorType = some "unknown_identifier"

private instance (sql : String) (query : Node) : Decidable (Rejected sql query) :=
  inferInstanceAs (Decidable (_ ∧ _ ∧ _))

end Rejections
