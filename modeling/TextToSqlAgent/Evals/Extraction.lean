import Mathlib.Data.Finset.Union
import Mathlib.Data.List.Induction
import TextToSqlAgent.Evals.Recall
import TextToSqlAgent.Library.Dictionary
import TextToSqlAgent.Validation.Scopes
import TextToSqlAgent.Validation.Validator

/-!
# The schema elements of a reference query

Every column is looked up among the tables of its own `SELECT`, with one map of
aliases for each. What such a lookup gives is compared with what SQL's own gives.
-/

namespace Extraction

open Syntax Catalog Validator Recall Scopes

variable (p : Platform)

/-! ## One `SELECT` -/

/-- The nodes below a `SELECT`, each with whether there is another between. -/
def below : Walk.Tree (Bool × Node) where
  children found := found.2.children.map fun c => (found.1 || found.2.kind = .select, c)
  size found := found.2.size
  smaller found := by
    rw [List.map_map]
    exact Node.tree.smaller found.2

/-- `scope.find_all`, less what belongs to an inner scope. -/
def inScope (scope : Node) (isKind : Kind → Bool) : List Node :=
  ((Walk.bfs below scope.size (scope.children.map fun c => (false, c))).filter fun found =>
    !found.1 && isKind found.2.kind).map Prod.snd

/-- Every alias visible in one `SELECT`, with the table it names. -/
def aliasesInScope (scope : Node) (cteNames : List String) : Dictionary String String :=
  (inScope scope (· = .table)).foldl (fun aliases table =>
    let name := p.casefold table.name
    if name = "" ∨ name ∈ cteNames then aliases
    else
      let aliases := aliases.set name name
      if table.aliasName = "" then aliases
      else aliases.set (p.casefold table.aliasName) name) .empty

/-- What becomes of one column reference. -/
inductive Attribution
  | column (table name : String)
  | ofQuery
  | unresolved (name : String)
  deriving DecidableEq, Repr

def qualifierOf (column : Node) : String := p.casefold (column.text "table")

def attributeColumn (aliases : Dictionary String String) (cteNames : List String) (column : Node) :
    Attribution :=
  let name := p.casefold column.name
  let qualifier := qualifierOf p column
  if qualifier ≠ "" then
    let table := (aliases.get? qualifier).getD qualifier
    if table ∈ cteNames then .ofQuery else .column table name
  else
    match (aliases.entries.map Prod.snd).dedup with
    | [table] => .column table name
    | _ => .unresolved name

/-! ## A statement -/

def selectScopes (statement : Node) : List Node := statement.findAll (· = .select)

/-- The names of the statement's common table expressions. -/
def statementCtes (statement : Node) : List String :=
  (((statement.findAll (· = .cte)).map Node.aliasOrName).filter (· ≠ "")).map p.casefold

/-- What becomes of every column reference, scope by scope. -/
def attributions (statement : Node) : List Attribution :=
  (selectScopes statement).flatMap fun scope =>
    (inScope scope (· = .column)).map
      (attributeColumn p (aliasesInScope p scope (statementCtes p statement))
        (statementCtes p statement))

def goldOf (statement : Node) : GoldElements where
  tables := ((selectScopes statement).flatMap fun scope =>
    (aliasesInScope p scope (statementCtes p statement)).entries.map Prod.snd).toFinset
  columns := ((attributions p statement).filterMap fun
    | .column table name => some (table, name)
    | _ => none).toFinset
  unresolved := ((attributions p statement).filterMap fun
    | .unresolved name => some name
    | _ => none).toFinset

/-- Every table and column the reference query names. -/
def extractGoldElements (goldSql : String) : GoldElements :=
  match parseOne p goldSql with
  | some (.expression statement) => goldOf p statement
  | _ => { parseFailed := true }

variable {p}

/-! ## What is in a scope -/

theorem own_of_occurs_below {m : Node} {found : Bool × Node}
    (occurs : Walk.Occurs below (false, m) found) :
    found.1 = false ∧ (found.2 = m ∨ found.2.kind ≠ .select ∧ Own found.2 m) := by
  induction occurs with
  | here => exact ⟨rfl, Or.inl rfl⟩
  | under child _ ih =>
    obtain ⟨own, listed, rfl⟩ := List.mem_map.mp child
    obtain ⟨free, where_⟩ := ih
    simp only [Bool.or_eq_false_iff, decide_eq_false_iff_not] at free
    refine ⟨free.1, Or.inr ⟨free.2, ?_⟩⟩
    rcases where_ with same | ⟨other, inside⟩
    · exact .child (same ▸ listed)
    · exact .under listed other inside

theorem occurs_below_of_own {n m : Node} (own : Own n m) (other : n.kind ≠ .select) :
    Walk.Occurs below (false, m) (false, n) := by
  induction own with
  | child listed =>
    refine .under (List.mem_map.mpr ⟨_, listed, ?_⟩) .here
    simp [other]
  | under listed next _ ih =>
    refine .under (List.mem_map.mpr ⟨_, listed, ?_⟩) (ih next)
    simp [other]

theorem mem_inScope_iff {scope m : Node} {isKind : Kind → Bool} :
    m ∈ inScope scope isKind ↔ Own scope m ∧ isKind m.kind = true := by
  have enough : ((scope.children.map fun c => (false, c)).map below.size).sum ≤ scope.size := by
    rw [List.map_map]
    exact (Node.tree.smaller scope).le
  rw [inScope, List.mem_map]
  constructor
  · rintro ⟨⟨passed, n⟩, listed, rfl⟩
    obtain ⟨walked, free⟩ := List.mem_filter.mp listed
    simp only [Bool.and_eq_true, Bool.not_eq_true'] at free
    obtain ⟨rfl, kind⟩ := free
    obtain ⟨root, first, occurs⟩ := (Walk.mem_bfs below _ _ enough _).mp walked
    obtain ⟨c, child, rfl⟩ := List.mem_map.mp first
    refine ⟨?_, kind⟩
    rcases (own_of_occurs_below occurs).2 with same | ⟨other, own⟩
    · exact .child (same ▸ child)
    · exact .under child other own
  · rintro ⟨own, kind⟩
    refine ⟨(false, m), List.mem_filter.mpr ⟨?_, by simpa using kind⟩, rfl⟩
    refine (Walk.mem_bfs below _ _ enough _).mpr ?_
    rcases own with child | ⟨child, other, own⟩
    · exact ⟨(false, m), List.mem_map_of_mem child, .here⟩
    · exact ⟨_, List.mem_map_of_mem child, occurs_below_of_own own other⟩

/-! ## What an alias gives -/

variable (p) in
/-- Whether the alias map takes the table up. -/
def isCounted (cteNames : List String) (table : Node) : Bool :=
  p.casefold table.name ≠ "" && !cteNames.contains (p.casefold table.name)

variable (p) in
/-- Whether the name is the table's own or its alias. -/
def bears (name : String) (table : Node) : Bool :=
  p.casefold table.name = name || (table.aliasName ≠ "" && p.casefold table.aliasName = name)

variable (p) in
/-- The table of a `SELECT` that bears a name, the last of them where there are more. -/
def bearer (scope : Node) (cteNames : List String) (name : String) : Option String :=
  ((inScope scope (· = .table)).filter fun table =>
    isCounted p cteNames table && bears p name table).getLast?.map fun table =>
      p.casefold table.name

theorem get?_aliasesInScope (scope : Node) (cteNames : List String) (name : String) :
    (aliasesInScope p scope cteNames).get? name = bearer p scope cteNames name := by
  rw [aliasesInScope, bearer]
  induction inScope scope (· = .table) using List.reverseRecOn with
  | nil => rfl
  | append_singleton tables table ih =>
    rw [List.foldl_append, List.filter_append, List.foldl_cons, List.foldl_nil]
    by_cases counted : isCounted p cteNames table = true
    · have present : ¬(p.casefold table.name = "" ∨ p.casefold table.name ∈ cteNames) := by
        simpa [isCounted] using counted
      simp only [if_neg present]
      by_cases borne : bears p name table = true
      · have last : [table].filter (fun table =>
            isCounted p cteNames table && bears p name table) = [table] := by
          simp [counted, borne]
        rw [last, List.getLast?_append_of_ne_nil _ (by simp), List.getLast?_singleton]
        simp only [bears, Bool.or_eq_true, Bool.and_eq_true, decide_eq_true_eq] at borne
        split_ifs with noAlias
        · rcases borne with own | ⟨alias_, -⟩
          · rw [own, Dictionary.get?_set_self]
            exact congrArg some own.symm
          · exact absurd noAlias alias_
        · rcases borne with own | ⟨-, alias_⟩
          · rw [own, Dictionary.get?_set, Dictionary.get?_set_self, ite_self]
            exact congrArg some own.symm
          · rw [alias_, Dictionary.get?_set_self]
            rfl
      · have none_ : [table].filter (fun table =>
            isCounted p cteNames table && bears p name table) = [] := by
          simp [counted, borne]
        rw [none_, List.append_nil, ← ih]
        simp only [bears, Bool.or_eq_true, Bool.and_eq_true, decide_eq_true_eq, not_or,
          not_and] at borne
        have own : name ≠ p.casefold table.name := fun same => borne.1 same.symm
        split_ifs with noAlias
        · rw [Dictionary.get?_set_ne _ own]
        · have alias_ : name ≠ p.casefold table.aliasName := fun same =>
            borne.2 noAlias same.symm
          rw [Dictionary.get?_set_ne _ alias_, Dictionary.get?_set_ne _ own]
    · have absent : p.casefold table.name = "" ∨ p.casefold table.name ∈ cteNames := by
        simp only [isCounted, ne_eq, Bool.and_eq_true, decide_eq_true_eq,
          Bool.not_eq_true', List.contains_eq_mem, decide_eq_false_iff_not, not_and, not_not]
          at counted
        exact or_iff_not_imp_left.mpr counted
      have none_ : [table].filter (fun table =>
          isCounted p cteNames table && bears p name table) = [] := by
        simp [counted]
      simp only [if_pos absent, none_, List.append_nil]
      exact ih

theorem not_mem_of_bearer {scope : Node} {cteNames : List String} {name table : String}
    (borne : bearer p scope cteNames name = some table) : table ∉ cteNames := by
  obtain ⟨last, found, rfl⟩ := Option.map_eq_some_iff.mp borne
  have counted := (List.mem_filter.mp (List.mem_of_getLast? found)).2
  simp only [isCounted, Bool.and_eq_true, Bool.not_eq_true', List.contains_eq_mem,
    decide_eq_false_iff_not] at counted
  exact counted.1.2

/-! ## SQL's own lookup -/

variable (p) (recursive : Node → Bool)

/-- A column reference in a `SELECT` of the statement, and where it stands. -/
structure IsReference (statement : Node) (place : Place) (scope column : Node) : Prop where
  there : (place, column) ∈ places (rulesOf p.toNames recursive) start statement
  kind : column.kind = .column
  inside : place.select = some scope

/-- What the code makes of a column reference in a `SELECT`. -/
def attributionIn (statement scope column : Node) : Attribution :=
  attributeColumn p (aliasesInScope p scope (statementCtes p statement))
    (statementCtes p statement) column

/-- The attribution of a column whose qualifier stands for this. -/
def IsRight (resolved : Option Target) (name : String) (attribution : Attribution) : Prop :=
  match resolved with
  | some (.base table) => attribution = .column table name
  | some .derived => attribution = .ofQuery
  | none => True

/-- The pairs are of tables in a `FROM` or a `JOIN`, and a qualified column is
attributed to the table its qualifier stands for where it is used, or to none. -/
structure Attributes (statement : Node) (gold : GoldElements) : Prop where
  tables : ∀ pair ∈ gold.columns, pair.1 ∈ baseTables (rulesOf p.toNames recursive) statement
  qualified : ∀ place scope column, IsReference p recursive statement place scope column →
    qualifierOf p column ≠ "" → IsRight (resolve place.inner (qualifierOf p column))
      (p.casefold column.name) (attributionIn p statement scope column)

/-- Where the table that bears a qualifier, or the qualifier itself, is what it
stands for. -/
def IsPlain (cteNames baseNames : List String) (resolved : Option Target)
    (borne : Option String) (qualifier : String) : Prop :=
  match resolved, borne with
  | some (.base table), some other => other = table
  | some (.base table), none => qualifier = table ∧ qualifier ∉ cteNames
  | some .derived, some _ => False
  | some .derived, none => qualifier ∈ cteNames
  | none, some other => other ∈ baseNames
  | none, none => qualifier ∈ cteNames ∨ qualifier ∈ baseNames

/-- What the lookup in one map of aliases needs of a statement. -/
structure IsClear (statement : Node) : Prop where
  qualified : ∀ place scope column, IsReference p recursive statement place scope column →
    qualifierOf p column ≠ "" →
      IsPlain (statementCtes p statement) (baseTables (rulesOf p.toNames recursive) statement)
        (resolve place.inner (qualifierOf p column))
        (bearer p scope (statementCtes p statement) (qualifierOf p column))
        (qualifierOf p column)
  unqualified : ∀ place scope column, IsReference p recursive statement place scope column →
    qualifierOf p column = "" → ∀ table,
      ((aliasesInScope p scope (statementCtes p statement)).entries.map Prod.snd).dedup = [table] →
        table ∈ baseTables (rulesOf p.toNames recursive) statement

variable {p recursive}

theorem mem_columns_iff (recursive : Node → Bool) {statement : Node} {table name : String} :
    (table, name) ∈ (goldOf p statement).columns ↔
      ∃ place scope column, IsReference p recursive statement place scope column ∧
        attributionIn p statement scope column = .column table name := by
  rw [goldOf, List.mem_toFinset, List.mem_filterMap]
  constructor
  · rintro ⟨attribution, listed, pair⟩
    obtain ⟨scope, select, listed⟩ := List.mem_flatMap.mp listed
    obtain ⟨column, own, rfl⟩ := List.mem_map.mp listed
    obtain ⟨walked, kind⟩ := List.mem_filter.mp select
    obtain ⟨own, column_⟩ := mem_inScope_iff.mp own
    obtain ⟨place, there, inside⟩ := (exists_place_iff (rulesOf p.toNames recursive)).mpr
      ⟨Node.mem_walk.mp walked, of_decide_eq_true kind, own⟩
    refine ⟨place, scope, column, ⟨there, of_decide_eq_true column_, inside⟩, ?_⟩
    rw [attributionIn]
    split at pair
    · rename_i same
      rw [same]
      obtain ⟨rfl, rfl⟩ := Prod.mk.inj (Option.some.inj pair)
      rfl
    · cases pair
  · rintro ⟨place, scope, column, ⟨there, kind, inside⟩, attributed⟩
    obtain ⟨occurs, select, own⟩ := (exists_place_iff _).mp ⟨place, there, inside⟩
    refine ⟨.column table name, List.mem_flatMap.mpr ⟨scope, ?_, ?_⟩, rfl⟩
    · exact List.mem_filter.mpr ⟨Node.mem_walk.mpr occurs, decide_eq_true select⟩
    · exact List.mem_map.mpr ⟨column, mem_inScope_iff.mpr ⟨own, decide_eq_true kind⟩, attributed⟩

/-- A qualified column is of the table that bears the qualifier, or of the
qualifier itself. -/
theorem attributionIn_of_qualified {statement scope column : Node}
    (qualified : qualifierOf p column ≠ "") : attributionIn p statement scope column =
      match bearer p scope (statementCtes p statement) (qualifierOf p column) with
      | some table => .column table (p.casefold column.name)
      | none =>
        if qualifierOf p column ∈ statementCtes p statement then .ofQuery
        else .column (qualifierOf p column) (p.casefold column.name) := by
  rw [attributionIn, attributeColumn]
  dsimp only
  rw [if_pos qualified, get?_aliasesInScope]
  cases borne : bearer p scope (statementCtes p statement) (qualifierOf p column) with
  | none => rfl
  | some table => exact if_neg (not_mem_of_bearer borne)

theorem attributionIn_of_unqualified {statement scope column : Node}
    (unqualified : qualifierOf p column = "") {table name : String} :
    attributionIn p statement scope column = .column table name ↔
      ((aliasesInScope p scope (statementCtes p statement)).entries.map Prod.snd).dedup = [table] ∧
        p.casefold column.name = name := by
  rw [attributionIn, attributeColumn]
  dsimp only
  rw [if_neg (not_not_intro unqualified)]
  split
  · rename_i only sole
    rw [sole, Attribution.column.injEq, List.cons.injEq, and_iff_left rfl]
  · rename_i many
    exact ⟨nofun, fun sole => absurd sole.1 (many table)⟩

theorem isRight_iff {statement scope column : Node} (baseNames : List String)
    (qualified : qualifierOf p column ≠ "") (target : Target) :
    IsRight (some target) (p.casefold column.name) (attributionIn p statement scope column) ↔
      IsPlain (statementCtes p statement) baseNames (some target)
        (bearer p scope (statementCtes p statement) (qualifierOf p column))
        (qualifierOf p column) := by
  rw [attributionIn_of_qualified qualified]
  cases bearer p scope (statementCtes p statement) (qualifierOf p column) with
  | some other => cases target <;> simp [IsRight, IsPlain]
  | none =>
    by_cases cte : qualifierOf p column ∈ statementCtes p statement <;>
      cases target <;> simp [IsRight, IsPlain, cte]

/-- A qualifier that stands for nothing gives a table of the statement, or none. -/
theorem isPlain_none_iff {statement scope column : Node} (baseNames : List String)
    (qualified : qualifierOf p column ≠ "") :
    IsPlain (statementCtes p statement) baseNames none
        (bearer p scope (statementCtes p statement) (qualifierOf p column))
        (qualifierOf p column) ↔
      ∀ table name, attributionIn p statement scope column = .column table name →
        table ∈ baseNames := by
  rw [attributionIn_of_qualified qualified]
  cases bearer p scope (statementCtes p statement) (qualifierOf p column) with
  | some other => simp [IsPlain]
  | none =>
    by_cases cte : qualifierOf p column ∈ statementCtes p statement <;> simp [IsPlain, cte]

/-- The elements are those of SQL's own lookup exactly where the names are clear. -/
theorem attributes_iff {goldSql : String} {statement : Node}
    (parsed : parseOne p goldSql = some (.expression statement)) :
    Attributes p recursive statement (extractGoldElements p goldSql) ↔
      IsClear p recursive statement := by
  rw [extractGoldElements, parsed]
  constructor
  · intro attributes
    have listed {place : Place} {scope column : Node} {table name : String}
        (reference : IsReference p recursive statement place scope column)
        (attributed : attributionIn p statement scope column = .column table name) :
        table ∈ baseTables (rulesOf p.toNames recursive) statement :=
      attributes.tables _
        ((mem_columns_iff recursive).mpr ⟨place, scope, column, reference, attributed⟩)
    refine ⟨fun place scope column reference qualified => ?_,
      fun place scope column reference unqualified table sole => ?_⟩
    · have right := attributes.qualified place scope column reference qualified
      cases resolved : resolve place.inner (qualifierOf p column) with
      | none =>
        exact (isPlain_none_iff _ qualified).mpr fun table name attributed =>
          listed reference attributed
      | some target =>
        rw [resolved] at right
        exact (isRight_iff _ qualified target).mp right
    · exact listed reference ((attributionIn_of_unqualified unqualified).mpr ⟨sole, rfl⟩)
  · intro clear
    refine ⟨fun pair member => ?_, fun place scope column reference qualified => ?_⟩
    · obtain ⟨place, scope, column, reference, attributed⟩ :=
        (mem_columns_iff recursive).mp member
      by_cases unqualified : qualifierOf p column = ""
      · exact clear.unqualified place scope column reference unqualified pair.1
          ((attributionIn_of_unqualified unqualified).mp attributed).1
      · have plain := clear.qualified place scope column reference unqualified
        cases resolved : resolve place.inner (qualifierOf p column) with
        | none =>
          rw [resolved] at plain
          exact (isPlain_none_iff _ unqualified).mp plain _ _ attributed
        | some target =>
          rw [resolved] at plain
          have right := (isRight_iff _ unqualified target).mpr plain
          rw [attributed] at right
          cases target with
          | base table =>
            rw [(Attribution.column.inj right).1]
            exact mem_baseTables_of_resolve reference.there resolved
          | derived => cases right
    · have plain := clear.qualified place scope column reference qualified
      cases resolved : resolve place.inner (qualifierOf p column) with
      | none => trivial
      | some target =>
        rw [resolved] at plain
        exact (isRight_iff _ qualified target).mpr plain

/-! ## Clear and unclear statements -/

instance (cteNames baseNames : List String) (resolved : Option Target) (borne : Option String)
    (qualifier : String) : Decidable (IsPlain cteNames baseNames resolved borne qualifier) :=
  match resolved, borne with
  | some (.base table), some other => inferInstanceAs (Decidable (other = table))
  | some (.base table), none =>
    inferInstanceAs (Decidable (qualifier = table ∧ qualifier ∉ cteNames))
  | some .derived, some _ => inferInstanceAs (Decidable False)
  | some .derived, none => inferInstanceAs (Decidable (qualifier ∈ cteNames))
  | none, some other => inferInstanceAs (Decidable (other ∈ baseNames))
  | none, none => inferInstanceAs (Decidable (qualifier ∈ cteNames ∨ qualifier ∈ baseNames))

variable (p recursive) in
/-- Whether the reference at a place is clear, if it is one. -/
def isClearAt (statement : Node) (found : Place × Node) : Bool :=
  match found.1.select with
  | none => true
  | some scope =>
    let ctes := statementCtes p statement
    let tables := baseTables (rulesOf p.toNames recursive) statement
    let qualifier := qualifierOf p found.2
    found.2.kind ≠ .column ||
      if qualifier = "" then
        match ((aliasesInScope p scope ctes).entries.map Prod.snd).dedup with
        | [table] => tables.contains table
        | _ => true
      else IsPlain ctes tables (resolve found.1.inner qualifier) (bearer p scope ctes qualifier)
        qualifier

theorem isClear_of_all {statement : Node}
    (all : (places (rulesOf p.toNames recursive) start statement).all
      (isClearAt p recursive statement) = true) : IsClear p recursive statement := by
  have each {place : Place} {scope column : Node}
      (reference : IsReference p recursive statement place scope column) :=
    List.all_eq_true.mp all _ reference.there
  refine ⟨fun place scope column reference qualified => ?_,
    fun place scope column reference unqualified table sole => ?_⟩
  · have clear := each reference
    simpa [isClearAt, reference.inside, reference.kind, qualified] using clear
  · have clear := each reference
    simpa [isClearAt, reference.inside, reference.kind, unqualified, sole] using clear

private def ident (name : String) : Node := .mk (.identifier name) []

private def col (qualifier name : String) : Node :=
  .mk .column [("this", ident name), ("table", ident qualifier)]

private def named (item alias_ : String) : Node :=
  .mk .table [("this", ident item), ("alias", .mk .tableAlias [("this", ident alias_)])]

private def fromItem (item : Node) : Node := .mk (.other "from" "") [("this", item)]

private def whereNode (condition : Node) : Node := .mk (.other "where" "") [("this", condition)]

/-- `SELECT o.customer_id FROM orders o` with a condition. -/
private def orders (condition : Node) : Node :=
  .mk .select [("expressions", col "o" "customer_id"), ("from", fromItem (named "orders" "o")),
    ("where", whereNode condition)]

private def equal (left right : Node) : Node :=
  .mk (.other "eq" "") [("this", left), ("expression", right)]

/-- `SELECT c.name FROM customers c WHERE c.id IN (SELECT …)`. -/
private def customers (query : Node) : Node :=
  .mk .select [("expressions", col "c" "name"), ("from", fromItem (named "customers" "c")),
    ("where", whereNode (.mk (.other "in" "")
      [("this", col "c" "id"), ("query", .mk .subquery [("this", query)])]))]

/-- `SELECT d.customer_id FROM (SELECT …) d`. -/
private def derived (query : Node) : Node :=
  .mk .select [("expressions", col "d" "customer_id"), ("from", fromItem (.mk .subquery
    [("this", query), ("alias", .mk .tableAlias [("this", ident "d")])]))]

private def plain : Node := customers (orders (equal (col "o" "paid") (col "o" "total")))

private def plainSql : String :=
  "SELECT c.name FROM customers c WHERE c.id IN (SELECT o.customer_id FROM orders o " ++
    "WHERE o.paid = o.total)"

private def correlated : Node := customers (orders (equal (col "o" "region") (col "c" "region")))

private def correlatedSql : String :=
  "SELECT c.name FROM customers c WHERE c.id IN (SELECT o.customer_id FROM orders o " ++
    "WHERE o.region = c.region)"

private def nested : Node := derived (orders (equal (col "o" "paid") (col "o" "total")))

private def nestedSql : String :=
  "SELECT d.customer_id FROM (SELECT o.customer_id FROM orders o WHERE o.paid = o.total) d"

private def reader : Platform where
  casefold s := String.ofList (s.toList.map Char.toLower)
  closeMatch _ _ := none
  parse sql :=
    if sql = plainSql then .ok [some (.expression plain)]
    else if sql = correlatedSql then .ok [some (.expression correlated)]
    else if sql = nestedSql then .ok [some (.expression nested)]
    else .error "Invalid expression"
  sql _ := ""
  str _ := ""
  float _ := none

/-- A subquery with aliases of its own. -/
theorem attributes_iff_plain : parseOne reader plainSql = some (.expression plain) ∧
    Attributes reader (fun _ => false) plain (extractGoldElements reader plainSql) := by
  refine ⟨rfl, (attributes_iff rfl).mpr (isClear_of_all ?_)⟩
  decide +kernel

/-- A correlated alias and a derived table's are given out as tables. -/
theorem aliases_given_as_tables :
    (("c", "region") ∈ (extractGoldElements reader correlatedSql).columns ∧
      ¬Attributes reader (fun _ => false) correlated (extractGoldElements reader correlatedSql)) ∧
    (("d", "customer_id") ∈ (extractGoldElements reader nestedSql).columns ∧
      ¬Attributes reader (fun _ => false) nested (extractGoldElements reader nestedSql)) := by
  have first : ("c", "region") ∈ (extractGoldElements reader correlatedSql).columns := by
    decide +kernel
  have second : ("d", "customer_id") ∈ (extractGoldElements reader nestedSql).columns := by
    decide +kernel
  refine ⟨⟨first, fun attributes => ?_⟩, second, fun attributes => ?_⟩
  · have table : "c" ∈ baseTables (rulesOf reader.toNames fun _ => false) correlated :=
      attributes.tables _ first
    revert table
    decide +kernel
  · have table : "d" ∈ baseTables (rulesOf reader.toNames fun _ => false) nested :=
      attributes.tables _ second
    revert table
    decide +kernel

end Extraction
