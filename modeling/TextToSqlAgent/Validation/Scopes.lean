import TextToSqlAgent.Validation.Catalog
import TextToSqlAgent.Validation.Syntax

/-!
# Where SQL looks names up

A `SELECT` sees what its own `FROM` and `JOIN` items are called, and then what
the `SELECT`s around it see. An item that is a query sees only what is around
its `SELECT`, unless it is `LATERAL`; a common table expression sees neither, and
only the expressions named before it, or all of a recursive `WITH`.
-/

namespace Scopes

open Syntax

/-- What a name of a `FROM` item stands for: a base table, or what the query
itself makes. -/
inductive Target
  | base (table : String)
  | derived
  deriving DecidableEq, Repr

structure Source where
  name : String
  target : Target
  deriving DecidableEq, Repr

/-- The items of one `FROM`, with its joins. -/
abbrev Scope : Type := List Source

/-- The innermost scope that has the name decides. -/
def resolve : List Scope → String → Option Target
  | [], _ => none
  | scope :: outer, name =>
    match scope.find? fun source => source.name = name with
    | some source => some source.target
    | none => resolve outer name

/-- How names compare, and which `WITH` is recursive. -/
structure Rules where
  fold : String → String
  recursive : Node → Bool

def rulesOf (names : Catalog.Names) (recursive : Node → Bool) : Rules :=
  ⟨names.casefold, recursive⟩

variable (rules : Rules)

/-! ## What a `SELECT` names -/

/-- The alias a table-like item has. -/
def itemAlias (n : Node) : String :=
  match n.arg? "alias" with
  | some a => if a.kind = .tableAlias then a.name else ""
  | none => ""

/-- A table under its alias, or its name; a function has an alias alone. A name
with a schema is not of a common table expression. -/
def tableSource (ctes : List String) (n : Node) : List Source :=
  if n.name = "" then
    if itemAlias n = "" then [] else [⟨rules.fold (itemAlias n), .derived⟩]
  else
    [⟨rules.fold (if itemAlias n = "" then n.name else itemAlias n),
      if rules.fold n.name ∈ ctes ∧ (n.arg? "db").isNone then .derived
      else .base (rules.fold n.name)⟩]

mutual
/-- The items in a tree of a `FROM` or a `JOIN`. -/
def sources (ctes : List String) : Node → List Source
  | .mk .select _ => []
  | .mk .cte _ => []
  | .mk .table args => tableSource rules ctes (.mk .table args) ++ sourcesOf ctes args
  | .mk kind args =>
    if itemAlias (.mk kind args) = "" then sourcesOf ctes args
    else [⟨rules.fold (itemAlias (.mk kind args)), .derived⟩]
def sourcesOf (ctes : List String) : List (String × Node) → List Source
  | [] => []
  | (_, n) :: rest => sources ctes n ++ sourcesOf ctes rest
end

/-- Whether a part of a `SELECT` names items. -/
def namesItems (n : Node) : Bool :=
  n.kind.key = "from" || n.kind.key = "join" || n.kind.key = "lateral"

def scopeOf (ctes : List String) (select : Node) : Scope :=
  (select.children.filter namesItems).flatMap (sources rules ctes)

/-- The names of the common table expressions among the parts of a `WITH`. -/
def namesIn (parts : List Node) : List String :=
  (parts.filter fun n => n.kind = .cte && n.aliasName ≠ "").map fun n => rules.fold n.aliasName

/-- The names that a query's own `WITH` adds. -/
def ownNames (n : Node) : List String :=
  (n.children.filter fun c => c.kind.key = "with").flatMap fun c => namesIn rules c.children

/-! ## What is seen from a place -/

/-- What is seen from a place of a statement: `outer` leaves out the items of the
innermost `SELECT`, and a query inside one of them sees no more. -/
structure Place where
  select : Option Node
  ctes : List String
  inner : List Scope
  outer : List Scope
  inItem : Bool

def start : Place where
  select := none
  ctes := []
  inner := []
  outer := []
  inItem := false

/-- What a query at the place is inside of. -/
def Place.around (place : Place) : List Scope := if place.inItem then place.outer else place.inner

/-- What the parts of a node see, but for the names of its own `WITH`. -/
def enter (place : Place) (n : Node) : Place :=
  match n.kind with
  | .select =>
    { select := some n
      ctes := place.ctes
      inner := scopeOf rules (place.ctes ++ ownNames rules n) n :: place.around
      outer := place.around
      inItem := false }
  | .func _ _ => { place with inItem := false }
  | .other "lateral" _ => { place with inItem := false }
  | .other "with" _ =>
    { place with
      ctes := if rules.recursive n then place.ctes ++ namesIn rules n.children else place.ctes }
  | _ => place

/-- What one part of a node sees, after the parts before it. -/
def childPlace (place : Place) (n : Node) (before : List (String × Node)) (key : String)
    (c : Node) : Place :=
  let own := enter rules place n
  if c.kind.key = "with" then
    { own with inner := place.around, outer := place.around, inItem := false }
  else if n.kind.key = "with" then
    { own with ctes := own.ctes ++ namesIn rules (before.map Prod.snd) }
  else
    { own with
      ctes := own.ctes ++ ownNames rules n
      inItem :=
        if n.kind.key = "from" then true
        else if n.kind.key = "join" then key = "this"
        else own.inItem }

mutual
/-- Every node of a tree, with what is seen from it. -/
def places (place : Place) : Node → List (Place × Node)
  | .mk kind args => (place, .mk kind args) :: placesOf place (.mk kind args) [] args
def placesOf (place : Place) (n : Node) (before : List (String × Node)) :
    List (String × Node) → List (Place × Node)
  | [] => []
  | (key, c) :: rest =>
    places (childPlace rules place n before key c) c ++
      placesOf place n (before ++ [(key, c)]) rest
end

variable {rules}

theorem mem_children_of_args {n c : Node} {before rest : List (String × Node)} {key : String}
    (args : n.args = before ++ (key, c) :: rest) : c ∈ n.children := by
  rw [Node.children, args, List.map_append, List.map_cons]
  exact List.mem_append_right _ List.mem_cons_self

theorem mem_placesOf {place : Place} {n : Node} {before args : List (String × Node)}
    {found : Place × Node} : found ∈ placesOf rules place n before args ↔
      ∃ front key c rest, args = front ++ (key, c) :: rest ∧
        found ∈ places rules (childPlace rules place n (before ++ front) key c) c := by
  induction args generalizing before with
  | nil => simp [placesOf]
  | cons arg args ih =>
    obtain ⟨name, d⟩ := arg
    rw [placesOf, List.mem_append, ih]
    constructor
    · rintro (here | ⟨front, key, c, rest, rfl, there⟩)
      · exact ⟨[], name, d, args, rfl, by rwa [List.append_nil]⟩
      · exact ⟨(name, d) :: front, key, c, rest, rfl, by rwa [List.append_assoc] at there⟩
    · rintro ⟨front, key, c, rest, same, there⟩
      cases front with
      | nil =>
        rw [List.nil_append] at same
        obtain ⟨head, rfl⟩ := List.cons.inj same
        obtain ⟨rfl, rfl⟩ := Prod.mk.inj head
        rw [List.append_nil] at there
        exact Or.inl there
      | cons arg front =>
        obtain ⟨rfl, rfl⟩ := List.cons.inj same
        refine Or.inr ⟨front, key, c, rest, rfl, ?_⟩
        rwa [List.append_assoc]

/-- A place of a tree is that of its root, or a place of one of its parts. -/
theorem mem_places {place : Place} {n : Node} {found : Place × Node} :
    found ∈ places rules place n ↔ found = (place, n) ∨
      ∃ before key c rest, n.args = before ++ (key, c) :: rest ∧
        found ∈ places rules (childPlace rules place n before key c) c := by
  obtain ⟨kind, args⟩ := n
  rw [places, List.mem_cons, mem_placesOf]
  rfl

theorem size_lt_of_arg {n c : Node} {before rest : List (String × Node)} {key : String}
    (args : n.args = before ++ (key, c) :: rest) : c.size < n.size := by
  have lighter : (n.children.map Node.size).sum < n.size := Node.tree.smaller n
  rw [Node.children, args] at lighter
  simp only [List.map_append, List.map_cons, List.sum_append, List.sum_cons] at lighter
  omega

/-- What holds at the root, and of a tree where it holds of its parts, holds at
every place. -/
theorem places_induction {motive : Place → Node → Place × Node → Prop}
    (root : ∀ place n, motive place n (place, n))
    (part : ∀ place n before key c rest found, n.args = before ++ (key, c) :: rest →
      found ∈ places rules (childPlace rules place n before key c) c →
        motive (childPlace rules place n before key c) c found → motive place n found)
    {place : Place} {n : Node} {found : Place × Node} (there : found ∈ places rules place n) :
    motive place n found := by
  induction weight : n.size using Nat.strongRecOn generalizing place n with
  | _ size ih =>
    rcases mem_places.mp there with rfl | ⟨before, key, c, rest, args, below⟩
    · exact root place n
    · exact part place n before key c rest found args below
        (ih c.size (weight ▸ size_lt_of_arg args) below rfl)

theorem places_trans {place : Place} {n : Node} {middle found : Place × Node}
    (first : middle ∈ places rules place n) (second : found ∈ places rules middle.1 middle.2) :
    found ∈ places rules place n := by
  refine places_induction (motive := fun place n middle =>
    found ∈ places rules middle.1 middle.2 → found ∈ places rules place n) ?_ ?_ first second
  · exact fun place n there => there
  · intro place n before key c rest middle args _ ih there
    exact mem_places.mpr (Or.inr ⟨before, key, c, rest, args, ih there⟩)

theorem root_mem_places (place : Place) (n : Node) : (place, n) ∈ places rules place n :=
  mem_places.mpr (Or.inl rfl)

theorem mem_places_of_child {place : Place} {n c : Node} (child : c ∈ n.children) :
    ∃ before key, (childPlace rules place n before key c, c) ∈ places rules place n := by
  obtain ⟨⟨key, own⟩, listed, rfl⟩ := List.mem_map.mp child
  obtain ⟨before, rest, args⟩ := List.append_of_mem listed
  exact ⟨before, key, mem_places.mpr (Or.inr ⟨before, key, own, rest, args, root_mem_places _ _⟩)⟩

/-! ## The innermost `SELECT` -/

/-- What occurs below a node, with no `SELECT` between. -/
inductive Own : Node → Node → Prop
  | child {n m : Node} : m ∈ n.children → Own n m
  | under {n c m : Node} : c ∈ n.children → c.kind ≠ .select → Own c m → Own n m

theorem select_childPlace (place : Place) (n : Node) (before : List (String × Node))
    (key : String) (c : Node) : (childPlace rules place n before key c).select =
      if n.kind = .select then some n else place.select := by
  have entered : (enter rules place n).select =
      if n.kind = .select then some n else place.select := by
    rw [enter]
    split <;> simp_all
  rw [← entered, childPlace]
  split_ifs <;> rfl

/-- The `SELECT` of a place is the one around the tree, or one in it with no other
between. -/
theorem select_of_mem_places {place : Place} {n : Node} {found : Place × Node}
    (there : found ∈ places rules place n) :
    (found.1.select = place.select ∧ (found.2 = n ∨ n.kind ≠ .select ∧ Own n found.2)) ∨
      ∃ scope, scope.Occurs n ∧ scope.kind = .select ∧ found.1.select = some scope ∧
        Own scope found.2 := by
  refine places_induction (motive := fun place n found =>
    (found.1.select = place.select ∧ (found.2 = n ∨ n.kind ≠ .select ∧ Own n found.2)) ∨
      ∃ scope, scope.Occurs n ∧ scope.kind = .select ∧ found.1.select = some scope ∧
        Own scope found.2) ?_ ?_ there
  · exact fun place n => Or.inl ⟨rfl, Or.inl rfl⟩
  · intro place n before key c rest found args _ ih
    have child := mem_children_of_args args
    rcases ih with ⟨around, where_⟩ | ⟨scope, occurs, select, inside, own⟩
    · have below : Own n found.2 := by
        rcases where_ with same | ⟨other, own⟩
        · exact same ▸ .child child
        · exact .under child other own
      rw [select_childPlace] at around
      split_ifs at around with select
      · exact Or.inr ⟨n, .here, select, around, below⟩
      · exact Or.inl ⟨around, Or.inr ⟨select, below⟩⟩
    · exact Or.inr ⟨scope, .under child occurs, select, inside, own⟩

theorem exists_place_of_own (rules : Rules) {n m : Node} (own : Own n m) (place : Place) :
    ∃ found, (found, m) ∈ places rules place n ∧
      found.select = if n.kind = .select then some n else place.select := by
  induction own generalizing place with
  | child child =>
    obtain ⟨before, key, there⟩ := mem_places_of_child child
    exact ⟨_, there, select_childPlace _ _ _ _ _⟩
  | under child other own ih =>
    obtain ⟨before, key, there⟩ := mem_places_of_child child
    obtain ⟨found, below, select⟩ := ih (childPlace rules place _ before key _)
    rw [if_neg other, select_childPlace] at select
    exact ⟨found, places_trans there below, select⟩

theorem exists_place_of_occurs (rules : Rules) {n m : Node} (occurs : m.Occurs n) (place : Place) :
    ∃ found, (found, m) ∈ places rules place n := by
  induction occurs generalizing place with
  | here => exact ⟨place, root_mem_places _ _⟩
  | under child occurs ih =>
    obtain ⟨before, key, there⟩ := mem_places_of_child child
    obtain ⟨found, below⟩ := ih (childPlace rules place _ before key _)
    exact ⟨found, places_trans there below⟩

/-- The places inside a `SELECT` of a statement, other `SELECT`s left out. -/
theorem exists_place_iff (rules : Rules) {statement scope m : Node} :
    (∃ place, (place, m) ∈ places rules start statement ∧ place.select = some scope) ↔
      scope.Occurs statement ∧ scope.kind = .select ∧ Own scope m := by
  constructor
  · rintro ⟨place, there, inside⟩
    rcases select_of_mem_places there with ⟨around, -⟩ | ⟨other, occurs, select, same, own⟩
    · rw [inside] at around
      cases around
    · obtain rfl := Option.some.inj (inside.symm.trans same)
      exact ⟨occurs, select, own⟩
  · rintro ⟨occurs, select, own⟩
    obtain ⟨outer, first⟩ := exists_place_of_occurs rules occurs start
    obtain ⟨place, second, inside⟩ := exists_place_of_own rules own outer
    rw [if_pos select] at inside
    exact ⟨place, places_trans first second, inside⟩

/-! ## Tables of the statement -/

/-- Every scope that is looked through from a place. -/
def Place.scopes (place : Place) : List Scope := place.inner ++ place.outer

theorem mem_scopes_childPlace {place : Place} {n : Node} {before : List (String × Node)}
    {key : String} {c : Node} {scope : Scope}
    (seen : scope ∈ (childPlace rules place n before key c).scopes) : scope ∈ place.scopes ∨
      n.kind = .select ∧ scope = scopeOf rules (place.ctes ++ ownNames rules n) n := by
  have around : place.around = place.inner ∨ place.around = place.outer := by
    rw [Place.around]
    split
    · exact Or.inr rfl
    · exact Or.inl rfl
  have outside (there : scope ∈ place.around) : scope ∈ place.scopes := by
    rw [Place.scopes, List.mem_append]
    rcases around with same | same
    · exact Or.inl (same ▸ there)
    · exact Or.inr (same ▸ there)
  have entered (there : scope ∈ (enter rules place n).scopes) : scope ∈ place.scopes ∨
      n.kind = .select ∧ scope = scopeOf rules (place.ctes ++ ownNames rules n) n := by
    rw [enter] at there
    split at there
    · rename_i select
      rcases List.mem_append.mp there with own | other
      · rcases List.mem_cons.mp own with same | other
        · exact Or.inr ⟨select, same⟩
        · exact Or.inl (outside other)
      · exact Or.inl (outside other)
    · exact Or.inl there
    · exact Or.inl there
    · exact Or.inl there
    · exact Or.inl there
  rw [childPlace] at seen
  split_ifs at seen
  · exact Or.inl (outside ((List.mem_append.mp seen).elim id id))
  all_goals exact entered seen

theorem mem_scopes_of_mem_places {place : Place} {n : Node} {found : Place × Node}
    (there : found ∈ places rules place n) {scope : Scope} (seen : scope ∈ found.1.scopes) :
    scope ∈ place.scopes ∨ ∃ other ∈ places rules place n, other.2.kind = .select ∧
      scope = scopeOf rules (other.1.ctes ++ ownNames rules other.2) other.2 := by
  revert seen
  refine places_induction (motive := fun place n found => scope ∈ found.1.scopes →
    scope ∈ place.scopes ∨ ∃ other ∈ places rules place n, other.2.kind = .select ∧
      scope = scopeOf rules (other.1.ctes ++ ownNames rules other.2) other.2) ?_ ?_ there
  · exact fun place n seen => Or.inl seen
  · intro place n before key c rest found args _ ih seen
    rcases ih seen with around | ⟨other, below, select, same⟩
    · rcases mem_scopes_childPlace around with outside | ⟨select, same⟩
      · exact Or.inl outside
      · exact Or.inr ⟨(place, n), root_mem_places _ _, select, same⟩
    · exact Or.inr ⟨other, mem_places.mpr (Or.inr ⟨before, key, c, rest, args, below⟩),
        select, same⟩

def Target.table? : Target → Option String
  | .base table => some table
  | .derived => none

variable (rules) in
/-- The base tables that the statement's `FROM` and `JOIN` items name. -/
def baseTables (statement : Node) : List String :=
  ((places rules start statement).filter fun found => found.2.kind = .select).flatMap fun found =>
    (scopeOf rules (found.1.ctes ++ ownNames rules found.2) found.2).filterMap fun source =>
      source.target.table?

theorem exists_source_of_resolve {scopes : List Scope} {name : String} {target : Target}
    (resolved : resolve scopes name = some target) :
    ∃ scope ∈ scopes, ∃ source ∈ scope, source.name = name ∧ source.target = target := by
  induction scopes with
  | nil => cases resolved
  | cons scope outer ih =>
    rw [resolve] at resolved
    split at resolved
    · rename_i source found
      refine ⟨scope, List.mem_cons_self, source, List.mem_of_find?_eq_some found, ?_,
        Option.some.inj resolved⟩
      simpa using List.find?_some found
    · obtain ⟨inside, listed, source⟩ := ih resolved
      exact ⟨inside, List.mem_cons_of_mem _ listed, source⟩

/-- What a name stands for is a table of the statement, if it is one at all. -/
theorem mem_baseTables_of_resolve {statement : Node} {found : Place × Node}
    (there : found ∈ places rules start statement) {name table : String}
    (resolved : resolve found.1.inner name = some (.base table)) :
    table ∈ baseTables rules statement := by
  obtain ⟨scope, listed, source, member, -, target⟩ := exists_source_of_resolve resolved
  rcases mem_scopes_of_mem_places there (List.mem_append_left _ listed) with
    outside | ⟨other, below, select, rfl⟩
  · exact absurd outside List.not_mem_nil
  · refine List.mem_flatMap.mpr ⟨other, List.mem_filter.mpr ⟨below, decide_eq_true select⟩, ?_⟩
    exact List.mem_filterMap.mpr ⟨source, member, by rw [target]; rfl⟩

/-! ## Where the names come from -/

theorem occurs_of_mem_places {place : Place} {n : Node} {found : Place × Node}
    (there : found ∈ places rules place n) : found.2.Occurs n := by
  refine places_induction (motive := fun _ n found => found.2.Occurs n) ?_ ?_ there
  · exact fun place n => .here
  · intro place n before key c rest found args _ ih
    exact .under (mem_children_of_args args) ih

variable (rules) in
/-- Whether a common table expression in a tree has the name. -/
def IsCteOf (n : Node) (name : String) : Prop :=
  ∃ cte : Node, cte.Occurs n ∧ cte.kind = .cte ∧ cte.aliasName ≠ "" ∧
    rules.fold cte.aliasName = name

theorem isCteOf_of_mem_namesIn {n : Node} {parts : List Node} {name : String}
    (inside : ∀ part ∈ parts, part.Occurs n) (listed : name ∈ namesIn rules parts) :
    IsCteOf rules n name := by
  obtain ⟨cte, member, rfl⟩ := List.mem_map.mp listed
  obtain ⟨part, isCte⟩ := List.mem_filter.mp member
  simp only [Bool.and_eq_true, decide_eq_true_eq] at isCte
  exact ⟨cte, inside cte part, isCte.1, isCte.2, rfl⟩

theorem mem_ctes_childPlace {place : Place} {n : Node} {before rest : List (String × Node)}
    {key : String} {c : Node} {name : String} (args : n.args = before ++ (key, c) :: rest)
    (seen : name ∈ (childPlace rules place n before key c).ctes) :
    name ∈ place.ctes ∨ IsCteOf rules n name := by
  have child (part : Node) (listed : part ∈ n.children) : part.Occurs n := .under listed .here
  have entered (there : name ∈ (enter rules place n).ctes) :
      name ∈ place.ctes ∨ IsCteOf rules n name := by
    rw [enter] at there
    split at there
    · exact Or.inl there
    · exact Or.inl there
    · exact Or.inl there
    · dsimp only at there
      split_ifs at there
      · exact (List.mem_append.mp there).imp id (isCteOf_of_mem_namesIn child)
      · exact Or.inl there
    · exact Or.inl there
  rw [childPlace] at seen
  by_cases clause : c.kind.key = "with"
  · rw [if_pos clause] at seen
    exact entered seen
  rw [if_neg clause] at seen
  by_cases within : n.kind.key = "with"
  · rw [if_pos within] at seen
    rcases List.mem_append.mp seen with own | earlier
    · exact entered own
    · refine Or.inr (isCteOf_of_mem_namesIn (fun part listed => child part ?_) earlier)
      rw [Node.children, args, List.map_append]
      exact List.mem_append_left _ listed
  · rw [if_neg within] at seen
    rcases List.mem_append.mp seen with own | added
    · exact entered own
    · obtain ⟨clause, listed, named⟩ := List.mem_flatMap.mp added
      refine Or.inr (isCteOf_of_mem_namesIn (fun part inside => ?_) named)
      exact .under (List.mem_of_mem_filter listed) (.under inside .here)

/-- The common table expressions that a place sees are in the statement. -/
theorem isCteOf_of_mem_ctes {place : Place} {n : Node} {found : Place × Node}
    (there : found ∈ places rules place n) {name : String} (seen : name ∈ found.1.ctes) :
    name ∈ place.ctes ∨ IsCteOf rules n name := by
  revert seen
  refine places_induction (motive := fun place n found =>
    name ∈ found.1.ctes → name ∈ place.ctes ∨ IsCteOf rules n name) ?_ ?_ there
  · exact fun place n seen => Or.inl seen
  · intro place n before key c rest found args _ ih seen
    rcases ih seen with around | ⟨cte, occurs, isCte⟩
    · exact mem_ctes_childPlace args around
    · exact Or.inr ⟨cte, .under (mem_children_of_args args) occurs, isCte⟩

variable (rules) in
/-- Whether an item is the base table that a node names. -/
structure IsItemOf (source : Source) (t : Node) : Prop where
  kind : t.kind = .table
  named : t.name ≠ ""
  target : source.target = .base (rules.fold t.name)
  name : source.name = rules.fold (if itemAlias t = "" then t.name else itemAlias t)

theorem isItemOf_of_mem_tableSource {ctes : List String} {t : Node} {source : Source}
    (kind : t.kind = .table) (member : source ∈ tableSource rules ctes t)
    (base : source.target ≠ .derived) : IsItemOf rules source t := by
  rw [tableSource] at member
  split_ifs at member with noName noAlias ofCte
  · exact absurd member List.not_mem_nil
  · obtain rfl := List.mem_singleton.mp member
    exact absurd rfl base
  all_goals obtain rfl := List.mem_singleton.mp member
  all_goals first
    | exact absurd rfl base
    | exact ⟨kind, noName, rfl, by simp [*]⟩

theorem mem_sourcesOf {ctes : List String} {args : List (String × Node)} {source : Source} :
    source ∈ sourcesOf rules ctes args ↔
      ∃ c ∈ args.map Prod.snd, source ∈ sources rules ctes c := by
  induction args with
  | nil => simp [sourcesOf]
  | cons arg args ih => simp [sourcesOf, ih]

theorem exists_item_of_mem_sources {ctes : List String} {n : Node} {source : Source}
    (member : source ∈ sources rules ctes n) (base : source.target ≠ .derived) :
    ∃ t, t.Occurs n ∧ IsItemOf rules source t := by
  induction weight : n.size using Nat.strongRecOn generalizing n with
  | _ size ih =>
    have below {args : List (String × Node)} (same : n.args = args)
        (listed : source ∈ sourcesOf rules ctes args) :
        ∃ t, t.Occurs n ∧ IsItemOf rules source t := by
      obtain ⟨c, child, inside⟩ := mem_sourcesOf.mp listed
      obtain ⟨arg, own, rfl⟩ := List.mem_map.mp child
      obtain ⟨before, rest, split⟩ := List.append_of_mem own
      obtain ⟨t, occurs, item⟩ :=
        ih arg.2.size (weight ▸ size_lt_of_arg (same.trans split)) inside rfl
      exact ⟨t, .under (mem_children_of_args (same.trans split)) occurs, item⟩
    rw [sources.eq_def] at member
    split at member
    · exact absurd member List.not_mem_nil
    · exact absurd member List.not_mem_nil
    · rcases List.mem_append.mp member with own | inside
      · exact ⟨_, .here, isItemOf_of_mem_tableSource rfl own base⟩
      · exact below rfl inside
    · split_ifs at member
      · exact below rfl member
      · obtain rfl := List.mem_singleton.mp member
        exact absurd rfl base

/-- A base table that a place sees is of a node of the statement. -/
theorem exists_item_of_mem_scopes {statement : Node} {found : Place × Node}
    (there : found ∈ places rules start statement) {scope : Scope} {source : Source}
    (seen : scope ∈ found.1.inner) (member : source ∈ scope) (base : source.target ≠ .derived) :
    ∃ t, t.Occurs statement ∧ IsItemOf rules source t := by
  rcases mem_scopes_of_mem_places there (List.mem_append_left _ seen) with
    outside | ⟨other, below, select, rfl⟩
  · exact absurd outside List.not_mem_nil
  · obtain ⟨part, listed, item⟩ := List.mem_flatMap.mp member
    obtain ⟨t, occurs, isItem⟩ := exists_item_of_mem_sources item base
    have inside := occurs_of_mem_places below
    exact ⟨t, (Walk.Occurs.under (List.mem_of_mem_filter listed) occurs).trans inside, isItem⟩

end Scopes
