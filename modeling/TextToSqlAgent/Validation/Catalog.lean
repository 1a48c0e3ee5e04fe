import Mathlib.Data.List.Basic

/-!
# The catalog as an identifier index

Every table and column name the agent may reference, folded as the loader folds
them. What the text functions of the standard library do with case and with
close names is a parameter.
-/

namespace Catalog

/-- `str.casefold`, and the nearest of some names to one, if any is near
enough. -/
structure Names where
  casefold : String → String
  closeMatch : String → List String → Option String

structure SchemaCatalog where
  columnsByTable : List (String × List String)
  deriving DecidableEq, Repr

variable (names : Names) (catalog : SchemaCatalog)

def SchemaCatalog.isEmpty : Bool := catalog.columnsByTable.isEmpty

/-- `columns_by_table.get(table.casefold(), frozenset())`. -/
def SchemaCatalog.columnsAt (table : String) : List String :=
  match catalog.columnsByTable.find? fun entry => entry.1 == names.casefold table with
  | some entry => entry.2
  | none => []

def SchemaCatalog.hasTable (name : String) : Bool :=
  catalog.columnsByTable.any fun entry => entry.1 == names.casefold name

def SchemaCatalog.hasColumn (table column : String) : Bool :=
  (catalog.columnsAt names table).contains (names.casefold column)

/-- Every column reachable from a set of tables, for unqualified lookups. -/
def SchemaCatalog.columnsOf (tables : List String) : List String :=
  tables.flatMap (catalog.columnsAt names)

def nearest (name : String) (candidates : List String) : Option String :=
  names.closeMatch (names.casefold name) candidates

def SchemaCatalog.suggestTable (name : String) : Option String :=
  nearest names name (catalog.columnsByTable.map Prod.fst)

def SchemaCatalog.suggestColumn (name : String) (tables : List String) : Option String :=
  nearest names name (catalog.columnsOf names tables)

end Catalog
