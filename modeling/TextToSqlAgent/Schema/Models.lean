import Mathlib.Data.List.Infix
import TextToSqlAgent.Core.Python
import TextToSqlAgent.Validation.Catalog

/-!
# The schema catalog's models

What introspection found, what retrieval returns, and the text of an element that
is embedded.
-/

namespace Schema

open Python Catalog

/-- One column of one table. -/
structure Column where
  table : String
  name : String
  dataType : String
  isNullable : Bool
  comment : Option String := none
  sampleValues : List String := []
  deriving DecidableEq

structure Table where
  name : String
  comment : Option String := none
  columns : List Column := []
  deriving DecidableEq

/-- One column pair of one foreign-key constraint. -/
structure ForeignKey where
  fromTable : String
  fromColumn : String
  toTable : String
  toColumn : String
  constraintName : Option String
  deriving DecidableEq

/-- Everything introspection found, at one point in time. -/
structure SchemaSnapshot where
  tables : List Table := []
  foreignKeys : List ForeignKey := []
  deriving DecidableEq

def SchemaSnapshot.columnCount (snapshot : SchemaSnapshot) : Nat :=
  (snapshot.tables.map fun table => table.columns.length).sum

/-- One catalog hit. -/
structure RetrievedElement where
  elementType : String
  table : String
  column : Option String
  dataType : Option String
  comment : Option String
  serialized : String
  score : PyFloat
  deriving DecidableEq

structure RetrievalResult where
  elements : List RetrievedElement
  foreignKeys : List ForeignKey

/-! ## The text of an element -/

def maxSerializedChars : Nat := 512
def maxColumnsListed : Nat := 40
def dash : String := " — "

/-- `" ".join(text.split())`. -/
def flatten (text : String) : String :=
  " ".intercalate (((text.toList.splitOnP isSpace).filter (· ≠ [])).map String.ofList)

def truncate (text : String) : String :=
  if text.length ≤ maxSerializedChars then text
  else String.ofList ((text.toList.take (maxSerializedChars - 3)).rdropWhile isSpace) ++ "..."

def isSensitive (names : Names) (columnName : String) (patterns : List String) : Bool :=
  patterns.any fun pattern => pattern.toList <:+: (names.casefold columnName).toList

/-- A comment that is there and not empty. -/
def commentPart (comment : Option String) : String :=
  match comment with
  | none => ""
  | some text => if text = "" then "" else dash ++ flatten text

def serializeColumn (names : Names) (patterns : List String) (column : Column) : String :=
  let examples :=
    if column.sampleValues ≠ [] ∧ isSensitive names column.name patterns = false then
      ". Examples: " ++ ", ".intercalate (column.sampleValues.map flatten)
    else ""
  truncate (s!"{column.table}.{column.name} ({column.dataType})" ++
    commentPart column.comment ++ examples)

def serializeTable (table : Table) : String :=
  let listed := (table.columns.take maxColumnsListed).map Column.name
  let remainder := table.columns.length - listed.length
  let suffix := if 0 < remainder then s!", and {remainder} more" else ""
  let columns :=
    if table.columns ≠ [] then ". Columns: " ++ ", ".intercalate listed ++ suffix else ""
  truncate (s!"{table.name} (table)" ++ commentPart table.comment ++ columns)

/-- No text that is embedded is longer than the ceiling. -/
theorem truncate_length_le (text : String) : (truncate text).length ≤ maxSerializedChars := by
  rw [truncate]
  split
  · assumption
  · have kept := (List.rdropWhile_prefix isSpace
      (l := text.toList.take (maxSerializedChars - 3))).length_le
    rw [List.length_take] at kept
    rw [String.length_append, String.length_ofList]
    have dots : "...".length = 3 := by decide
    have ceiling : maxSerializedChars = 512 := rfl
    omega

end Schema
