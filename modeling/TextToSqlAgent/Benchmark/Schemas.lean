import TextToSqlAgent.Benchmark.Plan

/-!
# The server a conversion writes to

Schemas by name. A statement is refused where what it names is missing, or is
there already; a server may refuse it for reasons of its own as well. Nothing a
conversion executes reaches beyond one schema.
-/

namespace Schemas

open Python Exceptions Plan

inductive PgValue
  | null
  | integer (n : Int)
  | double (x : PyFloat)
  | text (s : String)
  | bytea (bytes : List UInt8)
  deriving DecidableEq, Repr

structure PgTable where
  columns : List (String × PgType)
  rows : List (List PgValue)
  primaryKey : Option (List String) := none
  foreignKeys : List (String × KeyPlan) := []

/-- A schema: its tables, and the roles that may use it and read its tables. -/
structure Namespace where
  tables : Dictionary String PgTable
  usage : List String
  readers : List String

abbrev Store : Type := Dictionary String Namespace

/-- What a statement does to the schema it names. -/
inductive Action
  | dropCascade
  | create
  | createTable (table : String) (columns : List (String × PgType))
  | copy (table : String) (rows : List (List PgValue))
  | addPrimaryKey (table : String) (columns : List String)
  | addForeignKey (table name : String) (key : KeyPlan)
  | grantUsage (role : String)
  | grantSelect (role : String)

/-- A table of a schema changed, if it is there. -/
def Namespace.alter (space : Namespace) (table : String) (change : PgTable → PgTable) :
    Option (Option Namespace) :=
  match space.tables.get? table with
  | some _ => some (some { space with tables := space.tables.modify table change })
  | none => none

/-- The schema after a statement, if it can be executed. -/
def Action.apply : Action → Option Namespace → Option (Option Namespace)
  | .dropCascade, some _ => some none
  | .create, none => some (some ⟨.empty, [], []⟩)
  | .createTable table columns, some space =>
    match space.tables.get? table with
    | some _ => none
    | none => some (some { space with tables := space.tables.set table { columns, rows := [] } })
  | .copy table rows, some space =>
    space.alter table fun t => { t with rows := t.rows ++ rows }
  | .addPrimaryKey table columns, some space =>
    space.alter table fun t => { t with primaryKey := some columns }
  | .addForeignKey table name key, some space =>
    space.alter table fun t => { t with foreignKeys := t.foreignKeys ++ [(name, key)] }
  | .grantUsage role, some space => some (some { space with usage := space.usage ++ [role] })
  | .grantSelect role, some space => some (some { space with readers := space.readers ++ [role] })
  | _, _ => none

/-- What a server refuses of its own, and what it says of an error. -/
structure Server where
  refuses : String → Action → Store → Bool
  complaint : String → Action → Store → String

/-- Execute a statement that names a schema. -/
def execute (server : Server) (schema : String) (action : Action) (store : Store) :
    Except Raised Store :=
  if server.refuses schema action store then
    .error (.unexpected (server.complaint schema action store))
  else
    match action.apply (store.get? schema) with
    | none => .error (.unexpected (server.complaint schema action store))
    | some none => .ok (store.erase schema)
    | some (some space) => .ok (store.set schema space)

/-- Every other schema is as it was. -/
def Within (schema : String) (store next : Store) : Prop :=
  ∀ other, other ≠ schema → next.get? other = store.get? other

theorem Within.refl (schema : String) (store : Store) : Within schema store store :=
  fun _ _ => rfl

theorem Within.trans {schema : String} {a b c : Store} (first : Within schema a b)
    (second : Within schema b c) : Within schema a c := by
  intro other apart
  exact (second other apart).trans (first other apart)

theorem execute_ok {server : Server} {schema : String} {action : Action} {store next : Store}
    (done : execute server schema action store = .ok next) :
    action.apply (store.get? schema) = some (next.get? schema) ∧ Within schema store next := by
  rw [execute] at done
  split at done
  · cases done
  · split at done
    · cases done
    · rename_i gone
      cases done
      refine ⟨?_, fun other apart => ?_⟩
      · rw [gone, Dictionary.get?_erase, if_pos rfl]
      · rw [Dictionary.get?_erase, if_neg apart]
    · rename_i space left
      cases done
      refine ⟨?_, fun other apart => ?_⟩
      · rw [left, Dictionary.get?_set_self]
      · rw [Dictionary.get?_set_ne _ apart]

/-- What a server raises is no error of the domain. -/
theorem execute_error {server : Server} {schema : String} {action : Action} {store : Store}
    {exc : Raised} (failed : execute server schema action store = .error exc) :
    ∃ text, exc = .unexpected text := by
  rw [execute] at failed
  split at failed
  · exact ⟨_, (Except.error.inj failed).symm⟩
  · split at failed
    · exact ⟨_, (Except.error.inj failed).symm⟩
    · cases failed
    · cases failed

end Schemas
