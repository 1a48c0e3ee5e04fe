import Mathlib.Data.Prod.Lex
import Mathlib.Data.String.Basic
import TextToSqlAgent.Core.Dsn
import TextToSqlAgent.Core.Exceptions
import TextToSqlAgent.Library.Counting
import TextToSqlAgent.Library.Fallible
import TextToSqlAgent.Library.Runs
import TextToSqlAgent.Validation.Catalog

/-!
# Connections and components

Opened on demand, cached, and injected. The read-only ones are proved first: the
server is asked what the role may do, and a role that may write is refused. The
machine here runs any accesses in any order, over a server that may answer anything.
-/

namespace Resources

open Exceptions Python Dsn Patterns Catalog Runs Fallible

/-! ## What a role may do -/

inductive Privilege
  | select
  | insert
  | update
  | delete
  | truncate
  deriving DecidableEq, Repr

/-- A row of `pg_class`, and what `has_table_privilege` says of it. -/
structure Relation where
  schema : String
  name : String
  relkind : Char
  privileges : List Privilege
  deriving DecidableEq, Repr

/-- A row of `pg_namespace`, and what `has_schema_privilege` says of `CREATE`. -/
structure Namespace where
  name : String
  create : Bool
  deriving DecidableEq, Repr

/-- The row of `pg_roles`. -/
structure RoleAttributes where
  superuser : Bool
  createdb : Bool
  createrole : Bool
  bypassrls : Bool
  deriving DecidableEq, Repr

/-- What the server answers a session, or the text of the error it answers with. -/
structure Session where
  attributes : Except String (Option RoleAttributes)
  relations : Except String (List Relation)
  namespaces : Except String (List Namespace)
  transactionReadOnly : Except String (Option String)
  setConfig : Except String Unit

def configuration (message : String) : Raised := .domain { cls := .configurationError, message }

def asked {α : Type} (answer : Except String α) : Except Raised α := answer.mapError .unexpected

def systemSchemas : List String := ["pg_catalog", "information_schema"]

/-- How many offending objects an error names. -/
def maxReported : Nat := 5

def isSystem (schema : String) : Bool :=
  systemSchemas.contains schema || "pg_".toList.isPrefixOf schema.toList

def Privilege.writes (p : Privilege) : Bool := [insert, update, delete, truncate].contains p

def Relation.writable (r : Relation) : Bool :=
  "rpvmf".toList.contains r.relkind && !isSystem r.schema && r.privileges.any Privilege.writes

def Namespace.creatable (n : Namespace) : Bool := !isSystem n.name && n.create

def writableRelations (relations : List Relation) : List Relation :=
  (Counting.sortBy (fun r : Relation => toLex (r.schema, r.name))
    (relations.filter Relation.writable)).take maxReported

def creatableSchemas (namespaces : List Namespace) : List Namespace :=
  (Counting.sortBy Namespace.name (namespaces.filter Namespace.creatable)).take maxReported

def RoleAttributes.problems (row : RoleAttributes) : List String :=
  ([("SUPERUSER (bypasses every grant, including all of the above)", row.superuser),
    ("CREATEDB", row.createdb),
    ("CREATEROLE (can grant itself anything)", row.createrole),
    ("BYPASSRLS (defeats row-level security)", row.bypassrls)].filter Prod.snd).map Prod.fst

/-- `_reject_role_attributes`. -/
def rejectRoleAttributes (row : RoleAttributes) : Except Raised Unit :=
  if row.problems = [] then .ok ()
  else .error (configuration ("DATABASE_RO_URL connects as a role with: " ++
    "; ".intercalate row.problems ++ ". The read-only boundary is enforced by grants, and these " ++
    "attributes are exemptions from grants."))

/-- What is said of relations that can be written. -/
def canWrite (writable : List Relation) : Raised :=
  configuration ("DATABASE_RO_URL can write. The role it connects as holds INSERT, UPDATE, " ++
    "DELETE or TRUNCATE on: " ++
    ", ".intercalate (writable.map fun r => r.schema ++ "." ++ r.name) ++
    ". Generated SQL runs under this role, so it is the boundary that makes every other " ++
    "control a defence in depth rather than the only one. Point DATABASE_RO_URL at the login " ++
    "role migration 002 creates, or revoke the grants.")

def canCreate (creatable : List Namespace) : Raised :=
  configuration ("DATABASE_RO_URL can create objects in: " ++
    ", ".intercalate (creatable.map Namespace.name) ++
    ". CREATE is a write: a role that can add a table can add a trigger, and the read-only " ++
    "guarantee is only as good as the objects it cannot introduce. REVOKE CREATE ON SCHEMA " ++
    "from this role, including the default grant PostgreSQL gives PUBLIC on 'public' in " ++
    "versions before 15.")

def rejectAttributes : Option RoleAttributes → Except Raised Unit
  | some row => rejectRoleAttributes row
  | none => .ok ()

/-- Prove that a session cannot write. What is returned is the second barrier, which is
reported and not required. -/
def assertReadOnly (session : Session) : Except Raised String := do
  rejectAttributes (← asked session.attributes)
  let writable := writableRelations (← asked session.relations)
  let creatable := creatableSchemas (← asked session.namespaces)
  let setting ← asked session.transactionReadOnly
  if writable ≠ [] then .error (canWrite writable)
  else if creatable ≠ [] then .error (canCreate creatable)
  else .ok (setting.getD "unknown")

/-! ## Connections -/

/-- A connection that was opened, and the path its statements search. -/
structure Conn where
  dsn : String
  connectTimeout : Option Nat
  session : Session
  searchPath : Option String := none
  closed : Bool := false

/-- Whether an attempt to connect gives a session, or the text of the driver's error. -/
abbrev Dial := Except String Session

/-- The settings of the connections. -/
structure ResourceSettings where
  databaseUrl : Option String
  databaseRoUrl : Option String
  dbConnectTimeoutMs : Nat
  dbTargetSchema : String
  apiPoolMinSize : Nat
  apiPoolMaxSize : Nat
  dataset : String
  roles_differ : ∀ url ∈ databaseUrl, databaseRoUrl ≠ some url
  pool_sizes : apiPoolMinSize ≤ apiPoolMaxSize

/-- A pool's connections. -/
structure Pool where
  idle : List Nat
  lent : List Nat
  closed : Bool := false

/-- What a server may ask for. -/
inductive Member
  | owner
  | readonly
  | readonlyPool
  | catalog
  | retriever
  deriving DecidableEq, Repr

/-- What an access gave. -/
inductive Reply
  | connection (member : Member) (id : Nat)
  | pool
  | catalog (catalog : SchemaCatalog)
  | retriever
  | raised (member : Member) (exc : Raised)

/-- The connections that were opened, each under its place. -/
abbrev Conns := List Conn

def Conn.close (conn : Conn) : Conn := { conn with closed := true }

def closeConn (conns : Conns) (id : Nat) : Conns := conns.modify id Conn.close

/-- The connections there are, what is cached of them and of the components, and what was
given so far, the last first. -/
structure State where
  conns : Conns := []
  owner : Option Nat := none
  readonly : Option Nat := none
  pool : Option Pool := none
  catalog : Option SchemaCatalog := none
  retriever : Bool := false
  replies : List Reply := []

section Accesses

variable (words : Words) (repr : String → String) (settings : ResourceSettings)

/-- `_scope_schema`. -/
def Conn.scoped (conn : Conn) : Conn := { conn with searchPath := some settings.dbTargetSchema }

/-- A connection to a URL. A timeout of nought would be no timeout. -/
def direct (url : String) (session : Session) : Conn where
  dsn := libpqDsn words url
  connectTimeout := some (max 1 (settings.dbConnectTimeoutMs / 1000))
  session := session

/-- The connection string of the pool. -/
def poolDsn : String := libpqDsn words (settings.databaseRoUrl.getD "None")

/-- A connection of the pool. -/
def pooled (session : Session) : Conn where
  dsn := poolDsn words settings
  connectTimeout := none
  session := session

/-- `_connect`. -/
def connect (url : Option String) (name : String) (dial : Dial) : Except Raised Conn :=
  match url with
  | none => .error (configuration (name ++ " is required to run this MCP server"))
  | some url =>
    match dial with
    | .error text => .error (configuration ("could not connect using " ++ name ++ ": " ++
        strip (redactDsn words text)))
    | .ok session => .ok (direct words settings url session)

/-- `owner`. -/
def accessOwner (dial : Dial) (s : State) : Except Raised Nat × State :=
  match s.owner with
  | some id => (.ok id, s)
  | none =>
    match connect words settings settings.databaseUrl "DATABASE_URL" dial with
    | .error exc => (.error exc, s)
    | .ok conn =>
      (.ok s.conns.length, { s with conns := s.conns ++ [conn], owner := some s.conns.length })

/-- `_prepare_pooled`: proved, then scoped. -/
def prepare (conn : Conn) : Except Raised Conn := do
  let _ ← assertReadOnly conn.session
  asked conn.session.setConfig
  return conn.scoped settings

/-- A new connection among the others, closed again where it cannot be prepared. -/
def takeIn (conn : Conn) (conns : Conns) : Except Raised Nat × Conns :=
  match prepare settings conn with
  | .error exc => (.error exc, conns ++ [conn.close])
  | .ok ready => (.ok conns.length, conns ++ [ready])

/-- `readonly`. -/
def accessReadonly (dial : Dial) (s : State) : Except Raised Nat × State :=
  match s.readonly with
  | some id => (.ok id, s)
  | none =>
    match connect words settings settings.databaseRoUrl "DATABASE_RO_URL" dial with
    | .error exc => (.error exc, s)
    | .ok conn =>
      match takeIn settings conn s.conns with
      | (.error exc, conns) => (.error exc, { s with conns := conns })
      | (.ok id, conns) => (.ok id, { s with conns := conns, readonly := some id })

/-- One more connection of a pool, where one is got and can be prepared. -/
def grow (dial : Dial) (idle : List Nat) (conns : Conns) : List Nat × Conns :=
  match dial with
  | .error _ => (idle, conns)
  | .ok session =>
    match takeIn settings (pooled words settings session) conns with
    | (.error _, conns) => (idle, conns)
    | (.ok id, conns) => (idle ++ [id], conns)

/-- The attempts of a pool that opens, until it has the connections it is to begin with. -/
def fill : List Dial → List Nat → Conns → List Nat × Conns
  | [], idle, conns => (idle, conns)
  | dial :: dials, idle, conns =>
    if settings.apiPoolMinSize ≤ idle.length then (idle, conns)
    else
      let (idle, conns) := grow words settings dial idle conns
      fill dials idle conns

/-- `readonly_pool`: `dials` is what comes of the attempts in the time there is, and
`text` what the pool says where they were too few. -/
def accessPool (dials : List Dial) (text : String) (s : State) : Except Raised Unit × State :=
  match s.pool with
  | some _ => (.ok (), s)
  | none =>
    let (idle, conns) := fill words settings dials [] s.conns
    if settings.apiPoolMinSize ≤ idle.length then
      (.ok (), { s with conns := conns, pool := some ⟨idle, [], false⟩ })
    else (.error (configuration ("could not open the read-only connection pool using " ++
      "DATABASE_RO_URL: " ++ strip (redactDsn words text))),
      { s with conns := idle.foldl closeConn conns })

def noCatalogRows : Raised :=
  configuration ("no catalog rows for dataset " ++ repr settings.dataset ++
    ". Run the indexer before starting the MCP servers -- every tool that resolves an " ++
    "identifier would otherwise reject every identifier.")

/-- `catalog`. What was read is cached before it is looked at. -/
def accessCatalog (dial : Dial) (loaded : Except String SchemaCatalog) (s : State) :
    Except Raised SchemaCatalog × State :=
  match s.catalog with
  | some catalog => (.ok catalog, s)
  | none =>
    match accessOwner words settings dial s with
    | (.error exc, s) => (.error exc, s)
    | (.ok _, s) =>
      match asked loaded with
      | .error exc => (.error exc, s)
      | .ok catalog =>
        let s := { s with catalog := some catalog }
        if catalog.isEmpty then (.error (noCatalogRows repr settings), s) else (.ok catalog, s)

/-- `retriever`. -/
def accessRetriever (embedder : Except String Unit) (dial : Dial) (s : State) :
    Except Raised Unit × State :=
  if s.retriever then (.ok (), s)
  else
    match asked embedder with
    | .error exc => (.error exc, s)
    | .ok _ =>
      match accessOwner words settings dial s with
      | (.error exc, s) => (.error exc, s)
      | (.ok _, s) => (.ok (), { s with retriever := true })

/-- `close`. A pool closes what is not lent, and the rest as it comes back. -/
def closeResources (s : State) : State :=
  let s := match s.pool with
    | some pool => { s with
        conns := pool.idle.foldl closeConn s.conns
        pool := some ⟨[], pool.lent, true⟩ }
    | none => s
  { s with conns := (s.owner.toList ++ s.readonly.toList).foldl closeConn s.conns }

/-! ## Runs of accesses -/

/-- What the process does with its resources, and what the server and the pool answer. -/
inductive Access
  | owner (dial : Dial)
  | readonly (dial : Dial)
  | readonlyPool (dials : List Dial) (text : String)
  | catalog (dial : Dial) (loaded : Except String SchemaCatalog)
  | retriever (embedder : Except String Unit) (dial : Dial)
  /-- The pool connects once more. -/
  | grow (dial : Dial)
  /-- A caller takes a connection out of the pool. -/
  | lend
  | giveBack (id : Nat) (broken : Bool)
  /-- The pool closes a connection that is too old. -/
  | expire (id : Nat)
  | close

def given {α : Type} (member : Member) (reply : α → Reply) : Except Raised α × State → State
  | (.ok value, s) => { s with replies := reply value :: s.replies }
  | (.error exc, s) => { s with replies := .raised member exc :: s.replies }

/-- What the pool does of its own or for a caller. It connects and lends while it is open. -/
def stepPool (pool : Pool) (s : State) : Access → Option State
  | .grow dial =>
    if pool.closed = false ∧ pool.idle.length + pool.lent.length < settings.apiPoolMaxSize then
      let (idle, conns) := grow words settings dial pool.idle s.conns
      some { s with conns := conns, pool := some { pool with idle := idle } }
    else none
  | .lend =>
    match pool.idle with
    | [] => none
    | id :: idle =>
      some { s with
        pool := some { pool with idle := idle, lent := id :: pool.lent }
        replies := .connection .readonlyPool id :: s.replies }
  | .giveBack id broken =>
    if id ∈ pool.lent then
      let lent := pool.lent.erase id
      if broken || pool.closed then
        some { s with conns := closeConn s.conns id, pool := some { pool with lent := lent } }
      else some { s with pool := some { pool with idle := pool.idle ++ [id], lent := lent } }
    else none
  | .expire id =>
    if id ∈ pool.idle then
      some { s with
        conns := closeConn s.conns id
        pool := some { pool with idle := pool.idle.erase id } }
    else none
  | _ => none

def step (s : State) : Access → Option State
  | .owner dial => some (given .owner (.connection .owner) (accessOwner words settings dial s))
  | .readonly dial =>
    some (given .readonly (.connection .readonly) (accessReadonly words settings dial s))
  | .readonlyPool dials text =>
    some (given .readonlyPool (fun _ => .pool) (accessPool words settings dials text s))
  | .catalog dial loaded =>
    some (given .catalog .catalog (accessCatalog words repr settings dial loaded s))
  | .retriever embedder dial =>
    some (given .retriever (fun _ => .retriever) (accessRetriever words settings embedder dial s))
  | .close => some (closeResources s)
  | access => s.pool.bind fun pool => stepPool words settings pool s access

end Accesses

/-! ## What an accepted session may do -/

/-- The server answers every question, and no answer lets the role write. -/
structure ReadOnly (session : Session) : Prop where
  attributes : ∃ row, session.attributes = .ok row ∧ ∀ held ∈ row, held.superuser = false ∧
    held.createdb = false ∧ held.createrole = false ∧ held.bypassrls = false
  relations : ∃ relations, session.relations = .ok relations ∧ ∀ r ∈ relations,
    r.relkind ∈ "rpvmf".toList → isSystem r.schema = false → ∀ p ∈ r.privileges, p.writes = false
  namespaces : ∃ namespaces, session.namespaces = .ok namespaces ∧ ∀ n ∈ namespaces,
    isSystem n.name = false → n.create = false
  setting : ∃ setting, session.transactionReadOnly = .ok setting

theorem problems_eq_nil_iff (row : RoleAttributes) : row.problems = [] ↔
    row.superuser = false ∧ row.createdb = false ∧ row.createrole = false ∧
      row.bypassrls = false := by
  obtain ⟨superuser, createdb, createrole, bypassrls⟩ := row
  cases superuser <;> cases createdb <;> cases createrole <;> cases bypassrls <;>
    simp [RoleAttributes.problems]

theorem take_sortBy_eq_nil_iff {α κ : Type} [LinearOrder κ] (key : α → κ) (l : List α) :
    (Counting.sortBy key l).take maxReported = [] ↔ l = [] := by
  have length := (List.perm_insertionSort (fun a b => key a ≤ key b) l).length_eq
  rw [List.take_eq_nil_iff, Counting.sortBy, ← List.length_eq_zero_iff, length,
    List.length_eq_zero_iff]
  exact or_iff_right (by decide)

theorem writable_eq_false_iff (r : Relation) : ¬r.writable = true ↔
    (r.relkind ∈ "rpvmf".toList → isSystem r.schema = false →
      ∀ p ∈ r.privileges, p.writes = false) := by
  rw [Relation.writable, Bool.and_eq_true, Bool.and_eq_true, List.contains_iff_mem,
    Bool.not_eq_true', List.any_eq_true]
  constructor
  · intro none kind user p held
    by_contra writes
    exact none ⟨⟨kind, user⟩, p, held, by simpa using writes⟩
  · rintro all ⟨⟨kind, user⟩, p, held, writes⟩
    rw [all kind user p held] at writes
    cases writes

theorem writableRelations_eq_nil_iff (relations : List Relation) :
    writableRelations relations = [] ↔ ∀ r ∈ relations, r.relkind ∈ "rpvmf".toList →
      isSystem r.schema = false → ∀ p ∈ r.privileges, p.writes = false := by
  rw [writableRelations, take_sortBy_eq_nil_iff, List.filter_eq_nil_iff]
  exact forall₂_congr fun r _ => writable_eq_false_iff r

theorem creatableSchemas_eq_nil_iff (namespaces : List Namespace) :
    creatableSchemas namespaces = [] ↔ ∀ n ∈ namespaces, isSystem n.name = false →
      n.create = false := by
  rw [creatableSchemas, take_sortBy_eq_nil_iff, List.filter_eq_nil_iff]
  refine forall₂_congr fun n _ => ?_
  rw [Namespace.creatable, Bool.and_eq_true, Bool.not_eq_true', not_and, Bool.not_eq_true]

theorem asked_ok_iff {α : Type} {answer : Except String α} {value : α} :
    asked answer = .ok value ↔ answer = .ok value := by
  cases answer <;> simp [asked, Except.mapError]

theorem rejectRoleAttributes_ok_iff {row : RoleAttributes} {u : Unit} :
    rejectRoleAttributes row = .ok u ↔ row.superuser = false ∧ row.createdb = false ∧
      row.createrole = false ∧ row.bypassrls = false := by
  rw [← problems_eq_nil_iff, rejectRoleAttributes]
  split
  · rename_i none
    exact iff_of_true rfl none
  · rename_i some
    exact iff_of_false nofun some

/-- A session is accepted exactly where nothing lets its role write: that only some of the
offending objects are read hides none of them. -/
theorem assertReadOnly_iff (session : Session) :
    (∃ barrier, assertReadOnly session = .ok barrier) ↔ ReadOnly session := by
  constructor
  · rintro ⟨barrier, done⟩
    obtain ⟨row, attributes, done⟩ := bind_ok_iff.mp done
    obtain ⟨_, noProblem, done⟩ := bind_ok_iff.mp done
    obtain ⟨relations, related, done⟩ := bind_ok_iff.mp done
    obtain ⟨namespaces, named, done⟩ := bind_ok_iff.mp done
    obtain ⟨setting, set, done⟩ := bind_ok_iff.mp done
    split_ifs at done with writable creatable
    all_goals try cases done
    refine ⟨⟨row, asked_ok_iff.mp attributes, ?_⟩, ⟨relations, asked_ok_iff.mp related, ?_⟩,
      ⟨namespaces, asked_ok_iff.mp named, ?_⟩, setting, asked_ok_iff.mp set⟩
    · intro held has
      cases has
      exact rejectRoleAttributes_ok_iff.mp noProblem
    · exact (writableRelations_eq_nil_iff relations).mp (not_not.mp writable)
    · exact (creatableSchemas_eq_nil_iff namespaces).mp (not_not.mp creatable)
  · rintro ⟨⟨row, attributes, noProblem⟩, ⟨relations, related, noWrite⟩,
      ⟨namespaces, named, noCreate⟩, setting, set⟩
    refine ⟨setting.getD "unknown", ?_⟩
    refine bind_ok_iff.mpr ⟨row, asked_ok_iff.mpr attributes, bind_ok_iff.mpr ⟨(), ?_, ?_⟩⟩
    · cases row with
      | none => rfl
      | some row => exact rejectRoleAttributes_ok_iff.mpr (noProblem row rfl)
    · refine bind_ok_iff.mpr ⟨relations, asked_ok_iff.mpr related, ?_⟩
      refine bind_ok_iff.mpr ⟨namespaces, asked_ok_iff.mpr named, ?_⟩
      refine bind_ok_iff.mpr ⟨setting, asked_ok_iff.mpr set, ?_⟩
      rw [if_neg (not_not.mpr ((writableRelations_eq_nil_iff relations).mpr noWrite)),
        if_neg (not_not.mpr ((creatableSchemas_eq_nil_iff namespaces).mpr noCreate))]

/-! ## Who holds what is open -/

theorem found_append {conns : Conns} {conn other : Conn} {id : Nat}
    (found : (conns ++ [conn])[id]? = some other) :
    conns[id]? = some other ∨ id = conns.length ∧ other = conn := by
  rw [List.getElem?_append] at found
  split at found
  · exact Or.inl found
  · rename_i beyond
    obtain ⟨bound, rfl⟩ := List.getElem?_eq_some_iff.mp found
    rw [List.length_singleton] at bound
    exact Or.inr ⟨by omega, by simp⟩

theorem append_length (conns : Conns) (conn : Conn) :
    (conns ++ [conn])[conns.length]? = some conn := by
  rw [List.getElem?_append_right le_rfl, Nat.sub_self]
  rfl

/-- Later, the same connections, and some of them may be closed. -/
def Later (conns later : Conns) : Prop :=
  ∀ (id : Nat) (conn : Conn), conns[id]? = some conn →
    ∃ closed, later[id]? = some { conn with closed := closed }

theorem Later.refl (conns : Conns) : Later conns conns := fun _ conn found => ⟨conn.closed, found⟩

theorem Later.trans {conns later last : Conns} (first : Later conns later)
    (second : Later later last) : Later conns last := by
  intro id conn found
  obtain ⟨closed, next⟩ := first id conn found
  obtain ⟨still, last⟩ := second id _ next
  exact ⟨still, last⟩

theorem later_append (conns : Conns) (conn : Conn) : Later conns (conns ++ [conn]) := by
  intro id own found
  have bound := (List.getElem?_eq_some_iff.mp found).1
  exact ⟨own.closed, (List.getElem?_append_left bound).trans found⟩

theorem found_close (conns : Conns) (id other : Nat) : (closeConn conns id)[other]? =
    conns[other]?.map fun conn => if id = other then conn.close else conn :=
  List.getElem?_modify _ _ _ _

theorem later_close (conns : Conns) (id : Nat) : Later conns (closeConn conns id) := by
  intro other conn found
  rw [found_close, found, Option.map_some]
  by_cases same : id = other
  · rw [if_pos same]
    exact ⟨true, rfl⟩
  · rw [if_neg same]
    exact ⟨conn.closed, rfl⟩

theorem later_closeAll (conns : Conns) (ids : List Nat) : Later conns (ids.foldl closeConn conns) := by
  induction ids generalizing conns with
  | nil => exact .refl conns
  | cons id ids ih => exact (later_close conns id).trans (ih _)

def IsOpen (conns : Conns) (id : Nat) : Prop :=
  ∃ conn, conns[id]? = some conn ∧ conn.closed = false

/-- No other connection than these is open, and none of these is there twice; where it is
asked for, they all are open. -/
structure Kept (all : Prop) (conns : Conns) (ids : List Nat) : Prop where
  nodup : ids.Nodup
  known : ∀ id ∈ ids, id < conns.length
  none_else : ∀ id, IsOpen conns id → id ∈ ids
  open_ : all → ∀ id ∈ ids, IsOpen conns id

section Keeping

variable {all : Prop} {conns : Conns} {ids others : List Nat} {conn : Conn} {id : Nat}

theorem Kept.perm (kept : Kept all conns ids) (perm : ids.Perm others) : Kept all conns others where
  nodup := perm.nodup_iff.mp kept.nodup
  known id listed := kept.known id (perm.mem_iff.mpr listed)
  none_else id found := perm.mem_iff.mp (kept.none_else id found)
  open_ held id listed := kept.open_ held id (perm.mem_iff.mpr listed)

theorem isOpen_append : IsOpen (conns ++ [conn]) id →
    IsOpen conns id ∨ id = conns.length ∧ conn.closed = false := by
  rintro ⟨other, found, opened⟩
  rcases found_append found with before | ⟨rfl, rfl⟩
  · exact Or.inl ⟨other, before, opened⟩
  · exact Or.inr ⟨rfl, opened⟩

theorem IsOpen.append (opened : IsOpen conns id) (conn : Conn) : IsOpen (conns ++ [conn]) id := by
  obtain ⟨own, found, still⟩ := opened
  have bound := (List.getElem?_eq_some_iff.mp found).1
  exact ⟨own, (List.getElem?_append_left bound).trans found, still⟩

theorem Kept.opened (kept : Kept all conns ids) (opened : conn.closed = false) :
    Kept all (conns ++ [conn]) (conns.length :: ids) where
  nodup := List.nodup_cons.mpr ⟨fun listed => (kept.known _ listed).ne rfl, kept.nodup⟩
  known id listed := by
    rw [List.length_append, List.length_singleton]
    rcases List.mem_cons.mp listed with rfl | held
    · omega
    · have before := kept.known id held
      omega
  none_else id found := by
    rcases isOpen_append found with before | ⟨rfl, -⟩
    · exact List.mem_cons_of_mem _ (kept.none_else id before)
    · exact List.mem_cons_self
  open_ held id listed := by
    rcases List.mem_cons.mp listed with rfl | before
    · exact ⟨conn, append_length conns conn, opened⟩
    · exact (kept.open_ held id before).append conn

theorem Kept.refused (kept : Kept all conns ids) (closed : conn.closed = true) :
    Kept all (conns ++ [conn]) ids where
  nodup := kept.nodup
  known id listed := by
    have before := kept.known id listed
    rw [List.length_append]
    omega
  none_else id found := by
    rcases isOpen_append found with before | ⟨-, opened⟩
    · exact kept.none_else id before
    · rw [closed] at opened
      cases opened
  open_ held id listed := (kept.open_ held id listed).append conn

theorem isOpen_close {other : Nat} : IsOpen (closeConn conns id) other ↔
    other ≠ id ∧ IsOpen conns other := by
  rw [IsOpen, found_close]
  by_cases same : id = other
  · refine iff_of_false ?_ fun apart => apart.1 same.symm
    rintro ⟨conn, found, opened⟩
    obtain ⟨before, -, rfl⟩ := Option.map_eq_some_iff.mp found
    rw [if_pos same] at opened
    cases opened
  · simp [IsOpen, same, Ne.symm same]

theorem Kept.close (kept : Kept all conns (id :: ids)) : Kept all (closeConn conns id) ids where
  nodup := (List.nodup_cons.mp kept.nodup).2
  known other listed := by
    rw [closeConn, List.length_modify]
    exact kept.known other (List.mem_cons_of_mem _ listed)
  none_else other found := by
    obtain ⟨apart, before⟩ := isOpen_close.mp found
    exact (List.mem_cons.mp (kept.none_else other before)).resolve_left apart
  open_ held other listed := by
    refine isOpen_close.mpr ⟨?_, kept.open_ held other (List.mem_cons_of_mem _ listed)⟩
    rintro rfl
    exact (List.nodup_cons.mp kept.nodup).1 listed

theorem Kept.closeAll (kept : Kept all conns (ids ++ others)) :
    Kept all (ids.foldl closeConn conns) others := by
  induction ids generalizing conns with
  | nil => exact kept
  | cons id ids ih => exact ih kept.close

end Keeping

/-! ## What is handed out -/

section Handing

variable (words : Words) (settings : ResourceSettings)

/-- A connection of the read-only string whose session cannot write, on the path of the
target schema. -/
def Proved (conns : Conns) (id : Nat) : Prop :=
  ∃ conn, conns[id]? = some conn ∧ ReadOnly conn.session ∧
    conn.searchPath = some settings.dbTargetSchema ∧ conn.dsn = poolDsn words settings

variable {words settings}

theorem Proved.later {conns later : Conns} {id : Nat} (proved : Proved words settings conns id)
    (next : Later conns later) : Proved words settings later id := by
  obtain ⟨conn, found, readOnly, path, dsn⟩ := proved
  obtain ⟨closed, now⟩ := next id conn found
  exact ⟨_, now, readOnly, path, dsn⟩

/-- A connection is admitted proved and scoped, or refused and closed. -/
theorem admit_cases (settings : ResourceSettings) (conn : Conn) (conns : Conns) :
    (∃ exc, takeIn settings conn conns = (.error exc, conns ++ [conn.close])) ∨
      ReadOnly conn.session ∧
        takeIn settings conn conns = (.ok conns.length, conns ++ [conn.scoped settings]) := by
  rw [takeIn]
  cases prepared : prepare settings conn with
  | error exc => exact Or.inl ⟨exc, rfl⟩
  | ok ready =>
    obtain ⟨barrier, accepted, rest⟩ := bind_ok_iff.mp prepared
    obtain ⟨_, -, same⟩ := bind_ok_iff.mp rest
    obtain rfl := Except.ok.inj same
    exact Or.inr ⟨(assertReadOnly_iff _).mp ⟨barrier, accepted⟩, rfl⟩

theorem proved_scoped {conn : Conn} (conns : Conns) (readOnly : ReadOnly conn.session)
    (dsn : conn.dsn = poolDsn words settings) :
    Proved words settings (conns ++ [conn.scoped settings]) conns.length :=
  ⟨_, append_length conns _, readOnly, rfl, dsn⟩

/-- Connections that wait in a pool, beside others that are held elsewhere. -/
structure Stocked (words : Words) (settings : ResourceSettings) (all : Prop) (others : List Nat)
    (idle : List Nat) (conns : Conns) : Prop where
  kept : Kept all conns (idle ++ others)
  proved : ∀ id ∈ idle, Proved words settings conns id

theorem Stocked.grow {all : Prop} {others idle : List Nat} {conns : Conns}
    (stocked : Stocked words settings all others idle conns) (dial : Dial) :
    Stocked words settings all others (grow words settings dial idle conns).1
        (grow words settings dial idle conns).2 ∧
      Later conns (grow words settings dial idle conns).2 ∧
      (Resources.grow words settings dial idle conns).1.length ≤ idle.length + 1 := by
  cases dial with
  | error text => exact ⟨stocked, .refl conns, Nat.le_succ _⟩
  | ok session =>
    simp only [Resources.grow]
    rcases admit_cases settings (pooled words settings session) conns with ⟨exc, done⟩ | ⟨readOnly, done⟩
    · rw [done]
      have later := later_append conns (pooled words settings session).close
      exact ⟨⟨stocked.kept.refused rfl, fun id listed => (stocked.proved id listed).later later⟩,
        later, Nat.le_succ _⟩
    · rw [done]
      have later := later_append conns ((pooled words settings session).scoped settings)
      refine ⟨⟨?_, fun id listed => ?_⟩, later, by simp⟩
      · refine (stocked.kept.opened rfl).perm ?_
        rw [List.append_assoc, List.singleton_append]
        exact List.perm_middle.symm
      · rcases List.mem_append.mp listed with before | new
        · exact (stocked.proved id before).later later
        · obtain rfl := List.mem_singleton.mp new
          exact proved_scoped conns readOnly rfl

theorem Stocked.fill {all : Prop} {others : List Nat} (dials : List Dial) {idle : List Nat}
    {conns : Conns} (stocked : Stocked words settings all others idle conns)
    (few : idle.length ≤ settings.apiPoolMinSize) :
    Stocked words settings all others (fill words settings dials idle conns).1
        (fill words settings dials idle conns).2 ∧
      Later conns (fill words settings dials idle conns).2 ∧
      (Resources.fill words settings dials idle conns).1.length ≤ settings.apiPoolMinSize := by
  induction dials generalizing idle conns with
  | nil => exact ⟨stocked, .refl conns, few⟩
  | cons dial dials ih =>
    rw [Resources.fill]
    split
    · exact ⟨stocked, .refl conns, few⟩
    · rename_i fewer
      obtain ⟨next, later, one⟩ := stocked.grow dial
      obtain ⟨last, rest, enough⟩ := ih next (by omega)
      exact ⟨last, later.trans rest, enough⟩

end Handing

/-! ## What every access keeps -/

def Pool.all (pool : Pool) : List Nat := pool.idle ++ pool.lent

def State.ofPool (s : State) : List Nat := (s.pool.map Pool.all).getD []

/-- Whatever holds a connection. -/
def State.holders (s : State) : List Nat := s.owner.toList ++ (s.readonly.toList ++ s.ofPool)

section Machine

variable {words : Words} {repr : String → String} {settings : ResourceSettings}

/-- What is open is held, in one place; what is for reading is proved, and so is what was
handed out for it. -/
structure Sound (words : Words) (settings : ResourceSettings) (all : Prop) (s : State) : Prop where
  kept : Kept all s.conns s.holders
  proved : ∀ id ∈ s.readonly.toList ++ s.ofPool, Proved words settings s.conns id
  handed : ∀ source id, .connection source id ∈ s.replies → source ≠ .owner →
    Proved words settings s.conns id
  small : s.ofPool.length ≤ settings.apiPoolMaxSize

variable {all : Prop} {s t : State}

theorem sound_fresh : Sound words settings all {} where
  kept := ⟨.nil, nofun, fun id opened => by simp [IsOpen] at opened, nofun⟩
  proved := nofun
  handed := nofun
  small := Nat.zero_le _

/-- Other connections, and the same of everything that refers to them. -/
theorem Sound.later (sound : Sound words settings all s) {conns : Conns}
    (kept : Kept all conns s.holders) (later : Later s.conns conns) :
    Sound words settings all { s with conns := conns } where
  kept := kept
  proved id listed := (sound.proved id listed).later later
  handed source id listed apart := (sound.handed source id listed apart).later later
  small := sound.small

theorem Sound.reply (sound : Sound words settings all s) {r : Reply}
    (proved : ∀ source id, r = .connection source id → source ≠ .owner →
      Proved words settings s.conns id) :
    Sound words settings all { s with replies := r :: s.replies } where
  kept := sound.kept
  proved := sound.proved
  handed source id listed apart := by
    rcases List.mem_cons.mp listed with new | before
    · exact proved source id new.symm apart
    · exact sound.handed source id before apart
  small := sound.small

theorem Sound.given {α : Type} {member : Member} {reply : α → Reply}
    {outcome : Except Raised α × State}
    (sound : Sound words settings all outcome.2)
    (proved : ∀ value, outcome.1 = .ok value → ∀ source id, reply value = .connection source id →
      source ≠ .owner → Proved words settings outcome.2.conns id) :
    Sound words settings all (given member reply outcome) := by
  obtain ⟨result, s⟩ := outcome
  cases result with
  | error exc => exact sound.reply nofun
  | ok value => exact sound.reply (proved value rfl)

theorem connect_ok {url : Option String} {name : String} {dial : Dial} {conn : Conn}
    (done : connect words settings url name dial = .ok conn) :
    ∃ own session, url = some own ∧ conn = direct words settings own session := by
  cases url with
  | none => cases done
  | some own =>
    cases dial with
    | error text => cases done
    | ok session => exact ⟨own, session, rfl, (Except.ok.inj done).symm⟩

theorem Sound.accessOwner (sound : Sound words settings all s) (dial : Dial) :
    Sound words settings all (accessOwner words settings dial s).2 := by
  rw [Resources.accessOwner]
  split
  · exact sound
  · rename_i held
    cases done : connect words settings settings.databaseUrl "DATABASE_URL" dial with
    | error exc => exact sound
    | ok conn =>
      obtain ⟨own, session, -, rfl⟩ := connect_ok done
      have later := later_append s.conns (direct words settings own session)
      have kept := sound.kept
      rw [State.holders, held] at kept
      exact ⟨kept.opened rfl, fun id listed => (sound.proved id listed).later later,
        fun source id listed apart => (sound.handed source id listed apart).later later,
        sound.small⟩

theorem Sound.accessReadonly (sound : Sound words settings all s) (dial : Dial) :
    Sound words settings all (accessReadonly words settings dial s).2 ∧
      ∀ id, (Resources.accessReadonly words settings dial s).1 = .ok id →
        Proved words settings (Resources.accessReadonly words settings dial s).2.conns id := by
  rw [Resources.accessReadonly]
  split
  · rename_i id held
    refine ⟨sound, fun other same => ?_⟩
    obtain rfl := Except.ok.inj same
    refine sound.proved id (List.mem_append_left _ ?_)
    rw [held]
    exact List.mem_singleton_self id
  · rename_i held
    cases done : connect words settings settings.databaseRoUrl "DATABASE_RO_URL" dial with
    | error exc => exact ⟨sound, nofun⟩
    | ok conn =>
      obtain ⟨own, session, url, rfl⟩ := connect_ok done
      have dsn : (direct words settings own session).dsn = poolDsn words settings := by
        rw [poolDsn, url]
        rfl
      dsimp only
      rcases admit_cases settings (direct words settings own session) s.conns with
        ⟨exc, admitted⟩ | ⟨readOnly, admitted⟩
      · rw [admitted]
        exact ⟨sound.later (sound.kept.refused rfl) (later_append _ _), nofun⟩
      · rw [admitted]
        have later := later_append s.conns ((direct words settings own session).scoped settings)
        have proved := proved_scoped s.conns readOnly dsn
        have kept := sound.kept
        rw [State.holders, held] at kept
        refine ⟨⟨(kept.opened rfl).perm ?_, fun id listed => ?_, fun source id listed apart =>
          (sound.handed source id listed apart).later later, sound.small⟩, fun id same => ?_⟩
        · exact List.perm_middle.symm
        · rcases List.mem_cons.mp listed with rfl | before
          · exact proved
          · refine (sound.proved id ?_).later later
            rw [held]
            exact before
        · obtain rfl := Except.ok.inj same
          exact proved

theorem Sound.accessPool (sound : Sound words settings all s) (dials : List Dial) (text : String) :
    Sound words settings all (accessPool words settings dials text s).2 := by
  rw [Resources.accessPool]
  split
  · exact sound
  · rename_i held
    have none_ : s.ofPool = [] := by rw [State.ofPool, held]; rfl
    have kept := sound.kept
    rw [State.holders, none_, List.append_nil] at kept
    have empty : Stocked words settings all (s.owner.toList ++ s.readonly.toList) [] s.conns :=
      ⟨kept, nofun⟩
    obtain ⟨stocked, later, few⟩ := empty.fill dials (Nat.zero_le _)
    dsimp only
    split
    · refine ⟨stocked.kept.perm ?_, fun id listed => ?_, fun source id listed apart =>
        (sound.handed source id listed apart).later later, ?_⟩
      · refine List.perm_append_comm.trans ?_
        simp [State.holders, State.ofPool, Pool.all]
      · rcases List.mem_append.mp listed with read | fresh
        · exact (sound.proved id (List.mem_append_left _ read)).later later
        · simp only [State.ofPool, Pool.all, Option.map_some, Option.getD_some,
            List.append_nil] at fresh
          exact stocked.proved id fresh
      · have sizes := settings.pool_sizes
        simp only [State.ofPool, Pool.all, Option.map_some, Option.getD_some, List.append_nil]
        omega
    · refine sound.later ?_ (later.trans (later_closeAll _ _))
      have closed := stocked.kept.closeAll
      rw [State.holders, none_, List.append_nil]
      exact closed

theorem Sound.accessCatalog (sound : Sound words settings all s) (dial : Dial)
    (loaded : Except String SchemaCatalog) :
    Sound words settings all (accessCatalog words repr settings dial loaded s).2 := by
  have owned := sound.accessOwner dial
  rw [Resources.accessCatalog]
  split
  · exact sound
  · generalize Resources.accessOwner words settings dial s = outcome at owned ⊢
    obtain ⟨result, s⟩ := outcome
    cases result with
    | error exc => exact owned
    | ok id =>
      cases asked loaded with
      | error exc => exact owned
      | ok catalog =>
        dsimp only
        split <;> exact ⟨owned.kept, owned.proved, owned.handed, owned.small⟩

theorem Sound.accessRetriever (sound : Sound words settings all s) (embedder : Except String Unit)
    (dial : Dial) : Sound words settings all (accessRetriever words settings embedder dial s).2 := by
  have owned := sound.accessOwner dial
  rw [Resources.accessRetriever]
  split
  · exact sound
  · cases asked embedder with
    | error exc => exact sound
    | ok u =>
      generalize Resources.accessOwner words settings dial s = outcome at owned ⊢
      obtain ⟨result, s⟩ := outcome
      cases result with
      | error exc => exact owned
      | ok id => exact ⟨owned.kept, owned.proved, owned.handed, owned.small⟩

/-- A pool in the place of the one before. -/
theorem Sound.withPool (sound : Sound words settings all s) {pool : Pool} {conns : Conns}
    (kept : Kept all conns (s.owner.toList ++ (s.readonly.toList ++ pool.all)))
    (later : Later s.conns conns) (proved : ∀ id ∈ pool.all, Proved words settings conns id)
    (small : pool.all.length ≤ settings.apiPoolMaxSize) :
    Sound words settings all { s with conns := conns, pool := some pool } where
  kept := kept
  proved id listed := by
    rcases List.mem_append.mp listed with read | waits
    · exact (sound.proved id (List.mem_append_left _ read)).later later
    · exact proved id waits
  handed source id listed apart := (sound.handed source id listed apart).later later
  small := small

theorem perm_front (owner reader front others : List Nat) :
    (owner ++ (reader ++ (front ++ others))).Perm (front ++ (owner ++ (reader ++ others))) :=
  ((List.perm_append_comm_assoc reader front others).append_left owner).trans
    (List.perm_append_comm_assoc owner front _)

section Pooling

variable {pool after : Pool}

theorem Sound.kept_pool (sound : Sound words settings all s) (held : s.pool = some pool) :
    Kept all s.conns (s.owner.toList ++ (s.readonly.toList ++ pool.all)) := by
  have kept := sound.kept
  rw [State.holders, State.ofPool, held] at kept
  exact kept

theorem Sound.proved_pool (sound : Sound words settings all s) (held : s.pool = some pool)
    {id : Nat} (listed : id ∈ pool.all) : Proved words settings s.conns id := by
  refine sound.proved id (List.mem_append_right _ ?_)
  rw [State.ofPool, held]
  exact listed

theorem Sound.small_pool (sound : Sound words settings all s) (held : s.pool = some pool) :
    pool.all.length ≤ settings.apiPoolMaxSize := by
  have small := sound.small
  rw [State.ofPool, held] at small
  exact small

/-- A connection that moves within the pool. -/
theorem Sound.moved (sound : Sound words settings all s) (held : s.pool = some pool)
    (perm : pool.all.Perm after.all) :
    Sound words settings all { s with pool := some after } := by
  refine sound.withPool ?_ (.refl _) ?_ ?_
  · exact (sound.kept_pool held).perm ((perm.append_left _).append_left _)
  · exact fun id listed => sound.proved_pool held (perm.mem_iff.mpr listed)
  · exact perm.length_eq ▸ sound.small_pool held

/-- A connection that leaves the pool is closed. -/
theorem Sound.closed (sound : Sound words settings all s) (held : s.pool = some pool) {id : Nat}
    (perm : pool.all.Perm (id :: after.all)) :
    Sound words settings all { s with conns := closeConn s.conns id, pool := some after } := by
  have kept := (sound.kept_pool held).perm ((perm.append_left _).append_left _)
  have small := sound.small_pool held
  rw [perm.length_eq, List.length_cons] at small
  refine sound.withPool (kept.perm (perm_front _ _ [id] _)).close (later_close _ _) ?_ (by omega)
  intro other listed
  have before := sound.proved_pool held (perm.mem_iff.mpr (List.mem_cons_of_mem _ listed))
  exact before.later (later_close _ _)

theorem Sound.stepPool (sound : Sound words settings all s) (held : s.pool = some pool)
    {access : Access} (taken : stepPool words settings pool s access = some t) :
    Sound words settings all t := by
  cases access with
  | grow dial =>
    simp only [Resources.stepPool] at taken
    split_ifs at taken with room
    obtain rfl := Option.some.inj taken
    have stocked : Stocked words settings all (s.owner.toList ++ (s.readonly.toList ++ pool.lent))
        pool.idle s.conns :=
      ⟨(sound.kept_pool held).perm (perm_front _ _ _ _),
        fun id waits => sound.proved_pool held (List.mem_append_left _ waits)⟩
    obtain ⟨grown, later, one⟩ := stocked.grow dial
    refine sound.withPool (grown.kept.perm (perm_front _ _ _ _).symm) later (fun id listed => ?_) ?_
    · rcases List.mem_append.mp listed with waits | lent
      · exact grown.proved id waits
      · exact (sound.proved_pool held (List.mem_append_right _ lent)).later later
    · rw [Pool.all, List.length_append]
      dsimp only
      omega
  | lend =>
    simp only [Resources.stepPool] at taken
    split at taken
    · cases taken
    · rename_i id idle waiting
      obtain rfl := Option.some.inj taken
      have moved : pool.all.Perm (Pool.all ⟨idle, id :: pool.lent, pool.closed⟩) := by
        rw [Pool.all, waiting]
        exact List.perm_middle.symm
      refine (sound.moved held moved).reply fun source other same _ => ?_
      obtain ⟨-, rfl⟩ := Reply.connection.inj same
      exact sound.proved_pool held (moved.mem_iff.mpr (List.mem_append_right _ List.mem_cons_self))
  | giveBack id broken =>
    simp only [Resources.stepPool] at taken
    split_ifs at taken with lent gone
    · obtain rfl := Option.some.inj taken
      refine sound.closed held ?_
      exact ((List.perm_cons_erase lent).append_left _).trans List.perm_middle
    · obtain rfl := Option.some.inj taken
      refine sound.moved held ?_
      rw [Pool.all, Pool.all, List.append_assoc]
      exact (List.perm_cons_erase lent).append_left _
  | expire id =>
    simp only [Resources.stepPool] at taken
    split_ifs at taken with waits
    obtain rfl := Option.some.inj taken
    exact sound.closed held ((List.perm_cons_erase waits).append_right _)
  | owner dial => cases taken
  | readonly dial => cases taken
  | readonlyPool dials text => cases taken
  | catalog dial loaded => cases taken
  | retriever embedder dial => cases taken
  | close => cases taken

end Pooling

theorem isOpen_closeAll {conns : Conns} {ids : List Nat} {id : Nat} :
    IsOpen (ids.foldl closeConn conns) id ↔ id ∉ ids ∧ IsOpen conns id := by
  induction ids generalizing conns with
  | nil => simp
  | cons first ids ih =>
    rw [List.foldl_cons, ih, isOpen_close, List.mem_cons]
    tauto

theorem length_closeAll (conns : Conns) (ids : List Nat) :
    (ids.foldl closeConn conns).length = conns.length := by
  induction ids generalizing conns with
  | nil => rfl
  | cons first ids ih => rw [List.foldl_cons, ih, closeConn, List.length_modify]

/-- Closing what stays referred to. -/
theorem Sound.shut (sound : Sound words settings all s) (ids : List Nat) :
    Sound words settings False { s with conns := ids.foldl closeConn s.conns } := by
  refine ⟨⟨sound.kept.nodup, ?_, ?_, False.elim⟩, fun id listed => ?_,
    fun source id listed apart => ?_, sound.small⟩
  · intro id listed
    rw [length_closeAll]
    exact sound.kept.known id listed
  · exact fun id opened => sound.kept.none_else id (isOpen_closeAll.mp opened).2
  · exact (sound.proved id listed).later (later_closeAll _ _)
  · exact (sound.handed source id listed apart).later (later_closeAll _ _)

theorem Sound.closeResources (sound : Sound words settings all s) :
    Sound words settings False (closeResources s) := by
  rw [Resources.closeResources]
  split
  · rename_i pool held
    have kept := (sound.kept_pool held).perm (perm_front _ _ _ _)
    have small := sound.small_pool held
    rw [Pool.all, List.length_append] at small
    have rest : Sound words settings all { s with
        conns := pool.idle.foldl closeConn s.conns
        pool := some ⟨[], pool.lent, true⟩ } := by
      refine sound.withPool kept.closeAll (later_closeAll _ _) (fun id lent => ?_) ?_
      · exact (sound.proved_pool held (List.mem_append_right _ lent)).later (later_closeAll _ _)
      · exact le_trans (Nat.le_add_left _ _) small
    exact rest.shut _
  · exact sound.shut _

theorem Sound.mono {fewer : Prop} (sound : Sound words settings all s) (of : fewer → all) :
    Sound words settings fewer s where
  kept := ⟨sound.kept.nodup, sound.kept.known, sound.kept.none_else,
    fun held => sound.kept.open_ (of held)⟩
  proved := sound.proved
  handed := sound.handed
  small := sound.small

theorem Sound.step {access : Access} (sound : Sound words settings all s)
    (keeps : all → access ≠ .close) (taken : step words repr settings s access = some t) :
    Sound words settings all t := by
  have pools
      (taken : (s.pool.bind fun pool => Resources.stepPool words settings pool s access) = some t) :
      Sound words settings all t := by
    obtain ⟨pool, held, taken⟩ := Option.bind_eq_some_iff.mp taken
    exact sound.stepPool held taken
  cases access with
  | owner dial =>
    obtain rfl := Option.some.inj taken
    refine (sound.accessOwner dial).given fun value _ source id same apart => ?_
    exact absurd (Reply.connection.inj same).1.symm apart
  | readonly dial =>
    obtain rfl := Option.some.inj taken
    obtain ⟨read, proved⟩ := sound.accessReadonly dial
    refine read.given fun value done source id same _ => ?_
    exact (Reply.connection.inj same).2 ▸ proved value done
  | readonlyPool dials text =>
    obtain rfl := Option.some.inj taken
    exact (sound.accessPool dials text).given fun value _ source id same => by cases same
  | catalog dial loaded =>
    obtain rfl := Option.some.inj taken
    exact (sound.accessCatalog dial loaded).given fun value _ source id same => by cases same
  | retriever embedder dial =>
    obtain rfl := Option.some.inj taken
    exact (sound.accessRetriever embedder dial).given fun value _ source id same => by cases same
  | close =>
    obtain rfl := Option.some.inj taken
    exact sound.closeResources.mono fun held => keeps held rfl
  | grow dial => exact pools taken
  | lend => exact pools taken
  | giveBack id broken => exact pools taken
  | expire id => exact pools taken

theorem sound_run {accesses : List Access}
    (reached : run (step words repr settings) {} accesses = some s) :
    Sound words settings (∀ access ∈ accesses, access ≠ .close) s := by
  by_cases opened : ∀ access ∈ accesses, access ≠ .close
  · refine Sound.mono ?_ fun _ => trivial
    refine invariant_along (Sound words settings True) (fun s access t sound ok taken => ?_)
      sound_fresh (along_of_forall opened) reached
    exact sound.step (fun _ => ok) taken
  · refine Sound.mono ?_ opened
    exact invariant (Sound words settings False) (fun s access t sound taken =>
      sound.step False.elim taken) sound_fresh reached

theorem isOpen_closed {id : Nat} (opened : IsOpen (closeResources s).conns id) :
    IsOpen s.conns id ∧ id ∉ s.owner.toList ++ s.readonly.toList ∧
      ∀ pool, s.pool = some pool → id ∉ pool.idle := by
  rw [closeResources] at opened
  cases held : s.pool with
  | none =>
    rw [held] at opened
    obtain ⟨single, before⟩ := isOpen_closeAll.mp opened
    exact ⟨before, single, nofun⟩
  | some pool =>
    rw [held] at opened
    obtain ⟨single, before⟩ := isOpen_closeAll.mp opened
    obtain ⟨waits, was⟩ := isOpen_closeAll.mp before
    refine ⟨was, single, fun other same => ?_⟩
    exact Option.some.inj same ▸ waits

/-- A role that may read one table. -/
def readerSession : Session where
  attributes := .ok (some ⟨false, false, false, false⟩)
  relations := .ok [⟨"shop", "orders", 'r', [.select]⟩]
  namespaces := .ok [⟨"shop", false⟩]
  transactionReadOnly := .ok (some "on")
  setConfig := .ok ()

def readerSettings : ResourceSettings where
  databaseUrl := some "postgresql://owner@db/shop"
  databaseRoUrl := some "postgresql://reader@db/shop"
  dbConnectTimeoutMs := 5000
  dbTargetSchema := "shop"
  apiPoolMinSize := 1
  apiPoolMaxSize := 8
  dataset := "shop"
  roles_differ := by decide
  pool_sizes := by decide

theorem readOnly_reader : ReadOnly readerSession where
  attributes := ⟨_, rfl, by decide⟩
  relations := ⟨_, rfl, by decide⟩
  namespaces := ⟨_, rfl, by decide⟩
  setting := ⟨_, rfl⟩

/-- No connection is lost: at every moment each open one is held in exactly one place, until
`close` each that is held is open, the pool has at most as many as it may, and right after
`close` none is open but those that callers of the pool still have. -/
theorem none_lost {accesses : List Access}
    (reached : run (step words repr settings) {} accesses = some s) :
    s.holders.Nodup ∧ (∀ id, IsOpen s.conns id → id ∈ s.holders) ∧
      ((∀ access ∈ accesses, access ≠ .close) → ∀ id ∈ s.holders, IsOpen s.conns id) ∧
      s.ofPool.length ≤ settings.apiPoolMaxSize ∧
      ∀ id, IsOpen (closeResources s).conns id → ∃ pool, s.pool = some pool ∧ id ∈ pool.lent := by
  have sound := sound_run reached
  refine ⟨sound.kept.nodup, sound.kept.none_else, sound.kept.open_, sound.small, ?_⟩
  intro id opened
  obtain ⟨before, single, waits⟩ := isOpen_closed opened
  have held := sound.kept.none_else id before
  rw [State.holders, ← List.append_assoc, List.mem_append] at held
  have ofPool := held.resolve_left single
  cases has : s.pool with
  | none =>
    rw [State.ofPool, has] at ofPool
    cases ofPool
  | some pool =>
    rw [State.ofPool, has] at ofPool
    exact ⟨pool, rfl, (List.mem_append.mp ofPool).resolve_left (waits pool has)⟩

theorem none_lost_reader : ∃ s, run (step plainWords id readerSettings) {}
    [.owner (.ok readerSession)] = some s ∧ ∀ id, IsOpen (closeResources s).conns id →
      ∃ pool, s.pool = some pool ∧ id ∈ pool.lent := by
  obtain ⟨s, reached⟩ : ∃ s, run (step plainWords id readerSettings) {}
    [.owner (.ok readerSession)] = some s := ⟨_, rfl⟩
  exact ⟨s, reached, (none_lost reached).2.2.2.2⟩

end Machine

end Resources
