import TextToSqlAgent.Benchmark.Convert

/-!
# Converting every database of a folder

`command_convert` goes through the databases it selects. An error of the
benchmark hierarchy is reported and counted, and ends the run unless it is to
keep going; any other error ends it at once.
-/

namespace Load

open Python Exceptions Identifiers SqliteSource Plan Schemas Convert

/-! ## The databases of a folder -/

/-- An entry of a folder, with the files in it where it is a directory. -/
structure FolderEntry where
  name : String
  files : Option (List String)

/-- A folder; no two of its entries have one name. -/
structure Folder where
  entries : List FolderEntry
  distinct : (entries.map FolderEntry.name).Nodup

/-- The database file of a directory, whatever its suffix. -/
def candidate? (root : String) (entry : FolderEntry) : Option (String × String) :=
  match entry.files with
  | none => none
  | some files =>
    ([".sqlite", ".sqlite3", ".db"].find? fun suffix => files.contains (entry.name ++ suffix)).map
      fun suffix => (entry.name, root ++ "/" ++ entry.name ++ "/" ++ entry.name ++ suffix)

/-- Every `<db_id>/<db_id>.sqlite` under a folder, if it is one. -/
def findDatabases (root : String) (folder : Option Folder) : Dictionary String String :=
  match folder with
  | none => .empty
  | some folder =>
    .ofList ((folder.entries.insertionSort fun a b => a.name ≤ b.name).filterMap (candidate? root))

/-- The arguments of a run. -/
structure ConvertArgs where
  databases : String
  pre : String := ""
  only : Option (List String) := none
  limit : Option Int := none
  replace : Bool := false
  keepGoing : Bool := false

/-- How many of so many entries `[:limit]` keeps. -/
def sliceLength (count : Nat) (limit : Int) : Nat :=
  if limit < 0 then count - limit.natAbs else limit.toNat

def reprList (unicode : Unicode) (names : List String) : String :=
  "[" ++ ", ".intercalate (names.map (repr unicode)) ++ "]"

def benchmarkError (message : String) : DomainError := ⟨.benchmarkError, message, none, none⟩

/-- Narrow the database set, refusing an `--only` name that is not present. -/
def select (unicode : Unicode) (found : Dictionary String String) (only : Option (List String))
    (limit : Option Int) : Except DomainError (Dictionary String String) := do
  let narrowed ← match only with
    | none => pure found
    | some [] => pure found
    | some names =>
      let missing := names.filter fun name => (found.get? name).isNone
      if missing.isEmpty then
        pure (Dictionary.ofList (names.filterMap fun name =>
          (found.get? name).map fun path => (name, path)))
      else
        let shown := reprList unicode (missing.insertionSort fun a b => a ≤ b)
        throw (benchmarkError s!"no such database(s): {shown}")
  match limit with
  | none => return narrowed
  | some limit => return narrowed.take (sliceLength narrowed.entries.length limit)

/-! ## A run -/

/-- What a run needs besides its arguments. -/
structure Loader where
  unicode : Unicode
  numerals : Numerals
  server : Server
  files : String → Option Content
  readonlyRole : String

variable (loader : Loader) (args : ConvertArgs)

/-- Convert one database. -/
def convertOne (dbId path : String) (store : Store) : Except Raised (Store × ConversionReport) := do
  let database ← raising (openDatabase loader.files path dbId)
  let (schema, plans) ← planDatabase loader.unicode loader.numerals database args.pre
  convertDatabase loader.unicode loader.numerals loader.server database schema plans
    loader.readonlyRole args.replace store

inductive Reported
  | converted (report : ConversionReport)
  | failed (dbId error : String)

/-- What a run leaves: the store, its reports, and what it raised, if anything. -/
structure Run where
  store : Store
  reports : List Reported
  raised : Option Raised

def isBenchmarkError : Raised → Option DomainError
  | .domain exc => if exc.cls.isinstance .benchmarkError then some exc else none
  | .unexpected _ => none

/-- The loop over the databases selected. -/
def convertEach : List (String × String) → Store → Run
  | [], store => ⟨store, [], none⟩
  | (dbId, path) :: rest, store =>
    match convertOne loader args dbId path store with
    | .ok (next, report) =>
      let later := convertEach rest next
      { later with reports := .converted report :: later.reports }
    | .error exc =>
      match isBenchmarkError exc with
      | none => ⟨store, [], some exc⟩
      | some known =>
        if args.keepGoing then
          let later := convertEach rest store
          { later with reports := .failed dbId known.message :: later.reports }
        else ⟨store, [.failed dbId known.message], none⟩

/-- Convert every SQLite database under the folder into its own schema. -/
def commandConvert (folder : Option Folder) (store : Store) : Except DomainError Run := do
  let found := findDatabases args.databases folder
  if found.entries.isEmpty then
    let root := args.databases
    throw (benchmarkError s!"no <name>/<name>.sqlite databases under {root}")
  else
    let selected ← select loader.unicode found args.only args.limit
    return convertEach loader args selected.entries store

namespace Run

variable (run : Run)

/-- The databases reported as converted. -/
def converted : List ConversionReport :=
  run.reports.filterMap fun
    | .converted report => some report
    | .failed _ _ => none

def failures : Nat :=
  run.reports.countP fun
    | .converted _ => false
    | .failed _ _ => true

/-- `EXIT_ERROR` where a failure ended the run. -/
def exitCode : Nat := if run.failures ≠ 0 ∧ !args.keepGoing then 1 else 0

end Run

end Load
