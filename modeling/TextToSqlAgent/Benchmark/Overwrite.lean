import TextToSqlAgent.Benchmark.Load

/-!
# What a conversion run overwrites

With `--replace` a database is loaded over whatever has its schema, and so over
an earlier database of the same run whose name folds alike. A run keeps its own
exactly when no two of the databases it converts do.
-/

namespace Overwrite

open Python Exceptions Identifiers SqliteSource Plan Schemas Convert Load

variable {loader : Loader} {args : ConvertArgs}

/-! ## One database -/

variable (loader args) in
/-- The database at an entry and its plan, where the converter accepts them and
the role it grants to. -/
def prepared? (entry : String × String) : Option (SqliteDatabase × String × List TablePlan) :=
  match openDatabase loader.files entry.2 entry.1 with
  | .error _ => none
  | .ok database =>
    match planDatabase loader.unicode loader.numerals database args.pre,
        toPgIdentifier loader.unicode loader.readonlyRole "role" with
    | .ok (schema, plans), .ok _ => some (database, schema, plans)
    | _, _ => none

variable (loader args) in
/-- The databases a run converts, of those it selects: up to the first failure,
unless it keeps going. -/
def toConvert (selected : List (String × String)) : List (String × String) :=
  if args.keepGoing then selected.filter fun entry => (prepared? loader args entry).isSome
  else selected.takeWhile fun entry => (prepared? loader args entry).isSome

theorem dbId_of_openDatabase {files : String → Option Content} {path dbId : String}
    {database : SqliteDatabase} (opened : openDatabase files path dbId = .ok database) :
    database.dbId = dbId := by
  rw [openDatabase] at opened
  split at opened
  · cases opened
  · cases opened
  · cases opened
    rfl

variable (loader args) in
/-- The store holds the database at an entry under this schema: all its tables
as they were planned, no other, and their rows. -/
def Present (dbId path schema : String) (store : Store) : Prop :=
  ∃ database plans, openDatabase loader.files path dbId = .ok database ∧
    planDatabase loader.unicode loader.numerals database args.pre = .ok (schema, plans) ∧
    Covers database plans ∧ Loaded loader.numerals database plans schema store

theorem schema_of_present {dbId path schema : String} {store : Store}
    (present : Present loader args dbId path schema store) :
    schemaNameFor loader.unicode dbId args.pre = .ok schema := by
  obtain ⟨database, plans, opened, planned, -, -⟩ := present
  have named := schema_of_planDatabase planned
  rwa [dbId_of_openDatabase opened] at named

theorem present_congr {dbId path schema : String} {store next : Store}
    (same : next.get? schema = store.get? schema)
    (present : Present loader args dbId path schema store) :
    Present loader args dbId path schema next := by
  obtain ⟨database, plans, opened, planned, covers, space, found, holds⟩ := present
  exact ⟨database, plans, opened, planned, covers, space, same.trans found, holds⟩

theorem convertOne_ok {dbId path : String} {store next : Store} {report : ConversionReport}
    (done : convertOne loader args dbId path store = .ok (next, report)) :
    (prepared? loader args (dbId, path)).isSome = true ∧ Within report.schema store next ∧
      Present loader args dbId path report.schema next ∧ report.dbId = dbId := by
  obtain ⟨database, opened, done⟩ := Fallible.bind_ok_iff.mp done
  obtain ⟨⟨schema, plans⟩, planned, done⟩ := Fallible.bind_ok_iff.mp done
  have opened := raising_ok_iff.mp opened
  obtain ⟨⟨grantee, role⟩, within, loaded, own, named⟩ := convertDatabase_ok done
  subst named
  refine ⟨?_, within, ⟨database, plans, opened, planned, covers_planDatabase planned, loaded⟩,
    own.trans (dbId_of_openDatabase opened)⟩
  rw [prepared?, opened]
  simp only [planned, role, Option.isSome_some]

/-- With `--replace`, a benchmark error says that the database is not accepted. -/
theorem convertOne_error (replace : args.replace = true) {dbId path : String} {store : Store}
    {exc : DomainError} (failed : convertOne loader args dbId path store = .error (.domain exc)) :
    prepared? loader args (dbId, path) = none := by
  rcases Fallible.bind_error_iff.mp failed with unopened | ⟨database, opened, failed⟩
  · cases found : openDatabase loader.files path dbId with
    | error e => rw [prepared?, found]
    | ok database =>
      rw [found] at unopened
      cases unopened
  · have opened := raising_ok_iff.mp opened
    rcases Fallible.bind_error_iff.mp failed with unplanned | ⟨⟨schema, plans⟩, planned, failed⟩
    · rw [prepared?, opened]
      simp only [unplanned]
    · rw [replace] at failed
      have role := convertDatabase_error failed
      rw [prepared?, opened]
      simp only [planned, role]

/-! ## The loop -/

/-- What the loop does at a database, in a run that raises nothing: it converts it
and goes on, or reports it and goes on, or reports it and stops. -/
theorem convertEach_cons (replace : args.replace = true) {dbId path : String}
    {rest : List (String × String)} {store : Store}
    (completed : (convertEach loader args ((dbId, path) :: rest) store).raised = none) :
    let run := convertEach loader args ((dbId, path) :: rest) store
    (∃ next report, convertOne loader args dbId path store = .ok (next, report) ∧
      (convertEach loader args rest next).raised = none ∧
      run.store = (convertEach loader args rest next).store ∧
      run.converted = report :: (convertEach loader args rest next).converted) ∨
    (prepared? loader args (dbId, path) = none ∧ args.keepGoing = true ∧
      (convertEach loader args rest store).raised = none ∧
      run.store = (convertEach loader args rest store).store ∧
      run.converted = (convertEach loader args rest store).converted) ∨
    (prepared? loader args (dbId, path) = none ∧ args.keepGoing = false ∧
      run.store = store ∧ run.converted = []) := by
  rw [convertEach] at completed ⊢
  cases one : convertOne loader args dbId path store with
  | ok done =>
    obtain ⟨next, report⟩ := done
    rw [one] at completed
    exact Or.inl ⟨next, report, rfl, completed, rfl, rfl⟩
  | error exc =>
    rw [one] at completed
    cases known : isBenchmarkError exc with
    | none =>
      simp only [known] at completed
      cases completed
    | some reported =>
      have refused : prepared? loader args (dbId, path) = none := by
        cases exc with
        | unexpected text => cases known
        | domain exc => exact convertOne_error replace one
      simp only [known] at completed ⊢
      cases going : args.keepGoing with
      | true =>
        rw [going] at completed
        exact Or.inr (Or.inl ⟨refused, rfl, completed, rfl, rfl⟩)
      | false => exact Or.inr (Or.inr ⟨refused, rfl, rfl, rfl⟩)

theorem toConvert_cons_of_prepared {entry : String × String} {rest : List (String × String)}
    (accepted : (prepared? loader args entry).isSome = true) :
    toConvert loader args (entry :: rest) = entry :: toConvert loader args rest := by
  rw [toConvert, toConvert]
  split
  · exact List.filter_cons_of_pos accepted
  · exact List.takeWhile_cons_of_pos accepted

/-- The reports are of the databases to convert, each under its own name. -/
theorem converted_convertEach (replace : args.replace = true) (entries : List (String × String))
    {store : Store} (completed : (convertEach loader args entries store).raised = none) :
    ((convertEach loader args entries store).converted.map fun report =>
        (report.dbId, Except.ok report.schema)) =
      (toConvert loader args entries).map fun entry =>
        (entry.1, schemaNameFor loader.unicode entry.1 args.pre) := by
  induction entries generalizing store with
  | nil =>
    rw [toConvert]
    split <;> rfl
  | cons entry rest ih =>
    obtain ⟨dbId, path⟩ := entry
    rcases convertEach_cons replace completed with
      ⟨next, report, one, later, -, reports⟩ | ⟨refused, going, later, -, reports⟩ |
        ⟨refused, going, -, reports⟩
    · obtain ⟨accepted, -, present, own⟩ := convertOne_ok one
      rw [reports, toConvert_cons_of_prepared accepted, List.map_cons, List.map_cons, ih later,
        schema_of_present present, own]
    · rw [reports, ih later, toConvert, toConvert, if_pos going, if_pos going,
        List.filter_cons_of_neg (by simp [refused])]
    · rw [reports, toConvert, going]
      simp [refused]

/-- A schema that no report names is as it was. -/
theorem store_convertEach (replace : args.replace = true) (entries : List (String × String))
    {store : Store} (completed : (convertEach loader args entries store).raised = none)
    {schema : String}
    (other : ∀ report ∈ (convertEach loader args entries store).converted,
      report.schema ≠ schema) :
    (convertEach loader args entries store).store.get? schema = store.get? schema := by
  induction entries generalizing store with
  | nil => rfl
  | cons entry rest ih =>
    obtain ⟨dbId, path⟩ := entry
    rcases convertEach_cons replace completed with
      ⟨next, report, one, later, left, reports⟩ | ⟨-, -, later, left, reports⟩ |
        ⟨-, -, left, -⟩
    · rw [reports] at other
      have apart := other report List.mem_cons_self
      rw [left, ih later fun r listed => other r (List.mem_cons_of_mem _ listed)]
      exact (convertOne_ok one).2.1 schema fun same => apart same.symm
    · rw [reports] at other
      rw [left, ih later other]
    · rw [left]

/-- Each database stays in its schema, where no two reports name one. -/
theorem present_convertEach (replace : args.replace = true) (entries : List (String × String))
    {store : Store} (completed : (convertEach loader args entries store).raised = none)
    (apart : ((convertEach loader args entries store).converted.map
      ConversionReport.schema).Nodup) :
    ∀ report ∈ (convertEach loader args entries store).converted,
      ∃ path, (report.dbId, path) ∈ entries ∧ Present loader args report.dbId path report.schema
        (convertEach loader args entries store).store := by
  induction entries generalizing store with
  | nil => nofun
  | cons entry rest ih =>
    obtain ⟨dbId, path⟩ := entry
    rcases convertEach_cons replace completed with
      ⟨next, report, one, later, left, reports⟩ | ⟨-, -, later, left, reports⟩ |
        ⟨-, -, -, reports⟩
    · rw [reports, List.map_cons, List.nodup_cons] at apart
      obtain ⟨-, -, present, own⟩ := convertOne_ok one
      have untouched := store_convertEach replace rest later
        fun r listed (same : r.schema = report.schema) =>
          apart.1 (same ▸ List.mem_map_of_mem listed)
      rw [reports, left]
      intro r listed
      rcases List.mem_cons.mp listed with rfl | earlier
      · exact ⟨path, own ▸ List.mem_cons_self, own ▸ present_congr untouched present⟩
      · obtain ⟨p, among, there⟩ := ih later apart.2 r earlier
        exact ⟨p, List.mem_cons_of_mem _ among, there⟩
    · rw [reports] at apart ⊢
      rw [left]
      intro r listed
      obtain ⟨p, among, there⟩ := ih later apart r listed
      exact ⟨p, List.mem_cons_of_mem _ among, there⟩
    · rw [reports]
      nofun

/-! ## A run -/

variable (loader args) in
/-- The databases a run selects. -/
def selected (folder : Option Folder) : List (String × String) :=
  match select loader.unicode (findDatabases args.databases folder) args.only args.limit with
  | .ok found => found.entries
  | .error _ => []

theorem commandConvert_ok {folder : Option Folder} {store : Store} {run : Run}
    (ran : commandConvert loader args folder store = .ok run) :
    run = convertEach loader args (selected loader args folder) store := by
  rw [commandConvert] at ran
  split at ran
  · cases ran
  · obtain ⟨found, narrowed, done⟩ := Fallible.bind_ok_iff.mp ran
    rw [selected, narrowed]
    exact (Except.ok.inj done).symm

variable (loader args) in
/-- Every database a run reports as converted is in its own schema, with its own
tables and rows, and no two of them share one. -/
structure KeepsItsOwn (folder : Option Folder) (run : Run) : Prop where
  present : ∀ report ∈ run.converted, ∃ path,
    (report.dbId, path) ∈ selected loader args folder ∧
      Present loader args report.dbId path report.schema run.store
  apart : (run.converted.map ConversionReport.schema).Nodup

/-- For every folder, prefix and server: a run with `--replace` that completes
keeps its own exactly when no two of the databases it converts have names that
become one schema. -/
theorem keepsItsOwn_iff (replace : args.replace = true) {folder : Option Folder} {store : Store}
    {run : Run} (ran : commandConvert loader args folder store = .ok run)
    (completed : run.raised = none) :
    KeepsItsOwn loader args folder run ↔
      ((toConvert loader args (selected loader args folder)).map fun entry =>
        schemaNameFor loader.unicode entry.1 args.pre).Nodup := by
  obtain rfl := commandConvert_ok ran
  have reports := congrArg (List.map Prod.snd)
    (converted_convertEach replace (selected loader args folder) completed)
  simp only [List.map_map, Function.comp_def] at reports
  have names : (((convertEach loader args (selected loader args folder) store).converted.map
      ConversionReport.schema).map (Except.ok (ε := DomainError))).Nodup ↔
      ((convertEach loader args (selected loader args folder) store).converted.map
        ConversionReport.schema).Nodup :=
    List.nodup_map_iff fun a b same => Except.ok.inj same
  rw [List.map_map, Function.comp_def] at names
  rw [← reports, names]
  constructor
  · intro keeps
    exact keeps.apart
  · intro apart
    exact ⟨present_convertEach replace _ completed apart, apart⟩

private def film (title : String) : Stored where
  type := "table"
  name := "film"
  sql := some "CREATE TABLE film (title TEXT)"
  columns := [⟨"title", "TEXT", 0⟩]
  foreignKeyRows := []
  content := ⟨[[.text title]], none⟩

private def willing : Server where
  refuses _ _ _ := false
  complaint _ _ _ := ""

private def cinema : Loader where
  unicode := plainUnicode
  numerals :=
    { float := fun _ => none
      intOfBytes := fun _ => none
      floatOfBytes := fun _ => none
      reprFloat := fun _ => ""
      decodeReplacing := fun _ => "" }
  server := willing
  files path :=
    if path = "data/Movie/Movie.sqlite" then some (.database [film "Alien"])
    else if path = "data/movie/movie.sqlite" then some (.database [film "Brazil"])
    else if path = "data/city/city.sqlite" then some (.database [film "Metropolis"])
    else none
  readonlyRole := "agent_readonly"

private def replacing : ConvertArgs where
  databases := "data"
  replace := true

private def folder (names : List String) (distinct : names.Nodup) : Folder where
  entries := names.map fun name => ⟨name, some [name ++ ".sqlite"]⟩
  distinct := by
    rw [List.map_map]
    exact (List.map_id names).symm ▸ distinct

private def summary (run : Run) :
    Option Raised × List (String × String) × Option (List (List PgValue)) :=
  (run.raised, run.converted.map fun report => (report.dbId, report.schema),
    ((run.store.get? "movie").bind fun space => space.tables.get? "film").map PgTable.rows)

private theorem run_of_summary (names : List String) (distinct : names.Nodup)
    {shown : Option Raised × List (String × String) × Option (List (List PgValue))}
    (ran : (commandConvert cinema replacing (some (folder names distinct)) .empty).toOption.map
      summary = some shown) :
    ∃ run, commandConvert cinema replacing (some (folder names distinct)) .empty = .ok run ∧
      summary run = shown := by
  obtain ⟨run, done, same⟩ := Option.map_eq_some_iff.mp ran
  exact ⟨run, Fallible.toOption_eq_some_iff.mp done, same⟩

/-- Two names that fold apart. -/
theorem keepsItsOwn_iff_apart :
    ∃ run, commandConvert cinema replacing
        (some (folder ["Movie", "city"] (by decide))) .empty = .ok run ∧
      run.raised = none ∧
      KeepsItsOwn cinema replacing (some (folder ["Movie", "city"] (by decide))) run := by
  have shown : (commandConvert cinema replacing
      (some (folder ["Movie", "city"] (by decide))) .empty).toOption.map summary =
        some (none, [("Movie", "movie"), ("city", "city")], some [[.text "Alien"]]) := by
    decide +kernel
  obtain ⟨run, ran, same⟩ := run_of_summary _ _ shown
  have completed : run.raised = none := congrArg Prod.fst same
  exact ⟨run, ran, completed, (keepsItsOwn_iff rfl ran completed).mpr (by decide +kernel)⟩

/-- `Movie` and `movie` are both reported as converted, and the rows of one are left. -/
theorem second_name_replaces_first :
    ∃ run, commandConvert cinema replacing
        (some (folder ["Movie", "movie"] (by decide))) .empty = .ok run ∧
      run.raised = none ∧
      (run.converted.map fun report => (report.dbId, report.schema)) =
        [("Movie", "movie"), ("movie", "movie")] ∧
      (((run.store.get? "movie").bind fun space => space.tables.get? "film").map PgTable.rows) =
        some [[.text "Brazil"]] ∧
      ¬KeepsItsOwn cinema replacing (some (folder ["Movie", "movie"] (by decide))) run := by
  have shown : (commandConvert cinema replacing
      (some (folder ["Movie", "movie"] (by decide))) .empty).toOption.map summary =
        some (none, [("Movie", "movie"), ("movie", "movie")], some [[.text "Brazil"]]) := by
    decide +kernel
  obtain ⟨run, ran, same⟩ := run_of_summary _ _ shown
  have reports : (run.converted.map fun report => (report.dbId, report.schema)) =
      [("Movie", "movie"), ("movie", "movie")] := congrArg (fun shown => shown.2.1) same
  refine ⟨run, ran, congrArg Prod.fst same, reports, congrArg (fun shown => shown.2.2) same, ?_⟩
  intro keeps
  have schemas := congrArg (List.map Prod.snd) reports
  rw [List.map_map] at schemas
  have apart := keeps.apart
  rw [show run.converted.map ConversionReport.schema = ["movie", "movie"] from schemas] at apart
  exact absurd apart (by decide)

end Overwrite
