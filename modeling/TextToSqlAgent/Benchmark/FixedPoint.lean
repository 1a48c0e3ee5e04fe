import TextToSqlAgent.Benchmark.Unification

/-!
# Where one pass over the foreign keys is enough

Running the unification on its own output changes nothing, whatever the order of
the listing, exactly when every column ends with its inferred type or one that a
column it is linked to was inferred to have.
-/

namespace FixedPoint

open Python Exceptions Identifiers SqliteSource Plan Retyping Propagation Unification

variable {numerals : Numerals} {database : SqliteDatabase} {plans : List TablePlan}

/-! ## Plans with other types -/

theorem cells_retypeTo (plans : List TablePlan) (level : Key → PgType) :
    cells (retypeTo plans level) = (cells plans).map fun cell =>
      (cell.1, (cell.2.1, { cell.2.2 with pgType := level cell.1 })) := by
  simp only [cells, retypeTo, withTypes, List.flatMap_map, List.map_flatMap, List.map_map]
  rfl

theorem links_retypeTo (plans : List TablePlan) (level : Key → PgType) :
    links (retypeTo plans level) = links plans := by
  rw [links, retypeTo, List.flatMap_map]
  rfl

theorem wellNamed_retypeTo (wellNamed : WellNamed plans) (level : Key → PgType) :
    WellNamed (retypeTo plans level) := by
  refine ⟨?_, fun plan listed => ?_, fun plan listed key member => ?_⟩
  · rw [retypeTo, List.map_map]
    exact wellNamed.tables
  · obtain ⟨own, before, rfl⟩ := List.mem_map.mp listed
    rw [withTypes, List.map_map]
    exact wellNamed.columns own before
  · obtain ⟨own, before, rfl⟩ := List.mem_map.mp listed
    exact wellNamed.pairs own before key member

theorem column?_retypeTo (wellNamed : WellNamed plans) (level : Key → PgType) (key : Key) :
    column? (retypeTo plans level) key =
      (column? plans key).map fun place => (place.1, { place.2 with pgType := level key }) := by
  ext place
  rw [(wellNamed_retypeTo wellNamed level).column?_iff, cells_retypeTo, List.mem_map,
    Option.map_eq_some_iff]
  constructor
  · rintro ⟨⟨name, own⟩, listed, same⟩
    obtain ⟨rfl, rfl⟩ := Prod.mk.inj same
    exact ⟨own, wellNamed.column?_iff.mpr listed, rfl⟩
  · rintro ⟨own, found, rfl⟩
    exact ⟨(key, own), wellNamed.column?_iff.mp found, rfl⟩

theorem inferred_retypeTo (wellNamed : WellNamed plans) {level : Key → PgType}
    (above : inferred plans ≤ level) : inferred (retypeTo plans level) = level := by
  funext key
  have higher := above key
  rw [inferred, column?_retypeTo wellNamed]
  rw [inferred] at higher
  cases found : column? plans key with
  | some place => rfl
  | none =>
    rw [found] at higher
    rcases higher.lt_or_eq with lower | same
    · exact absurd lower (not_lt_of_bytes _).2
    · exact same

theorem fits_retypeTo (wellNamed : WellNamed plans) (level : Key → PgType) :
    Fits numerals database (retypeTo plans level) = Fits numerals database plans := by
  funext key pgType
  rw [Fits, Fits, column?_retypeTo wellNamed]
  cases column? plans key with
  | some place => simp [tested]
  | none => simp

theorem testable_retypeTo (wellNamed : WellNamed plans)
    (testable : Testable numerals database plans) {level : Key → PgType}
    (above : inferred plans ≤ level) : Testable numerals database (retypeTo plans level) := by
  intro key other linked place found pgType lower
  rw [links_retypeTo] at linked
  rw [inferred_retypeTo wellNamed above] at lower
  rw [column?_retypeTo wellNamed] at found
  obtain ⟨own, there, rfl⟩ := Option.map_eq_some_iff.mp found
  exact testable key other linked own there pgType ((above key).trans_lt lower)

theorem retypeTo_retypeTo (plans : List TablePlan) (level level' : Key → PgType) :
    retypeTo (retypeTo plans level) level' = retypeTo plans level' := by
  rw [retypeTo, retypeTo, retypeTo, List.map_map]
  refine List.map_congr_left fun plan _ => ?_
  simp only [Function.comp_apply, withTypes, List.map_map]
  rfl

theorem retypeTo_inj (wellNamed : WellNamed plans) {level level' : Key → PgType}
    (above : inferred plans ≤ level) (above' : inferred plans ≤ level')
    (same : retypeTo plans level = retypeTo plans level') : level = level' := by
  rw [← inferred_retypeTo wellNamed above, same, inferred_retypeTo wellNamed above']

/-! ## Tests by type -/

/-- What SQLite holds of the plans' columns. -/
def HeldIn (database : SqliteDatabase) (plans : List TablePlan) : Prop :=
  ∀ plan ∈ plans, ∀ column ∈ plan.columns, Held (valuesOf database plan column)

theorem lawful_fits (wellNamed : WellNamed plans) (held : HeldIn database plans)
    (agrees : Agrees numerals) : Lawful (Fits numerals database plans) := by
  constructor
  · intro x y z
    cases x <;> cases y <;> cases z <;> decide
  · rintro key x y z below higher ⟨place, found, passed⟩
    refine ⟨place, found, ?_⟩
    have numeric : y = z ∨ y = .bigint ∧ z = .double := by
      revert below higher
      cases x <;> cases y <;> cases z <;> decide
    rcases numeric with rfl | ⟨rfl, rfl⟩
    · exact passed
    · obtain ⟨plan, listed, -, source, member, -⟩ :=
        mem_cells_iff.mp (wellNamed.column?_iff.mp found)
      have same (pgType : PgType) : tested numerals database place pgType =
          valuesFit numerals database plan place.2 pgType := by
        rw [valuesFit, tested, source]
      rw [same] at passed ⊢
      obtain ⟨read, each⟩ := valuesFit_iff.mp passed
      exact valuesFit_iff.mpr ⟨read, fun value there => fits_double_of_bigint agrees
        (held plan listed place.2 member) there (each value there)⟩

/-! ## Other listings -/

/-- A plan with its keys in another order. -/
def rekeyed (plan : TablePlan) (keys : List KeyPlan) : TablePlan :=
  { plan with foreignKeys := keys }

/-- The same plans with their keys in other orders, in another order. -/
def Relisted (plans others : List TablePlan) : Prop :=
  ∃ listing : List (TablePlan × List KeyPlan), listing.map Prod.fst = plans ∧
    (∀ entry ∈ listing, entry.1.foreignKeys.Perm entry.2) ∧
    (listing.map fun entry => rekeyed entry.1 entry.2).Perm others

theorem Relisted.cells {others : List TablePlan} (relisted : Relisted plans others) :
    (cells plans).Perm (cells others) := by
  obtain ⟨listing, rfl, -, perm⟩ := relisted
  have same : Unification.cells (listing.map fun entry => rekeyed entry.1 entry.2) =
      Unification.cells (listing.map Prod.fst) := by
    rw [Unification.cells, Unification.cells, List.flatMap_map, List.flatMap_map]
    rfl
  rw [← same]
  exact perm.flatMap_right _

theorem Relisted.links {others : List TablePlan} (relisted : Relisted plans others) :
    (links plans).Perm (links others) := by
  obtain ⟨listing, rfl, each, perm⟩ := relisted
  have moved : (Unification.links (listing.map Prod.fst)).Perm
      (Unification.links (listing.map fun entry => rekeyed entry.1 entry.2)) := by
    rw [Unification.links, Unification.links, List.flatMap_map, List.flatMap_map]
    exact List.Perm.flatMap_left _ fun entry listed => (each entry listed).flatMap_right _
  exact moved.trans (perm.flatMap_right _)

theorem Relisted.wellNamed {others : List TablePlan} (relisted : Relisted plans others)
    (wellNamed : WellNamed plans) : WellNamed others := by
  obtain ⟨listing, rfl, each, perm⟩ := relisted
  refine ⟨?_, fun plan listed => ?_, fun plan listed key member => ?_⟩
  · have names := perm.map TablePlan.targetName
    have tables := wellNamed.tables
    rw [List.map_map] at names tables
    exact names.nodup_iff.mp tables
  · obtain ⟨entry, before, rfl⟩ := List.mem_map.mp (perm.mem_iff.mpr listed)
    exact wellNamed.columns entry.1 (List.mem_map_of_mem before)
  · obtain ⟨entry, before, rfl⟩ := List.mem_map.mp (perm.mem_iff.mpr listed)
    exact wellNamed.pairs entry.1 (List.mem_map_of_mem before) key
      ((each entry before).mem_iff.mpr member)

theorem Relisted.column? {others : List TablePlan} (relisted : Relisted plans others)
    (wellNamed : WellNamed plans) : column? others = column? plans := by
  funext key
  ext place
  rw [(relisted.wellNamed wellNamed).column?_iff, wellNamed.column?_iff, relisted.cells.mem_iff]

theorem Relisted.inferred {others : List TablePlan} (relisted : Relisted plans others)
    (wellNamed : WellNamed plans) : inferred others = inferred plans := by
  funext key
  rw [Unification.inferred, Unification.inferred, relisted.column? wellNamed]

theorem Relisted.fits {others : List TablePlan} (relisted : Relisted plans others)
    (wellNamed : WellNamed plans) :
    Fits numerals database others = Fits numerals database plans := by
  funext key pgType
  rw [Fits, Fits, relisted.column? wellNamed]

theorem Relisted.testable {others : List TablePlan} (relisted : Relisted plans others)
    (wellNamed : WellNamed plans) (testable : Testable numerals database plans) :
    Testable numerals database others := by
  intro key other linked place found pgType lower
  have linked' : Linked (Unification.links plans) key other :=
    linked.imp relisted.links.mem_iff.mpr relisted.links.mem_iff.mpr
  rw [relisted.column? wellNamed] at found
  rw [relisted.inferred wellNamed] at lower
  exact testable key other linked' place found pgType lower

theorem Relisted.retypeTo {others : List TablePlan} (relisted : Relisted plans others)
    (level : Key → PgType) : Relisted (retypeTo plans level) (retypeTo others level) := by
  obtain ⟨listing, rfl, each, perm⟩ := relisted
  refine ⟨listing.map fun entry => (withTypes level entry.1, entry.2), ?_, ?_, ?_⟩
  · rw [Unification.retypeTo, List.map_map, List.map_map]
    rfl
  · intro entry listed
    obtain ⟨own, before, rfl⟩ := List.mem_map.mp listed
    exact each own before
  · have moved := perm.map (withTypes level)
    rw [List.map_map] at moved ⊢
    exact moved

/-! ## The fixed point -/

variable (numerals database plans) in
/-- One round against the inferred types leaves no pair of columns to unify. -/
def SettledAtOnce : Prop :=
  ∃ last, OneRound (Fits numerals database plans) (inferred plans) (links plans) last

variable (numerals database plans) in
/-- What the unification gives is not changed by another run, is given whatever
the order of tables, keys and pairs of columns, and has another type only for a
column whose values all pass the test for it. -/
structure IsFixed (unified : List TablePlan) : Prop where
  given : unifyForeignKeyTypes numerals database plans = .ok unified
  again : unifyForeignKeyTypes numerals database unified = .ok unified
  relisted : ∀ others, Relisted plans others → ∃ result,
    unifyForeignKeyTypes numerals database others = .ok result ∧ Relisted unified result
  inAnyOrder : ∀ order, order.Perm (links plans) →
    unifyInOrder numerals database plans order = .ok unified
  tested : List.Forall₂ (fun plan final => final.targetName = plan.targetName ∧
    List.Forall₂ (fun column after => after.targetName = column.targetName ∧
      (after.pgType ≠ column.pgType →
        valuesFit numerals database plan column after.pgType = .ok true))
      plan.columns final.columns) plans unified

theorem oneSource_of_wellNamed (wellNamed : WellNamed plans) : OneSource plans := by
  intro plan listed other listed' same
  obtain rfl := List.inj_on_of_nodup_map wellNamed.tables listed listed' same
  refine ⟨rfl, fun column member twin member' alike => ?_⟩
  rw [List.inj_on_of_nodup_map (wellNamed.columns plan listed) member member' alike]

/-- A column has another type only where its values pass the test for it. -/
theorem tested_of_unifyForeignKeyTypes (wellNamed : WellNamed plans) {unified : List TablePlan}
    (done : unifyForeignKeyTypes numerals database plans = .ok unified) :
    List.Forall₂ (fun plan final => final.targetName = plan.targetName ∧
      List.Forall₂ (fun column after => after.targetName = column.targetName ∧
        (after.pgType ≠ column.pgType →
          valuesFit numerals database plan column after.pgType = .ok true))
        plan.columns final.columns) plans unified := by
  obtain ⟨retyped, passed, rfl⟩ := unifyForeignKeyTypes_ok (oneSource_of_wellNamed wellNamed) done
  rw [List.forall₂_map_right_iff, List.forall₂_same]
  intro plan listed
  refine ⟨rfl, ?_⟩
  rw [applyRetypes, List.forall₂_map_right_iff, List.forall₂_same]
  intro column member
  split
  · rename_i pgType given
    exact ⟨rfl, fun _ => (passed plan listed column member pgType given).2⟩
  · exact ⟨rfl, fun other => absurd rfl other⟩

theorem pairs_of_foreignKey? {rows : List ForeignKeyRow} {key : SqliteForeignKey}
    (found : database.foreignKey? rows = some key) :
    key.columns.length = key.referencedColumns.length := by
  simp only [SqliteDatabase.foreignKey?] at found
  split at found
  · rename_i remote mapped
    obtain rfl := Option.some.inj found
    rw [List.length_map, (Fallible.mapM_eq_some_iff.mp mapped).length_eq]
  · split at found
    · cases found
    · rename_i fit
      obtain rfl := Option.some.inj found
      exact (not_not.mp fit).symm

theorem pairs_of_planKey? {unicode : Unicode} {columns tableMap : IdentifierMap}
    {columnMaps : Dictionary String IdentifierMap} {key : SqliteForeignKey} {plan : KeyPlan}
    (same : key.columns.length = key.referencedColumns.length)
    (planned : planKey? unicode columns tableMap columnMaps key = some plan) :
    plan.columns.length = plan.referencedColumns.length := by
  rw [planKey?] at planned
  split at planned
  · split at planned
    · rename_i locals remotes one other
      obtain rfl := Option.some.inj planned
      rw [Fallible.length_of_mapM one, Fallible.length_of_mapM other, same]
    · cases planned
  · cases planned

/-- What a database is planned as has the names the unification needs, where
SQLite keeps its tables and their columns apart. -/
theorem wellNamed_of_planTables {unicode : Unicode} {names : List String}
    (planned : planTables unicode database names = .ok plans) (tables : names.Nodup)
    (columns : ∀ name ∈ names, ((database.tableInfo name).map SqliteColumn.name).Nodup) :
    WellNamed plans := by
  have oneSource := (planTables_ok planned).1
  obtain ⟨tableMap, -, planned⟩ := Fallible.bind_ok_iff.mp planned
  obtain ⟨sources, read, planned⟩ := Fallible.bind_ok_iff.mp planned
  obtain ⟨maps, -, planned⟩ := Fallible.bind_ok_iff.mp planned
  have made : ∀ plan ∈ plans, ∃ source ∈ sources, ∃ target,
      planTable unicode database source target tableMap (.ofList maps) = .ok plan := by
    intro plan listed
    obtain ⟨source, there, planned⟩ := (Fallible.mem_of_mapM planned).mp listed
    obtain ⟨target, -, planned⟩ := Fallible.bind_ok_iff.mp planned
    exact ⟨source, there, target, planned⟩
  have named : plans.map TablePlan.sourceName = names := by
    have back : plans.map TablePlan.sourceName = sources.map SqliteTable.name :=
      Fallible.map_of_mapM planned fun source plan made => by
        obtain ⟨target, -, made⟩ := Fallible.bind_ok_iff.mp made
        exact (sources_of_planTable made).1
    rw [back, ← List.map_id names]
    exact Fallible.map_of_mapM read fun name source read =>
      (table_ok (raising_ok_iff.mp read)).1
  refine ⟨?_, fun plan listed => ?_, fun plan listed key member => ?_⟩
  · refine (List.nodup_map_iff_inj_on (List.Nodup.of_map TablePlan.sourceName
      (named ▸ tables))).mpr fun plan listed other listed' same => ?_
    exact List.inj_on_of_nodup_map (named ▸ tables) listed listed'
      (oneSource plan listed other listed' same).1
  · obtain ⟨source, there, target, planned⟩ := made plan listed
    obtain ⟨name, asked, reads⟩ := (Fallible.mem_of_mapM read).mp there
    have own := (table_ok (raising_ok_iff.mp reads)).2
    have kept : (plan.columns.map ColumnPlan.sourceName).Nodup := by
      rw [(sources_of_planTable planned).2, own]
      exact columns name asked
    refine (List.nodup_map_iff_inj_on (List.Nodup.of_map ColumnPlan.sourceName kept)).mpr
      fun column member twin member' same => ?_
    exact List.inj_on_of_nodup_map kept member member'
      ((oneSource plan listed plan listed rfl).2 column member twin member' same)
  · obtain ⟨source, there, target, planned⟩ := made plan listed
    obtain ⟨name, -, reads⟩ := (Fallible.mem_of_mapM read).mp there
    obtain ⟨own, -, planned⟩ := Fallible.bind_ok_iff.mp planned
    obtain ⟨classes, -, planned⟩ := Fallible.bind_ok_iff.mp planned
    obtain ⟨cells, -, planned⟩ := Fallible.bind_ok_iff.mp planned
    obtain ⟨primary, -, planned⟩ := Fallible.bind_ok_iff.mp planned
    cases planned
    obtain ⟨foreign, present, planned⟩ := List.mem_filterMap.mp member
    refine pairs_of_planKey? ?_ planned
    have reads := raising_ok_iff.mp reads
    rw [SqliteDatabase.table] at reads
    split at reads
    · cases reads
    · cases reads
      obtain ⟨group, -, found⟩ := List.mem_filterMap.mp present
      exact pairs_of_foreignKey? found

/-! ## A pair that is settled at once, and a chain that is not -/

private def whole : Numerals where
  float s := (Python.int s).map fun n => .finite (nearestDouble n)
  intOfBytes _ := none
  floatOfBytes _ := none
  reprFloat _ := ""
  decodeReplacing _ := ""

private theorem agrees_whole : Agrees whole where
  text s n read := ⟨.finite (nearestDouble n), by simp [whole, read]⟩
  bytes _ _ read := by cases read

private def stored (name declared : String) (value : SqliteValue) : Stored where
  type := "table"
  name := name
  sql := some ""
  columns := [⟨"station", declared, 0⟩]
  foreignKeyRows := []
  content := ⟨[[value]], none⟩

private def stations : SqliteDatabase where
  dbId := "stations"
  master := [stored "audit" "INTEGER" (.integer 1), stored "note" "TEXT" (.text "1"),
    stored "reading" "REAL" (.real (.finite 1)), stored "station" "INTEGER" (.integer 1)]

private def planOf (name declared : String) (pgType : PgType) (keys : List KeyPlan) :
    TablePlan where
  sourceName := name
  targetName := name
  columns := [⟨"station", "station", pgType, declared⟩]
  primaryKey := []
  foreignKeys := keys

private def toStation : List KeyPlan := [⟨["station"], "station", ["station"]⟩]

private def audit : TablePlan := planOf "audit" "INTEGER" .bigint toStation

private def note : TablePlan := planOf "note" "TEXT" .text toStation

private def reading : TablePlan := planOf "reading" "REAL" .double toStation

private def station : TablePlan := planOf "station" "INTEGER" .bigint []

private def typesOf (plans : List TablePlan) : List (List PgType) :=
  plans.map fun plan => plan.columns.map ColumnPlan.pgType

private def once : List TablePlan := [audit, reading, planOf "station" "INTEGER" .double []]

private def twice : List TablePlan :=
  [planOf "audit" "INTEGER" .double toStation, reading, planOf "station" "INTEGER" .double []]

end FixedPoint
