import TextToSqlAgent.Benchmark.Plan
import TextToSqlAgent.Core.Doubles

/-!
# What a plan knows of its columns

A name of the target belongs to one source. A column is planned from the storage
classes of its own values, and given another type only where all of them pass
the test for it.
-/

namespace Retyping

open Python Exceptions Identifiers SqliteSource Plan Doubles

variable {unicode : Unicode} {numerals : Numerals} {database : SqliteDatabase}

/-! ## Names -/

theorem safe_ok_iff {map : IdentifierMap} {raw safe : String} :
    map.safe unicode raw = .ok safe ↔ map.forward.get? raw = some safe := by
  rw [IdentifierMap.safe]
  cases found : map.forward.get? raw with
  | none => exact ⟨nofun, nofun⟩
  | some other =>
    exact ⟨fun same => congrArg some (Except.ok.inj same),
      fun same => congrArg Except.ok (Option.some.inj same)⟩

/-- Whatever was given an identifier is what the identifier is known to be of. -/
def Mirrors (forward seen : Dictionary String String) : Prop :=
  ∀ raw safe, forward.get? raw = some safe → seen.get? safe = some raw

theorem Mirrors.set {forward seen : Dictionary String String} (mirrors : Mirrors forward seen)
    {raw safe : String} (free : ∀ other, seen.get? safe = some other → other = raw) :
    Mirrors (forward.set raw safe) (seen.set safe raw) := by
  intro name identifier given
  rw [Dictionary.get?_set] at given
  split at given
  · rename_i same
    subst same
    obtain rfl := Option.some.inj given
    rw [Dictionary.get?_set_self]
  · rename_i other
    have known := mirrors name identifier given
    rw [Dictionary.get?_set_ne _ ?_, known]
    rintro rfl
    exact other (free name known)

/-- Two names are never given one identifier. -/
theorem safe_injective_of_buildFrom {kind : String} {forward seen : Dictionary String String}
    {raws : List String} {map : IdentifierMap} (mirrors : Mirrors forward seen)
    (built : IdentifierMap.buildFrom unicode kind forward seen raws = .ok map)
    {first second safe : String} (one : map.safe unicode first = .ok safe)
    (other : map.safe unicode second = .ok safe) : first = second := by
  induction raws generalizing forward seen with
  | nil =>
    rw [IdentifierMap.buildFrom, Except.ok.injEq] at built
    subst built
    have known := mirrors first safe (safe_ok_iff.mp one)
    rw [mirrors second safe (safe_ok_iff.mp other)] at known
    exact (Option.some.inj known).symm
  | cons raw rest ih =>
    rw [IdentifierMap.buildFrom] at built
    obtain ⟨identifier, -, built⟩ := Fallible.bind_ok_iff.mp built
    split at built
    · rename_i holder taken
      split at built
      · cases built
      · rename_i same
        refine ih (mirrors.set fun name known => ?_) built
        rw [taken] at known
        exact (Option.some.inj known) ▸ not_not.mp same
    · rename_i fresh
      refine ih (mirrors.set fun name known => ?_) built
      rw [fresh] at known
      cases known

theorem safe_injective {kind : String} {raws : List String} {map : IdentifierMap}
    (built : IdentifierMap.build unicode raws kind = .ok map) {first second safe : String}
    (one : map.safe unicode first = .ok safe) (other : map.safe unicode second = .ok safe) :
    first = second :=
  safe_injective_of_buildFrom (fun _ _ given => by cases given) built one other

/-- Tables of one target name, and in them columns of one target name, are read
from one place. -/
def OneSource (plans : List TablePlan) : Prop :=
  ∀ plan ∈ plans, ∀ other ∈ plans, plan.targetName = other.targetName →
    plan.sourceName = other.sourceName ∧
      ∀ column ∈ plan.columns, ∀ twin ∈ other.columns, column.targetName = twin.targetName →
        column.sourceName = twin.sourceName

/-! ## Values -/

/-- The values of a column, read alone. -/
def valuesOf (database : SqliteDatabase) (plan : TablePlan) (column : ColumnPlan) :
    List SqliteValue :=
  (database.rows plan.sourceName [column.sourceName]).rows.map fun row => row.getD 0 .null

/-- The storage classes of values. -/
def classesOf (values : List SqliteValue) : List StorageClass :=
  (values.map SqliteValue.typeof).dedup

/-- With a value that is not null, the declaration does not matter. -/
theorem pgTypeForStorageClasses_of_mem {classes : List StorageClass} {declared : String}
    {c : StorageClass} (listed : c ∈ classes) (value : c ≠ .null) :
    pgTypeForStorageClasses unicode classes declared =
      if .text ∈ classes then .text
      else if .blob ∈ classes then
        if .integer ∈ classes ∨ .real ∈ classes then .text else .bytea
      else if .real ∈ classes then .double
      else if .integer ∈ classes then .bigint else .text := by
  have present : (classes.filter fun c => c ≠ .null).isEmpty = false :=
    List.isEmpty_eq_false_iff_exists_mem.mpr
      ⟨c, List.mem_filter.mpr ⟨listed, decide_eq_true value⟩⟩
  rw [pgTypeForStorageClasses]
  simp only [present]
  simp

theorem allFit_iff {pgType : PgType} {failure : Option String} {rows : List (List SqliteValue)} :
    allFit numerals pgType failure rows = .ok true ↔
      failure = none ∧ ∀ row ∈ rows, valueFits numerals pgType (row.getD 0 .null) = .ok true := by
  induction rows with
  | nil => cases failure <;> simp [allFit]
  | cons row rest ih =>
    rw [allFit, List.forall_mem_cons, Fallible.bind_ok_iff]
    constructor
    · rintro ⟨fits, tested, done⟩
      cases fits with
      | false => cases done
      | true =>
        obtain ⟨read, others⟩ := ih.mp done
        exact ⟨read, tested, others⟩
    · rintro ⟨read, tested, others⟩
      exact ⟨true, tested, ih.mpr ⟨read, others⟩⟩

theorem valuesFit_iff {plan : TablePlan} {column : ColumnPlan} {pgType : PgType} :
    valuesFit numerals database plan column pgType = .ok true ↔
      (database.rows plan.sourceName [column.sourceName]).failure = none ∧
        ∀ value ∈ valuesOf database plan column, valueFits numerals pgType value = .ok true := by
  rw [valuesFit, allFit_iff, valuesOf, List.forall_mem_map]

/-- The storage classes of a column among others are those of its values alone. -/
theorem get?_storageClasses {name column : String} {columns : List String}
    {classes : Dictionary String (List StorageClass)}
    (read : database.storageClasses name columns = .ok classes) (listed : column ∈ columns) :
    (classes.get? column).getD [] =
      classesOf ((database.rows name [column]).rows.map fun row => row.getD 0 .null) := by
  rw [SqliteDatabase.storageClasses] at read
  split at read
  · cases read
  · rename_i whole
    cases read
    have keyed : column ∈ (columns.zipIdx.map fun column => (column.1,
        ((database.rows name columns).rows.map fun row =>
          (row.getD column.2 .null).typeof).dedup)).map Prod.fst := by
      rw [List.map_map]
      exact (List.zipIdx_map_fst 0 columns).symm ▸ listed
    obtain ⟨found, there⟩ := Dictionary.exists_get?_ofList keyed
    rw [there, Option.getD_some]
    obtain ⟨⟨own, i⟩, place, same⟩ := List.mem_map.mp (Dictionary.mem_of_get?_ofList there)
    obtain ⟨rfl, rfl⟩ := Prod.mk.inj same
    have at_ : columns[i]? = some own := List.mem_zipIdx_iff_getElem?.mp place
    rw [SqliteDatabase.rows] at whole
    rw [classesOf, SqliteDatabase.rows, SqliteDatabase.rows]
    split at whole
    · rename_i entry stored
      simp only [List.map_map]
      refine congrArg List.dedup (List.map_congr_left fun row _ => ?_)
      simp [List.getD_eq_getElem?_getD, at_]
    · cases whole

/-! ## Tests -/

def Is64Bit (n : Int) : Prop := -2 ^ 63 ≤ n ∧ n < 2 ^ 63

instance (n : Int) : Decidable (Is64Bit n) := inferInstanceAs (Decidable (_ ∧ _))

/-- The integers SQLite can hold. -/
def Held (values : List SqliteValue) : Prop := ∀ n, .integer n ∈ values → Is64Bit n

theorem casts_iff {α : Type} {fits : α → Bool} {x : Except CastError α} :
    casts fits x = .ok true ↔ ∃ a, x = .ok a ∧ fits a = true := by
  cases x with
  | error exc => cases exc <;> exact ⟨nofun, nofun⟩
  | ok a => simp [casts]

theorem toDouble_of_held {values : List SqliteValue} (held : Held values) {n : Int}
    (listed : .integer n ∈ values) : toDouble n = some (nearestDouble n) := by
  obtain ⟨low, high⟩ := held n listed
  refine toDouble_of_abs_le (abs_le.mpr ⟨?_, ?_⟩)
  · have : (-2 ^ 63 : Rat) ≤ n := by exact_mod_cast low
    linarith
  · have : (n : Rat) < 2 ^ 63 := by exact_mod_cast high
    linarith

theorem readOr_ok_iff {α : Type} {read : Option α} {a : α} :
    readOr read = .ok a ↔ read = some a := by
  cases read with
  | none => exact ⟨nofun, nofun⟩
  | some b => exact ⟨fun same => congrArg some (Except.ok.inj same),
      fun same => congrArg Except.ok (Option.some.inj same)⟩

/-- What `int` reads, `float` reads. -/
structure Agrees (numerals : Numerals) : Prop where
  text : ∀ s n, Python.int s = some n → ∃ x, numerals.float s = some x
  bytes : ∀ b n, numerals.intOfBytes b = some n → ∃ x, numerals.floatOfBytes b = some x

/-- A value that passes the test for `bigint` passes the one for `double precision`. -/
theorem fits_double_of_bigint (agrees : Agrees numerals) {values : List SqliteValue}
    (held : Held values) {value : SqliteValue} (listed : value ∈ values)
    (fits : valueFits numerals .bigint value = .ok true) :
    valueFits numerals .double value = .ok true := by
  by_cases present : value = .null
  · rw [present]
    rfl
  · rw [valueFits, if_neg present] at fits ⊢
    obtain ⟨n, read, -⟩ := casts_iff.mp fits
    refine casts_iff.mpr ?_
    cases value with
    | null => exact absurd rfl present
    | integer m =>
      rw [floatOf, toDouble_of_held held listed]
      exact ⟨_, rfl, rfl⟩
    | real x => exact ⟨x, rfl, rfl⟩
    | text s =>
      obtain ⟨x, found⟩ := agrees.text s n (readOr_ok_iff.mp read)
      exact ⟨x, readOr_ok_iff.mpr found, rfl⟩
    | blob bytes =>
      obtain ⟨x, found⟩ := agrees.bytes bytes n (readOr_ok_iff.mp read)
      exact ⟨x, readOr_ok_iff.mpr found, rfl⟩

/-! ## Planned columns -/

theorem columns_of_planTable {source : SqliteTable} {target : String} {tableMap : IdentifierMap}
    {columnMaps : Dictionary String IdentifierMap} {plan : TablePlan}
    (planned : planTable unicode database source target tableMap columnMaps = .ok plan) :
    plan.targetName = target ∧ ∃ columns, columnMaps.get? source.name = some columns ∧
      ∀ column ∈ plan.columns, columns.safe unicode column.sourceName = .ok column.targetName ∧
        column.pgType = pgTypeForStorageClasses unicode (classesOf (valuesOf database plan column))
          column.declaredType := by
  obtain ⟨columns, looked, planned⟩ := Fallible.bind_ok_iff.mp planned
  obtain ⟨classes, read, planned⟩ := Fallible.bind_ok_iff.mp planned
  obtain ⟨plans, each, planned⟩ := Fallible.bind_ok_iff.mp planned
  obtain ⟨key, -, planned⟩ := Fallible.bind_ok_iff.mp planned
  cases planned
  refine ⟨rfl, columns, ?_, fun column listed => ?_⟩
  · rw [lookup] at looked
    split at looked
    · rename_i found there
      rw [there, Except.ok.inj looked]
    · cases looked
  · obtain ⟨own, member, made⟩ := (Fallible.mem_of_mapM each).mp listed
    obtain ⟨safe, named, made⟩ := Fallible.bind_ok_iff.mp made
    cases made
    refine ⟨raising_ok_iff.mp named, ?_⟩
    rw [get?_storageClasses read (List.mem_map_of_mem member)]
    rfl

/-- A column has the type of the storage classes of its values. -/
def Inferred (unicode : Unicode) (database : SqliteDatabase) (plan : TablePlan)
    (column : ColumnPlan) : Prop :=
  column.pgType = pgTypeForStorageClasses unicode (classesOf (valuesOf database plan column))
    column.declaredType

theorem planTables_ok {names : List String} {plans : List TablePlan}
    (planned : planTables unicode database names = .ok plans) :
    OneSource plans ∧ ∀ plan ∈ plans, ∀ column ∈ plan.columns,
      Inferred unicode database plan column := by
  obtain ⟨tableMap, tables, planned⟩ := Fallible.bind_ok_iff.mp planned
  obtain ⟨sources, -, planned⟩ := Fallible.bind_ok_iff.mp planned
  obtain ⟨maps, mapped, planned⟩ := Fallible.bind_ok_iff.mp planned
  have made : ∀ plan ∈ plans, tableMap.safe unicode plan.sourceName = .ok plan.targetName ∧
      ∃ columns, (Dictionary.ofList maps).get? plan.sourceName = some columns ∧
        ∀ column ∈ plan.columns,
          columns.safe unicode column.sourceName = .ok column.targetName ∧
            Inferred unicode database plan column := by
    intro plan listed
    obtain ⟨source, -, planned⟩ := (Fallible.mem_of_mapM planned).mp listed
    obtain ⟨target, named, planned⟩ := Fallible.bind_ok_iff.mp planned
    obtain ⟨rfl, columns, found, each⟩ := columns_of_planTable planned
    rw [(sources_of_planTable planned).1]
    exact ⟨raising_ok_iff.mp named, columns, found, each⟩
  refine ⟨fun plan listed other listed' same => ?_, fun plan listed column member => ?_⟩
  · obtain ⟨named, columns, found, each⟩ := made plan listed
    obtain ⟨named', columns', found', each'⟩ := made other listed'
    have source : plan.sourceName = other.sourceName :=
      safe_injective (raising_ok_iff.mp tables) named (same ▸ named')
    refine ⟨source, fun column member twin member' alike => ?_⟩
    obtain rfl : columns = columns' := by
      rw [source, found'] at found
      exact (Option.some.inj found).symm
    obtain ⟨origin, -, mapping⟩ :=
      (Fallible.mem_of_mapM mapped).mp (Dictionary.mem_of_get?_ofList found)
    obtain ⟨map, built, paired⟩ := Fallible.bind_ok_iff.mp mapping
    obtain ⟨-, rfl⟩ := Prod.mk.inj (Except.ok.inj paired)
    exact safe_injective (raising_ok_iff.mp built) (each column member).1
      (alike ▸ (each' twin member').1)
  · obtain ⟨-, columns, -, each⟩ := made plan listed
    exact (each column member).2

/-! ## Retyped columns -/

variable (numerals database) in
/-- Whatever type a column was given is a number's, and passes the test for it. -/
def Passed (plans : List TablePlan) (retyped : Retyped) : Prop :=
  ∀ plan ∈ plans, ∀ column ∈ plan.columns, ∀ pgType,
    retyped.get? (plan.targetName, column.targetName) = some pgType →
      isNumeric pgType ∧ valuesFit numerals database plan column pgType = .ok true

theorem isNumeric_of_unifiedType {left right wanted : PgType}
    (unified : unifiedType left right = some wanted) : isNumeric wanted := by
  cases left <;> cases right <;> cases unified <;> rfl

theorem passed_retype {plans : List TablePlan} (oneSource : OneSource plans) {owner : TablePlan}
    (listed : owner ∈ plans) {column : ColumnPlan} (member : column ∈ owner.columns)
    {wanted : PgType} (numeric : isNumeric wanted) {retyped next : Retyped}
    (passed : Passed numerals database plans retyped)
    (done : retype numerals database owner column wanted retyped = .ok next) :
    Passed numerals database plans next := by
  rw [retype] at done
  split at done
  · exact Except.ok.inj done ▸ passed
  · obtain ⟨fits, tested, done⟩ := Fallible.bind_ok_iff.mp done
    cases fits with
    | false => exact Except.ok.inj done ▸ passed
    | true =>
      obtain rfl := Except.ok.inj done
      intro plan listed' twin member' pgType given
      rw [Dictionary.get?_set] at given
      split at given
      · rename_i same
        obtain ⟨tables, columns⟩ := Prod.mk.inj same
        obtain ⟨table, sources⟩ := oneSource plan listed' owner listed tables
        obtain rfl := Option.some.inj given
        refine ⟨numeric, ?_⟩
        rw [valuesFit, table, sources twin member' column member columns]
        exact tested
      · exact passed plan listed' twin member' pgType given

theorem mem_of_column? {plan : TablePlan} {name : String} {column : ColumnPlan}
    (found : plan.column? name = some column) :
    column ∈ plan.columns ∧ column.targetName = name :=
  ⟨List.mem_of_find?_eq_some found, by simpa using List.find?_some found⟩

theorem passed_unifyPair {plans : List TablePlan} (oneSource : OneSource plans)
    {plan target : TablePlan} (listed : plan ∈ plans) (listed' : target ∈ plans)
    {localColumn remote : String} {retyped next : Retyped}
    (passed : Passed numerals database plans retyped)
    (done : unifyPair numerals database plan target localColumn remote retyped = .ok next) :
    Passed numerals database plans next := by
  rw [unifyPair] at done
  split at done
  · rename_i left right one other
    split at done
    · rename_i wanted unified
      have numeric := isNumeric_of_unifiedType unified
      obtain ⟨middle, first, second⟩ := Fallible.bind_ok_iff.mp done
      have between := passed_retype oneSource listed (mem_of_column? one).1 numeric passed first
      exact passed_retype oneSource listed' (mem_of_column? other).1 numeric between second
    · exact Except.ok.inj done ▸ passed
  · exact Except.ok.inj done ▸ passed

theorem passed_unifyPairs {plans : List TablePlan} (oneSource : OneSource plans)
    {plan target : TablePlan} (listed : plan ∈ plans) (listed' : target ∈ plans)
    {locals remotes : List String} {retyped next : Retyped}
    (passed : Passed numerals database plans retyped)
    (done : unifyPairs numerals database plan target locals remotes retyped = .ok next) :
    Passed numerals database plans next := by
  induction locals generalizing remotes retyped with
  | nil =>
    cases remotes with
    | nil => exact Except.ok.inj done ▸ passed
    | cons remote remotes => cases done
  | cons localColumn locals ih =>
    cases remotes with
    | nil => cases done
    | cons remote remotes =>
      obtain ⟨middle, first, rest⟩ := Fallible.bind_ok_iff.mp done
      exact ih (passed_unifyPair oneSource listed listed' passed first) rest

/-- The types a run decides, all tested, are set in the plans. -/
theorem unifyForeignKeyTypes_ok {plans unified : List TablePlan} (oneSource : OneSource plans)
    (done : unifyForeignKeyTypes numerals database plans = .ok unified) :
    ∃ retyped, Passed numerals database plans retyped ∧
      unified = plans.map fun plan => applyRetypes plan retyped := by
  obtain ⟨retyped, folded, done⟩ := Fallible.bind_ok_iff.mp done
  refine ⟨retyped, ?_, (Except.ok.inj done).symm⟩
  refine Fallible.invariant_of_foldlM (Passed numerals database plans) ?_ ?_ folded
  · intro retyped passed plan listed next keys
    refine Fallible.invariant_of_foldlM (Passed numerals database plans) ?_ passed keys
    intro retyped passed key _ next done
    rw [unifyKey] at done
    split at done
    · rename_i target found
      obtain ⟨other, listed', same⟩ := List.mem_map.mp (Dictionary.mem_of_get?_ofList found)
      obtain ⟨-, rfl⟩ := Prod.mk.inj same
      exact passed_unifyPairs oneSource listed listed' passed done
    · exact Except.ok.inj done ▸ passed
  · intro plan _ column _ pgType given
    cases given

end Retyping
