import Mathlib
import TextToSqlAgent.Benchmark.Convert
import TextToSqlAgent.Benchmark.Retyping
import TextToSqlAgent.Core.Doubles

/-!
# What a load keeps of a column

A column is loaded in the type its plan ends with. Nothing of it is lost exactly
when what Python reads as an integer has 64 bits, where the type is `bigint`, no
two integers share a double, where it is `double precision`, and no text has a
NUL, where it is `text`.
-/

namespace Lossless

open Python Exceptions Identifiers SqliteSource Plan Schemas Convert Retyping Doubles

variable {unicode : Unicode} {numerals : Numerals} {database : SqliteDatabase}

/-! ## Ranges -/

/-- The values of a type; a text of PostgreSQL has no NUL. -/
def InRange : PgType → PgValue → Prop
  | _, .null => True
  | .bigint, .integer n => Is64Bit n
  | .double, .double _ => True
  | .text, .text s => '\x00' ∉ s.toList
  | .bytea, .bytea _ => True
  | _, _ => False

variable (numerals) in
/-- Every cell is adapted to a value of the type, and no two integers to one. -/
structure IsLossless (values : List SqliteValue) (pgType : PgType) : Prop where
  adapted : ∀ value ∈ values, ∃ cell, adapt numerals value pgType = .ok cell ∧ InRange pgType cell
  apart : ∀ m n, .integer m ∈ values → .integer n ∈ values →
    adapt numerals (.integer m) pgType = adapt numerals (.integer n) pgType → m = n

variable (numerals) in
/-- What is not an integer itself is read as one of 64 bits, if as any. -/
def Narrow : SqliteValue → Prop
  | .real (.finite q) => -2 ^ 63 ≤ q ∧ q < 2 ^ 63
  | .text s => ∀ n, Python.int s = some n → Is64Bit n
  | .blob bytes => ∀ n, numerals.intOfBytes bytes = some n → Is64Bit n
  | _ => True

variable (numerals) in
/-- What a type needs of a column's values. -/
def Suits (values : List SqliteValue) : PgType → Prop
  | .bigint => ∀ value ∈ values, Narrow numerals value
  | .double => ∀ m n : Int, .integer m ∈ values → .integer n ∈ values →
      nearestDouble m = nearestDouble n → m = n
  | .text => ∀ value ∈ values, value ≠ .null → '\x00' ∉ (strOf numerals value).toList
  | .bytea => True

/-! ## Where a type comes from -/

/-- A column inferred to be of numbers holds nothing else. -/
theorem number_of_inferred {values : List SqliteValue} {declared : String} {value : SqliteValue}
    (listed : value ∈ values) (number : isNumeric
      (pgTypeForStorageClasses unicode (classesOf values) declared)) :
    value.typeof ≠ .text ∧ value.typeof ≠ .blob ∧ (value.typeof = .real →
      pgTypeForStorageClasses unicode (classesOf values) declared = .double) := by
  have there : value.typeof ∈ classesOf values :=
    List.mem_dedup.mpr (List.mem_map_of_mem listed)
  by_cases null : value.typeof = .null
  · rw [null]
    exact ⟨nofun, nofun, nofun⟩
  · rw [pgTypeForStorageClasses_of_mem there null] at number ⊢
    refine ⟨fun same => ?_, fun same => ?_, fun same => ?_⟩
    · rw [if_pos (same ▸ there)] at number
      cases number
    · rw [same] at there
      split_ifs at number <;> simp [isNumeric] at number
    · rw [same] at there
      split_ifs at number ⊢ <;> simp_all [isNumeric]

/-- No integer is in a column inferred to be of bytes. -/
theorem not_integer_of_inferred {values : List SqliteValue} {declared : String}
    (bytes : pgTypeForStorageClasses unicode (classesOf values) declared = .bytea) (n : Int) :
    .integer n ∉ values := by
  intro listed
  have there : StorageClass.integer ∈ classesOf values :=
    List.mem_dedup.mpr (List.mem_map_of_mem (f := SqliteValue.typeof) listed)
  rw [pgTypeForStorageClasses_of_mem there nofun] at bytes
  split_ifs at bytes
  rename_i apart
  exact apart (Or.inl there)

variable (unicode numerals) in
/-- The type is that of the values' storage classes, or a number's that they all
pass the test for. -/
def Settled (values : List SqliteValue) (pgType : PgType) : Prop :=
  (∃ declared, pgType = pgTypeForStorageClasses unicode (classesOf values) declared) ∨
    isNumeric pgType ∧ ∀ value ∈ values, valueFits numerals pgType value = .ok true

theorem settled_of_planDatabase {pre schema : String} {plans : List TablePlan}
    (planned : planDatabase unicode numerals database pre = .ok (schema, plans))
    {plan : TablePlan} (listed : plan ∈ plans) {column : ColumnPlan}
    (member : column ∈ plan.columns) :
    Settled unicode numerals (valuesOf database plan column) column.pgType := by
  obtain ⟨name, -, rest⟩ := Fallible.bind_ok_iff.mp planned
  split at rest
  · cases rest
  · obtain ⟨tables, tabled, rest⟩ := Fallible.bind_ok_iff.mp rest
    obtain ⟨unified, unifies, rest⟩ := Fallible.bind_ok_iff.mp rest
    cases rest
    obtain ⟨oneSource, inferred⟩ := planTables_ok tabled
    obtain ⟨retyped, passed, rfl⟩ := unifyForeignKeyTypes_ok oneSource unifies
    obtain ⟨before, first, rfl⟩ := List.mem_map.mp listed
    obtain ⟨twin, second, rfl⟩ := List.mem_map.mp member
    cases given : retyped.get? (before.targetName, twin.targetName) with
    | none => exact Or.inl ⟨twin.declaredType, inferred before first twin second⟩
    | some pgType =>
      obtain ⟨numeric, fits⟩ := passed before first twin second pgType given
      exact Or.inr ⟨numeric, (valuesFit_iff.mp fits).2⟩

/-! ## Numbers -/

/-- Inferred or given, the type of a number is one that all the values pass the
test for. -/
theorem fits_of_settled {values : List SqliteValue} {pgType : PgType} (held : Held values)
    (settled : Settled unicode numerals values pgType) (numeric : isNumeric pgType) :
    ∀ value ∈ values, valueFits numerals pgType value = .ok true := by
  rcases settled with ⟨declared, rfl⟩ | ⟨-, fits⟩
  · intro value listed
    obtain ⟨noText, noBlob, real⟩ := number_of_inferred listed numeric
    cases value with
    | null => rfl
    | integer n =>
      rw [valueFits, if_neg (by simp)]
      split
      · rfl
      · rw [floatOf, toDouble_of_held held listed]
        rfl
    | real x =>
      rw [real rfl]
      rfl
    | text s => exact absurd rfl noText
    | blob bytes => exact absurd rfl noBlob
  · exact fits

theorem intOf_of_fits {value : SqliteValue} (fits : valueFits numerals .bigint value = .ok true)
    (present : value ≠ .null) : ∃ n, intOf numerals value = .ok n ∧ keepsReal value n = true := by
  rw [valueFits, if_neg present] at fits
  exact casts_iff.mp fits

theorem floatOf_of_fits {value : SqliteValue} (fits : valueFits numerals .double value = .ok true)
    (present : value ≠ .null) : ∃ x, floatOf numerals value = .ok x := by
  rw [valueFits, if_neg present] at fits
  obtain ⟨x, read, -⟩ := casts_iff.mp fits
  exact ⟨x, read⟩

theorem is64Bit_iff_narrow {values : List SqliteValue} (held : Held values) {value : SqliteValue}
    (listed : value ∈ values) {n : Int} (read : intOf numerals value = .ok n)
    (kept : keepsReal value n = true) : Is64Bit n ↔ Narrow numerals value := by
  cases value with
  | null => cases read
  | integer m =>
    obtain rfl := Except.ok.inj read
    exact iff_of_true (held m listed) trivial
  | real x =>
    cases x with
    | finite q =>
      have same : (n : Rat) = q := of_decide_eq_true kept
      rw [Narrow, ← same]
      constructor
      · rintro ⟨low, high⟩
        exact ⟨by exact_mod_cast low, by exact_mod_cast high⟩
      · rintro ⟨low, high⟩
        exact ⟨by exact_mod_cast low, by exact_mod_cast high⟩
    | inf negative => cases read
    | nan => cases read
  | text s =>
    have found := readOr_ok_iff.mp read
    rw [Narrow, found]
    exact ⟨fun narrow m same => Option.some.inj same ▸ narrow, fun each => each n rfl⟩
  | blob bytes =>
    have found := readOr_ok_iff.mp read
    rw [Narrow, found]
    exact ⟨fun narrow m same => Option.some.inj same ▸ narrow, fun each => each n rfl⟩

/-! ## Columns -/

theorem adapt_null (pgType : PgType) : adapt numerals .null pgType = .ok .null := if_pos rfl

theorem lossless_bigint_iff {values : List SqliteValue} (held : Held values)
    (fits : ∀ value ∈ values, valueFits numerals .bigint value = .ok true) :
    IsLossless numerals values .bigint ↔ Suits numerals values .bigint := by
  have cell (value : SqliteValue) (listed : value ∈ values) (present : value ≠ .null) :
      ∃ n, adapt numerals value .bigint = .ok (.integer n) ∧
        (Is64Bit n ↔ Narrow numerals value) := by
    obtain ⟨n, read, kept⟩ := intOf_of_fits (fits value listed) present
    refine ⟨n, ?_, is64Bit_iff_narrow held listed read kept⟩
    rw [adapt, if_neg present, read]
    rfl
  constructor
  · intro lossless value listed
    by_cases present : value = .null
    · rw [present]
      trivial
    · obtain ⟨n, adapted, narrow⟩ := cell value listed present
      obtain ⟨x, same, range⟩ := lossless.adapted value listed
      rw [adapted, Except.ok.injEq] at same
      subst same
      exact narrow.mp range
  · intro suits
    refine ⟨fun value listed => ?_, fun m n _ _ same => ?_⟩
    · by_cases present : value = .null
      · exact ⟨.null, present ▸ adapt_null .bigint, trivial⟩
      · obtain ⟨n, adapted, narrow⟩ := cell value listed present
        exact ⟨.integer n, adapted, narrow.mpr (suits value listed)⟩
    · exact PgValue.integer.inj (Except.ok.inj same)

theorem lossless_double_iff {values : List SqliteValue} (held : Held values)
    (fits : ∀ value ∈ values, valueFits numerals .double value = .ok true) :
    IsLossless numerals values .double ↔ Suits numerals values .double := by
  have cell (n : Int) (listed : .integer n ∈ values) : adapt numerals (.integer n) .double =
      .ok (.double (.finite (nearestDouble n))) := by
    rw [adapt, if_neg nofun, floatOf, toDouble_of_held held listed]
    rfl
  constructor
  · intro lossless m n one other same
    refine lossless.apart m n one other ?_
    rw [cell m one, cell n other, same]
  · intro suits
    refine ⟨fun value listed => ?_, fun m n one other same => ?_⟩
    · by_cases present : value = .null
      · exact ⟨.null, present ▸ adapt_null .double, trivial⟩
      · obtain ⟨x, read⟩ := floatOf_of_fits (fits value listed) present
        refine ⟨.double x, ?_, trivial⟩
        rw [adapt, if_neg present, read]
        rfl
    · rw [cell m one, cell n other] at same
      exact suits m n one other
        (PyFloat.finite.inj (PgValue.double.inj (Except.ok.inj same)))

theorem lossless_text_iff {values : List SqliteValue} :
    IsLossless numerals values .text ↔ Suits numerals values .text := by
  have cell (value : SqliteValue) (present : value ≠ .null) :
      adapt numerals value .text = .ok (.text (strOf numerals value)) := if_neg present
  constructor
  · intro lossless value listed present
    obtain ⟨x, same, range⟩ := lossless.adapted value listed
    rw [cell value present, Except.ok.injEq] at same
    rw [← same] at range
    exact range
  · intro suits
    refine ⟨fun value listed => ?_, fun m n _ _ same => ?_⟩
    · by_cases present : value = .null
      · exact ⟨.null, present ▸ adapt_null .text, trivial⟩
      · exact ⟨_, cell value present, suits value listed present⟩
    · exact Int.repr_injective (PgValue.text.inj (Except.ok.inj same))

theorem lossless_bytea {values : List SqliteValue} (noInteger : ∀ n, .integer n ∉ values) :
    IsLossless numerals values .bytea := by
  refine ⟨fun value listed => ?_, fun m n one => absurd one (noInteger m)⟩
  cases value with
  | null => exact ⟨.null, rfl, trivial⟩
  | integer n => exact absurd listed (noInteger n)
  | real x => exact ⟨_, rfl, trivial⟩
  | text s => exact ⟨_, rfl, trivial⟩
  | blob bytes => exact ⟨_, rfl, trivial⟩

theorem lossless_iff_of_settled {values : List SqliteValue} {pgType : PgType}
    (held : Held values) (settled : Settled unicode numerals values pgType) :
    IsLossless numerals values pgType ↔ Suits numerals values pgType := by
  cases pgType with
  | text => exact lossless_text_iff
  | bigint => exact lossless_bigint_iff held (fits_of_settled held settled rfl)
  | double => exact lossless_double_iff held (fits_of_settled held settled rfl)
  | bytea =>
    refine iff_of_true (lossless_bytea fun n => ?_) trivial
    rcases settled with ⟨declared, same⟩ | ⟨numeric, -⟩
    · exact not_integer_of_inferred same.symm n
    · cases numeric

/-- Whatever SQLite holds in a column, it is loaded without loss exactly where it
suits the type that the plan ends with. -/
theorem lossless_iff {pre schema : String} {plans : List TablePlan}
    (planned : planDatabase unicode numerals database pre = .ok (schema, plans))
    {plan : TablePlan} (listed : plan ∈ plans) {column : ColumnPlan}
    (member : column ∈ plan.columns) (held : Held (valuesOf database plan column)) :
    IsLossless numerals (valuesOf database plan column) column.pgType ↔
      Suits numerals (valuesOf database plan column) column.pgType :=
  lossless_iff_of_settled held (settled_of_planDatabase planned listed member)

/-! ## Columns that lose something -/

private def unread : Numerals where
  float _ := none
  intOfBytes _ := none
  floatOfBytes _ := none
  reprFloat _ := ""
  decodeReplacing _ := ""

private def stored (name : String) (columns : List SqliteColumn) (keys : List ForeignKeyRow)
    (values : List SqliteValue) : Stored where
  type := "table"
  name := name
  sql := some ""
  columns := columns
  foreignKeyRows := keys
  content := ⟨values.map fun value => [value], none⟩

/-- Integers beside a real, the second of them not a double. -/
private def readings : SqliteDatabase where
  dbId := "readings"
  master := [stored "reading" [⟨"value", "NUMERIC", 0⟩] []
    [.integer (2 ^ 53), .integer (2 ^ 53 + 1), .real (.finite (1 / 2))]]

/-- A text that refers to an integer, and is one of 65 bits. -/
private def badges : SqliteDatabase where
  dbId := "badges"
  master := [stored "badge" [⟨"number", "INTEGER", 1⟩] [] [.integer 1],
    stored "visit" [⟨"badge", "TEXT", 0⟩] [⟨0, 0, "badge", "badge", some "number"⟩]
      [.text "9223372036854775808"]]

private def reading : TablePlan where
  sourceName := "reading"
  targetName := "reading"
  columns := [⟨"value", "value", .double, "NUMERIC"⟩]
  primaryKey := []
  foreignKeys := []

private def badge : TablePlan where
  sourceName := "badge"
  targetName := "badge"
  columns := [⟨"number", "number", .bigint, "INTEGER"⟩]
  primaryKey := ["number"]
  foreignKeys := []

private def visit : TablePlan where
  sourceName := "visit"
  targetName := "visit"
  columns := [⟨"badge", "badge", .bigint, "TEXT"⟩]
  primaryKey := []
  foreignKeys := [⟨["badge"], "badge", ["number"]⟩]

private theorem planned_readings :
    planDatabase plainUnicode unread readings "" = .ok ("readings", [reading]) :=
  Fallible.toOption_eq_some_iff.mp (by decide)

private theorem planned_badges :
    planDatabase plainUnicode unread badges "" = .ok ("badges", [badge, visit]) :=
  Fallible.toOption_eq_some_iff.mp (by decide)

/-- A key of integers. -/
theorem lossless_iff_number :
    Held (valuesOf badges badge ⟨"number", "number", .bigint, "INTEGER"⟩) ∧
      IsLossless unread (valuesOf badges badge ⟨"number", "number", .bigint, "INTEGER"⟩)
        .bigint := by
  have values : valuesOf badges badge ⟨"number", "number", .bigint, "INTEGER"⟩ =
      [.integer 1] := by decide
  have held : Held (valuesOf badges badge ⟨"number", "number", .bigint, "INTEGER"⟩) := by
    rw [values]
    intro n listed
    rw [SqliteValue.integer.inj (List.mem_singleton.mp listed)]
    decide
  refine ⟨held, (lossless_iff planned_badges List.mem_cons_self List.mem_cons_self held).mpr ?_⟩
  rw [values]
  intro value listed
  rw [List.mem_singleton.mp listed]
  trivial

variable (numerals database) in
/-- A column of the database loses something. -/
def Loses : Prop :=
  ∃ schema plans, planDatabase plainUnicode numerals database "" = .ok (schema, plans) ∧
    ∃ plan ∈ plans, ∃ column ∈ plan.columns, Held (valuesOf database plan column) ∧
      ¬IsLossless numerals (valuesOf database plan column) column.pgType

/-- Beside a real `2 ^ 53` and `2 ^ 53 + 1` become one double; a text of `2 ^ 63`
becomes a `bigint` for the key it refers to. -/
theorem integers_lost : Loses unread readings ∧ Loses unread badges := by
  constructor
  · refine ⟨"readings", [reading], planned_readings, reading, List.mem_cons_self, _,
      List.mem_cons_self, ?_, fun lossless => ?_⟩
    · have values : valuesOf readings reading ⟨"value", "value", .double, "NUMERIC"⟩ =
          [.integer (2 ^ 53), .integer (2 ^ 53 + 1), .real (.finite (1 / 2))] := by
        decide +kernel
      rw [values]
      intro n listed
      simp only [List.mem_cons, SqliteValue.integer.injEq, reduceCtorEq, List.not_mem_nil,
        or_false] at listed
      rcases listed with rfl | rfl <;> decide
    · have one : adapt unread (.integer (2 ^ 53)) .double = .ok (.double (.finite (2 ^ 53))) :=
        Fallible.toOption_eq_some_iff.mp (by decide +kernel)
      have other : adapt unread (.integer (2 ^ 53 + 1)) .double =
          .ok (.double (.finite (2 ^ 53))) := Fallible.toOption_eq_some_iff.mp (by decide +kernel)
      have same := lossless.apart (2 ^ 53) (2 ^ 53 + 1) (by decide) (by decide)
        (one.trans other.symm)
      exact absurd same (by decide)
  · refine ⟨"badges", [badge, visit], planned_badges, visit,
      List.mem_cons_of_mem _ List.mem_cons_self, _, List.mem_cons_self, ?_, fun lossless => ?_⟩
    · have values : valuesOf badges visit ⟨"badge", "badge", .bigint, "TEXT"⟩ =
          [.text "9223372036854775808"] := by decide
      rw [values]
      intro n listed
      cases List.mem_singleton.mp listed
    · obtain ⟨cell, adapted, range⟩ :=
        lossless.adapted (.text "9223372036854775808") (by decide)
      have read : adapt unread (.text "9223372036854775808") .bigint =
          .ok (.integer (2 ^ 63)) := Fallible.toOption_eq_some_iff.mp (by decide)
      obtain rfl := Except.ok.inj (read.symm.trans adapted)
      have narrow : Is64Bit (2 ^ 63) := range
      exact absurd narrow (by decide)

end Lossless
