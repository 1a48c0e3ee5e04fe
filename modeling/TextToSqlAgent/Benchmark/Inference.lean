import TextToSqlAgent.Benchmark.Retyping

/-!
# Two ways to a column's type

A type is inferred from the values of a column as Python sees them, or from the set of
their storage classes as SQLite lists it. Either way it is a matter of that set alone.
-/

namespace Inference

open Python Exceptions Identifiers SqliteSource Plan Retyping

/-! ## From the values -/

/-- What `isinstance` tells apart. -/
inductive PyValue
  | none
  | int (n : Int)
  | float (x : PyFloat)
  | str (s : String)
  | bytes (bytes : List UInt8)
  | other
  deriving DecidableEq, Repr

/-- What `sqlite3` makes of a stored value. -/
def pyValue : SqliteValue → PyValue
  | .null => .none
  | .integer n => .int n
  | .real x => .float x
  | .text s => .str s
  | .blob bytes => .bytes bytes

structure Seen where
  int : Bool
  float : Bool
  str : Bool
  bytes : Bool
  other : Bool
  empty : Bool

def unseen : Seen := ⟨false, false, false, false, false, true⟩

/-- One round of the loop. -/
def Seen.note (seen : Seen) : PyValue → Seen
  | .none => seen
  | .int _ => { seen with int := true, empty := false }
  | .float _ => { seen with float := true, empty := false }
  | .str _ => { seen with str := true, empty := false }
  | .bytes _ => { seen with bytes := true, empty := false }
  | .other => { seen with other := true, empty := false }

/-- A type from the values a column actually holds. -/
def inferPgType (unicode : Unicode) (values : List PyValue) (declared : String) : PgType :=
  let seen := values.foldl Seen.note unseen
  if seen.empty then affinityDefault (sqliteAffinity unicode declared)
  else if seen.str || seen.other then .text
  else if seen.bytes then if seen.int || seen.float then .text else .bytea
  else if seen.float then .double
  else if seen.int then .bigint
  else .text

/-! ## From the storage classes -/

def className : StorageClass → String
  | .null => "null"
  | .integer => "integer"
  | .real => "real"
  | .text => "text"
  | .blob => "blob"

/-- `group_concat(DISTINCT typeof(column))`, from the classes in the order in which they
are met; over no rows it is `NULL`. -/
def groupConcat (classes : List StorageClass) : Option String :=
  match classes with
  | [] => none
  | _ => some (String.ofList ([','].intercalate (classes.map fun c => (className c).toList)))

def classNamed? (name : List Char) : Option StorageClass :=
  [.null, .integer, .real, .text, .blob].find? fun c => (className c).toList = name

/-- `set(str(raw).split(","))`, where there is a text. -/
def readClasses (raw : Option String) : List StorageClass :=
  match raw with
  | none => []
  | some raw => if raw = "" then [] else (raw.toList.splitOn ',').filterMap classNamed?

theorem classNamed?_className (c : StorageClass) : classNamed? (className c).toList = some c := by
  cases c <;> decide

/-- The classes are read off the text as they were listed. -/
theorem readClasses_groupConcat (classes : List StorageClass) :
    readClasses (groupConcat classes) = classes := by
  cases classes with
  | nil => rfl
  | cons c rest =>
    have names : ∀ name ∈ (c :: rest).map (fun c => (className c).toList), ',' ∉ name := by
      intro name listed
      obtain ⟨d, -, rfl⟩ := List.mem_map.mp listed
      cases d <;> decide
    have whole := List.splitOn_intercalate ',' names (List.cons_ne_nil _ _)
    have some_ : String.ofList ([','].intercalate ((c :: rest).map fun c => (className c).toList)) ≠
        "" := by
      intro none_
      have first : ([','].intercalate ((c :: rest).map fun c => (className c).toList)) = [] := by
        rw [← String.toList_ofList (l := [','].intercalate _), none_]
        rfl
      rw [first] at whole
      cases c <;> cases whole
    rw [groupConcat, readClasses, if_neg some_, String.toList_ofList, whole, List.filterMap_map]
    on_goal 2 => exact List.cons_ne_nil c rest
    have each : (classNamed? ∘ fun c => (className c).toList) = some := by
      funext c
      exact classNamed?_className c
    rw [each, List.filterMap_some]

/-! ## Agreement -/

/-- What the loop has noted of values of some storage classes. -/
structure Noted (classes : List StorageClass) (seen : Seen) : Prop where
  int : seen.int = true ↔ .integer ∈ classes
  float : seen.float = true ↔ .real ∈ classes
  str : seen.str = true ↔ .text ∈ classes
  bytes : seen.bytes = true ↔ .blob ∈ classes
  other : seen.other = false
  empty : seen.empty = true ↔ ∀ c ∈ classes, c = .null

theorem noted_unseen : Noted [] unseen := by
  constructor <;> simp [unseen]

/-- One more value is one more class. -/
theorem Noted.note {classes : List StorageClass} {seen : Seen} (noted : Noted classes seen)
    (value : SqliteValue) : Noted (classes ++ [value.typeof]) (seen.note (pyValue value)) := by
  obtain ⟨int, float, str, bytes, other, empty⟩ := noted
  cases value <;> constructor <;>
    simp [pyValue, Seen.note, SqliteValue.typeof, or_imp, forall_and, int, float, str, bytes,
      other, empty]

theorem noted_foldl (values : List SqliteValue) :
    Noted (values.map SqliteValue.typeof) ((values.map pyValue).foldl Seen.note unseen) := by
  induction values using List.reverseRecOn with
  | nil => exact noted_unseen
  | append_singleton values value ih =>
    rw [List.map_append, List.map_append, List.foldl_append]
    exact ih.note value

/-- The two case analyses meet, whatever was noted. -/
theorem inferPgType_eq {unicode : Unicode} {values : List SqliteValue}
    {classes : List StorageClass} (same : ∀ c, c ∈ classes ↔ c ∈ values.map SqliteValue.typeof)
    (declared : String) : inferPgType unicode (values.map pyValue) declared =
      pgTypeForStorageClasses unicode classes declared := by
  obtain ⟨int, float, str, bytes, other, empty⟩ := noted_foldl values
  simp only [← same] at int float str bytes empty
  rw [inferPgType]
  by_cases null : ∀ c ∈ classes, c = .null
  · have none_ : (classes.filter fun c => c ≠ .null) = [] := by
      rw [List.filter_eq_nil_iff]
      intro c listed
      simp [null c listed]
    simp only [pgTypeForStorageClasses, none_, empty.mpr null, List.isEmpty_nil, if_true]
  · have some_ : ((values.map pyValue).foldl Seen.note unseen).empty = false :=
      Bool.eq_false_iff.mpr fun noted => null (empty.mp noted)
    obtain ⟨c, listed, value⟩ : ∃ c ∈ classes, c ≠ .null := by simpa using null
    simp only [pgTypeForStorageClasses_of_mem listed value, some_, Bool.or_eq_true, int, float,
      str, bytes, other, Bool.false_eq_true, or_false, if_false]

/-- Of a column among others, the classes that SQLite lists are those of its values. -/
theorem inferPgType_storageClasses {unicode : Unicode} {database : SqliteDatabase}
    {name column : String} {columns : List String} {classes : Dictionary String (List StorageClass)}
    (read : database.storageClasses name columns = .ok classes) (listed : column ∈ columns)
    (declared : String) :
    inferPgType unicode (((database.rows name [column]).rows.map fun row =>
        row.getD 0 .null).map pyValue) declared =
      pgTypeForStorageClasses unicode ((classes.get? column).getD []) declared := by
  refine inferPgType_eq (fun c => ?_) declared
  rw [get?_storageClasses read listed, classesOf, List.mem_dedup]

/-- Whatever a column holds, both ways choose the same type, in whatever order SQLite
lists the classes; and order and repetition of the values do not matter. -/
theorem inference_agrees (unicode : Unicode) (values : List SqliteValue) (declared : String) :
    (∀ classes : List StorageClass, (∀ c, c ∈ classes ↔ ∃ value ∈ values, value.typeof = c) →
      inferPgType unicode (values.map pyValue) declared =
        pgTypeForStorageClasses unicode (readClasses (groupConcat classes)) declared) ∧
    (∀ others : List SqliteValue, (∀ value, value ∈ others ↔ value ∈ values) →
      inferPgType unicode (others.map pyValue) declared =
        inferPgType unicode (values.map pyValue) declared) ∧
    ∀ (database : SqliteDatabase) (name column : String) (columns : List String)
      (classes : Dictionary String (List StorageClass)),
      database.storageClasses name columns = .ok classes → column ∈ columns →
      ((database.rows name [column]).rows.map fun row => row.getD 0 .null) = values →
      inferPgType unicode (values.map pyValue) declared =
        pgTypeForStorageClasses unicode ((classes.get? column).getD []) declared := by
  refine ⟨fun classes same => ?_, fun others same => ?_, ?_⟩
  · rw [readClasses_groupConcat]
    exact inferPgType_eq (fun c => (same c).trans List.mem_map.symm) declared
  · rw [inferPgType_eq (fun c => Iff.rfl) declared, inferPgType_eq (fun c => ?_) declared]
    simp only [List.mem_map, same]
  · rintro database name column columns classes read listed rfl
    exact inferPgType_storageClasses read listed declared

private def lengths : List SqliteValue :=
  [.null, .integer 1, .real (.finite (1 / 2)), .integer 1]

/-- Whole numbers and others make one column of numbers. -/
theorem inference_agrees_lengths :
    inferPgType plainUnicode (lengths.map pyValue) "INTEGER" = .double ∧
      inferPgType plainUnicode (lengths.map pyValue) "INTEGER" =
        pgTypeForStorageClasses plainUnicode
          (readClasses (groupConcat [.real, .integer, .null])) "INTEGER" :=
  ⟨by decide +kernel, (inference_agrees plainUnicode lengths "INTEGER").1 [.real, .integer, .null]
    fun c => by cases c <;> decide +kernel⟩

end Inference
