import Mathlib.Data.String.Basic
import TextToSqlAgent.Library.Counting
import TextToSqlAgent.Core.Exceptions
import TextToSqlAgent.Core.Python

/-!
# Canonical cell values

`canonical` reduces a driver's value to one that can be compared and counted:
the numeric types are unified and rounded, strings stay strings, `NULL` stays
`NULL`. Python's floats are followed exactly, on the rational numbers they are.
-/

namespace Canonical

open Python Exceptions

/-- Decimal places floats are rounded to. -/
def floatPlaces : Nat := 6

/-- A cell as a driver gives it. A `Decimal` is the number it writes; of a date
or a time the ISO text is kept; a dictionary's keys are distinct texts; any
other object is known by its identity. -/
inductive PyValue
  | none
  | bool (b : Bool)
  | int (n : Int)
  | float (x : PyFloat)
  | decimal (x : PyFloat)
  | temporal (isoformat : String)
  | bytes (content : List UInt8)
  | sequence (items : List PyValue)
  | dict (members : List (String × PyValue))
  | str (s : String)
  | object (identity : Nat)

instance : Inhabited PyValue := ⟨.none⟩

/-- What cells are compared as, up to Python's equality. -/
inductive Canon
  | none
  | number (q : Rat)
  | str (s : String)
  | bytes (content : List UInt8)
  | tuple (items : List Canon)
  | object (identity : Nat)

instance : Inhabited Canon := ⟨.none⟩

mutual

def Canon.decEq : (a b : Canon) → Decidable (a = b)
  | .none, .none => isTrue rfl
  | .number q, .number r => decidable_of_iff (q = r) (by simp)
  | .str s, .str t => decidable_of_iff (s = t) (by simp)
  | .bytes s, .bytes t => decidable_of_iff (s = t) (by simp)
  | .tuple s, .tuple t =>
    match Canon.decEqList s t with
    | isTrue same => isTrue (congrArg Canon.tuple same)
    | isFalse differ => isFalse fun same => differ (Canon.tuple.inj same)
  | .object i, .object j => decidable_of_iff (i = j) (by simp)
  | .none, .number _ | .none, .str _ | .none, .bytes _ | .none, .tuple _ | .none, .object _
  | .number _, .none | .number _, .str _ | .number _, .bytes _ | .number _, .tuple _
  | .number _, .object _ | .str _, .none | .str _, .number _ | .str _, .bytes _
  | .str _, .tuple _ | .str _, .object _ | .bytes _, .none | .bytes _, .number _
  | .bytes _, .str _ | .bytes _, .tuple _ | .bytes _, .object _ | .tuple _, .none
  | .tuple _, .number _ | .tuple _, .str _ | .tuple _, .bytes _ | .tuple _, .object _
  | .object _, .none | .object _, .number _ | .object _, .str _ | .object _, .bytes _
  | .object _, .tuple _ => isFalse nofun

def Canon.decEqList : (a b : List Canon) → Decidable (a = b)
  | [], [] => isTrue rfl
  | [], _ :: _ | _ :: _, [] => isFalse nofun
  | x :: s, y :: t =>
    match Canon.decEq x y, Canon.decEqList s t with
    | isTrue head, isTrue tail => isTrue (head ▸ tail ▸ rfl)
    | isFalse differ, _ => isFalse fun same => differ (List.cons.inj same).1
    | _, isFalse differ => isFalse fun same => differ (List.cons.inj same).2

end

instance : DecidableEq Canon := Canon.decEq

/-! ## Numbers -/

/-- `repr` of a float that is no number. -/
def reprSpecial (negative : Bool) : String := if negative then "-inf" else "inf"

def canonicalFloat : PyFloat → Canon
  | .finite x => .number (roundPlaces floatPlaces x)
  | .inf negative => .str (reprSpecial negative)
  | .nan => .str "nan"

/-- `float(n)` of an integer, then as a float is. -/
def canonicalInt (n : Int) : Except Raised Canon :=
  match toDouble n with
  | some x => .ok (canonicalFloat (.finite x))
  | none => .error (.unexpected "int too large to convert to float")

/-- `float(d)` of a `Decimal`, infinite when too large. -/
def canonicalDecimal : PyFloat → Canon
  | .finite q =>
    match toDouble q with
    | some x => canonicalFloat (.finite x)
    | none => canonicalFloat (.inf (q < 0))
  | x => canonicalFloat x

/-! ## Values -/

/-- Members in the order of their keys. -/
def sortMembers (members : List (String × Canon)) : List (String × Canon) :=
  Counting.sortBy Prod.fst members

mutual

/-- A truth value is tagged: `True == 1.0` in Python, also inside a tuple. -/
def canonical : PyValue → Except Raised Canon
  | .none => .ok .none
  | .bool b => .ok (.tuple [.str "bool", .number (if b then 1 else 0)])
  | .int n => canonicalInt n
  | .float x => .ok (canonicalFloat x)
  | .decimal x => .ok (canonicalDecimal x)
  | .temporal isoformat => .ok (.str isoformat)
  | .bytes content => .ok (.bytes content)
  | .sequence items => return .tuple (← canonicalItems items)
  | .dict members => do
    let pairs ← canonicalMembers members
    return .tuple ((sortMembers pairs).map fun m => .tuple [.str m.1, m.2])
  | .str s => .ok (.str s)
  | .object identity => .ok (.object identity)

def canonicalItems : List PyValue → Except Raised (List Canon)
  | [] => .ok []
  | item :: rest => return (← canonical item) :: (← canonicalItems rest)

def canonicalMembers : List (String × PyValue) → Except Raised (List (String × Canon))
  | [] => .ok []
  | (key, value) :: rest => return (key, ← canonical value) :: (← canonicalMembers rest)

end

/-- The numeric types are unified; a text of digits is no number. -/
example : canonical (.decimal (.finite 1)) = canonical (.int 1) ∧
    canonical (.str "1") ≠ canonical (.int 1) := by decide +kernel

end Canonical
