import Mathlib.Data.Int.Log
import Mathlib.Data.List.DropRight
import Mathlib.Data.Rat.Floor

/-!
# Python's strings, floats and JSON values

What the modelled code uses of them. A `str` is a `String`, whose characters
are its code points. A `float` is the rational number it stands for, or one of
the values that stand for none.
-/

namespace Python

/-- `str.isspace` of one character. -/
def isSpace (c : Char) : Bool :=
  let n := c.toNat
  (9 ≤ n && n ≤ 13) || (28 ≤ n && n ≤ 32) || n == 0x85 || n == 0xA0 || n == 0x1680 ||
    (0x2000 ≤ n && n ≤ 0x200A) || n == 0x2028 || n == 0x2029 || n == 0x202F || n == 0x205F ||
    n == 0x3000

theorem ascii_cases (P : Char → Prop) (each : ∀ n < 128, P (Char.ofNat n)) {c : Char}
    (ascii : c.toNat < 128) : P c := by
  have own := each c.toNat ascii
  rwa [Char.ofNat_toNat] at own

theorem toLower_of_not_ascii {c : Char} (high : 128 ≤ c.toNat) : c.toLower = c := by
  refine dif_neg fun letter => ?_
  have upper : c.toNat ≤ 90 := UInt32.le_iff_toNat_le.mp letter.2
  omega

theorem isSpace_toLower (c : Char) : isSpace c.toLower = isSpace c := by
  by_cases ascii : c.toNat < 128
  · exact ascii_cases (fun c => isSpace c.toLower = isSpace c) (by decide) ascii
  · rw [toLower_of_not_ascii (Nat.not_lt.mp ascii)]

/-- `str.strip()`. -/
def strip (s : String) : String :=
  String.ofList ((s.toList.dropWhile isSpace).rdropWhile isSpace)

/-- What is left of a list begins as it did after the cut at the front. -/
theorem dropWhile_rdropWhile {α : Type} (p : α → Bool) (l : List α) :
    ((l.dropWhile p).rdropWhile p).dropWhile p = (l.dropWhile p).rdropWhile p := by
  obtain ⟨tail, whole⟩ := List.rdropWhile_prefix p (l := l.dropWhile p)
  have begins := List.dropWhile_idempotent p l
  rw [← whole] at begins
  cases kept : (l.dropWhile p).rdropWhile p with
  | nil => rfl
  | cons a rest =>
    rw [kept, List.cons_append, List.dropWhile_cons] at begins
    split at begins
    · have shorter := congrArg List.length begins
      have bound := (List.dropWhile_suffix p (l := rest ++ tail)).length_le
      rw [List.length_cons] at shorter
      omega
    · rename_i stop
      rw [List.dropWhile_cons, if_neg stop]

theorem strip_strip (s : String) : strip (strip s) = strip s := by
  simp only [strip, String.toList_ofList, dropWhile_rdropWhile, List.rdropWhile_idempotent]

/-- What is stripped to nothing is white space. -/
theorem strip_eq_empty_iff {s : String} : strip s = "" ↔ ∀ c ∈ s.toList, isSpace c = true := by
  rw [strip, String.ofList_eq_empty_iff, List.rdropWhile_eq_nil_iff]
  constructor
  · intro blank
    have nothing : s.toList.dropWhile isSpace = [] := by
      cases kept : s.toList.dropWhile isSpace with
      | nil => rfl
      | cons c rest =>
        have first := List.head_dropWhile_not isSpace (l := s.toList) (by simp [kept])
        simp only [kept, List.head_cons] at first
        exact absurd (blank c (kept ▸ List.mem_cons_self)) (by simp [first])
    exact List.dropWhile_eq_nil_iff.mp nothing
  · intro blank c listed
    exact blank c ((List.dropWhile_suffix isSpace).subset listed)

/-- The characters `str.splitlines` breaks at. -/
def isLineBreak (c : Char) : Bool :=
  let n := c.toNat
  (10 ≤ n && n ≤ 13) || (28 ≤ n && n ≤ 30) || n == 0x85 || n == 0x2028 || n == 0x2029

/-- The first of `s.splitlines()`, for a text that does not begin with a break. -/
def firstOfLines (s : String) : String :=
  String.ofList (s.toList.takeWhile fun c => !isLineBreak c)

/-- The lines of a text without their breaks; nothing follows the last break. -/
def splitLines : List Char → List (List Char)
  | [] => []
  | '\r' :: '\n' :: rest => [] :: splitLines rest
  | c :: rest =>
    if isLineBreak c then [] :: splitLines rest
    else
      match splitLines rest with
      | [] => [[c]]
      | line :: lines => (c :: line) :: lines

/-- `s.splitlines()`. -/
def splitlines (s : String) : List String := (splitLines s.toList).map String.ofList

theorem splitLines_cons {c : Char} (unbroken : isLineBreak c = false) (rest : List Char) :
    splitLines (c :: rest) = match splitLines rest with
      | [] => [[c]]
      | line :: lines => (c :: line) :: lines := by
  have noReturn : c ≠ '\r' := by
    rintro rfl
    cases unbroken
  rw [splitLines]
  · rw [if_neg (by simp [unbroken])]
  · rintro rest rfl
    exact absurd rfl noReturn

theorem splitLines_line {line : List Char} (unbroken : ∀ c ∈ line, isLineBreak c = false)
    (rest : List Char) : splitLines (line ++ '\n' :: rest) = line :: splitLines rest := by
  induction line with
  | nil => rfl
  | cons c line ih =>
    rw [List.cons_append, splitLines_cons (unbroken c List.mem_cons_self),
      ih fun d listed => unbroken d (List.mem_cons_of_mem _ listed)]

/-- Unbroken lines, each ended by a line feed, are split as they were. -/
theorem splitlines_joined {lines : List String}
    (unbroken : ∀ line ∈ lines, ∀ c ∈ line.toList, isLineBreak c = false) :
    splitlines (String.join (lines.map (· ++ "\n"))) = lines := by
  rw [splitlines]
  induction lines with
  | nil => rfl
  | cons line lines ih =>
    have later := ih fun other listed => unbroken other (List.mem_cons_of_mem _ listed)
    have framed : (String.join ((line :: lines).map (· ++ "\n"))).toList =
        line.toList ++ '\n' :: (String.join (lines.map (· ++ "\n"))).toList := by
      simp
    rw [framed, splitLines_line (unbroken line List.mem_cons_self), List.map_cons, later,
      String.ofList_toList]

/-- The first of each ten decimal digits of Unicode 15.0. -/
def decimalZeros : List Nat :=
  [0x30, 0x660, 0x6F0, 0x7C0, 0x966, 0x9E6, 0xA66, 0xAE6, 0xB66, 0xBE6, 0xC66, 0xCE6, 0xD66, 0xDE6,
    0xE50, 0xED0, 0xF20, 0x1040, 0x1090, 0x17E0, 0x1810, 0x1946, 0x19D0, 0x1A80, 0x1A90, 0x1B50,
    0x1BB0, 0x1C40, 0x1C50, 0xA620, 0xA8D0, 0xA900, 0xA9D0, 0xA9F0, 0xAA50, 0xABF0, 0xFF10,
    0x104A0, 0x10D30, 0x11066, 0x110F0, 0x11136, 0x111D0, 0x112F0, 0x11450, 0x114D0, 0x11650,
    0x116C0, 0x11730, 0x118E0, 0x11950, 0x11C50, 0x11D50, 0x11DA0, 0x11F50, 0x16A60, 0x16AC0,
    0x16B50, 0x1D7CE, 0x1D7D8, 0x1D7E2, 0x1D7EC, 0x1D7F6, 0x1E140, 0x1E2F0, 0x1E4F0, 0x1E950,
    0x1FBF0]

def decimalDigit (c : Char) : Option Nat :=
  (decimalZeros.find? fun first => first ≤ c.toNat && c.toNat < first + 10).map (c.toNat - ·)

/-- Digits, with single underscores between them. -/
def readDigits (value : Nat) (afterDigit : Bool) : List Char → Option Nat
  | [] => if afterDigit then some value else none
  | c :: rest =>
    if c = '_' then
      if afterDigit then readDigits value false rest else none
    else
      match decimalDigit c with
      | some digit => readDigits (10 * value + digit) true rest
      | none => none

/-- `int(text)`; a `ValueError` is none. Of the white space below 127 only that
of C is skipped, and more than 4300 digits are refused. -/
def int (text : String) : Option Int :=
  let blank (c : Char) : Bool :=
    c = ' ' || (9 ≤ c.toNat && c.toNat ≤ 13) || (127 < c.toNat && isSpace c)
  let read (digits : List Char) : Option Nat :=
    if 4300 < digits.countP fun c => c ≠ '_' then none else readDigits 0 false digits
  match (text.toList.dropWhile blank).rdropWhile blank with
  | '-' :: digits => (read digits).map fun n => -(n : Int)
  | '+' :: digits => (read digits).map fun n => (n : Int)
  | digits => (read digits).map fun n => (n : Int)

/-- `a or b` for texts: the empty one is false. -/
def orText (a : Option String) (b : String) : String :=
  match a with
  | some s => if s = "" then b else s
  | none => b

inductive PyFloat
  | finite (q : Rat)
  | inf (negative : Bool)
  | nan
  deriving DecidableEq, Repr

/-- `x > y`; nothing is greater than anything where one side is NaN. -/
def PyFloat.gt : PyFloat → PyFloat → Bool
  | .finite q, .finite r => decide (r < q)
  | .finite _, .inf negative => negative
  | .inf negative, .finite _ => !negative
  | .inf negative, .inf other => !negative && other
  | _, _ => false

/-- `x + y` of exact numbers. -/
def PyFloat.add : PyFloat → PyFloat → PyFloat
  | .finite q, .finite r => .finite (q + r)
  | .finite _, .inf negative => .inf negative
  | .inf negative, .finite _ => .inf negative
  | .inf negative, .inf other => if negative = other then .inf negative else .nan
  | _, _ => .nan

/-- `x / n` of an exact number and a length. -/
def PyFloat.divBy (n : Nat) : PyFloat → PyFloat
  | .finite q => .finite (q / n)
  | x => x

/-- The nearest integer, and the even one of two equally near. -/
def roundHalfEven (q : Rat) : Int :=
  let below := ⌊q⌋
  let part := q - below
  if part < 1 / 2 then below
  else if 1 / 2 < part then below + 1
  else if below % 2 = 0 then below else below + 1

/-- The double nearest to a number, and the even one of two equally near: a
significand of 53 bits, and no bit below `2 ^ -1074`. -/
def nearestDouble (q : Rat) : Rat :=
  let lowest := max (Int.log 2 |q| - 52) (-1074)
  roundHalfEven (q / 2 ^ lowest) * 2 ^ lowest

-- Irreducible, so that no unification computes `2 ^ 1024`.
/-- `float(q)` of an exact number; too large a number is none. -/
@[irreducible]
def toDouble (q : Rat) : Option Rat :=
  let x := nearestDouble q
  if |x| < 2 ^ 1024 then some x else none

/-- `round(x, places)` of a double: the decimal nearest to it, as a double. -/
def roundPlaces (places : Nat) (x : Rat) : Rat :=
  nearestDouble (roundHalfEven (x * 10 ^ places) / 10 ^ places)

theorem roundHalfEven_nonneg {q : Rat} (nonneg : 0 ≤ q) : 0 ≤ roundHalfEven q := by
  have below : 0 ≤ ⌊q⌋ := Int.floor_nonneg.mpr nonneg
  simp only [roundHalfEven]
  split_ifs <;> omega

theorem nearestDouble_nonneg {q : Rat} (nonneg : 0 ≤ q) : 0 ≤ nearestDouble q := by
  have unit : (0 : Rat) < 2 ^ max (Int.log 2 |q| - 52) (-1074) := zpow_pos (by norm_num) _
  have units := roundHalfEven_nonneg (div_nonneg nonneg unit.le)
  exact mul_nonneg (Int.cast_nonneg units) unit.le

theorem roundPlaces_nonneg {x : Rat} (places : Nat) (nonneg : 0 ≤ x) :
    0 ≤ roundPlaces places x := by
  have power : (0 : Rat) ≤ 10 ^ places := pow_nonneg (by norm_num) _
  have units := roundHalfEven_nonneg (mul_nonneg nonneg power)
  exact nearestDouble_nonneg (div_nonneg (Int.cast_nonneg units) power)

theorem roundHalfEven_zero : roundHalfEven 0 = 0 := by decide +kernel

theorem nearestDouble_zero : nearestDouble 0 = 0 := by
  rw [nearestDouble, zero_div, roundHalfEven_zero, Int.cast_zero, zero_mul]

theorem roundPlaces_zero (places : Nat) : roundPlaces places 0 = 0 := by
  rw [roundPlaces, zero_mul, roundHalfEven_zero, Int.cast_zero, zero_div, nearestDouble_zero]

/-- Digits from the last one on, with a comma after every third. -/
def groupDigits : List Char → List Char
  | a :: b :: c :: d :: rest => a :: b :: c :: ',' :: groupDigits (d :: rest)
  | digits => digits

/-- `f"{q:,.0f}"`. -/
def grouped (q : Rat) : String :=
  let digits := (toString (roundHalfEven q).natAbs).toList.reverse
  let text := String.ofList (groupDigits digits).reverse
  if q < 0 then "-" ++ text else text

def PyFloat.grouped : PyFloat → String
  | .finite q => Python.grouped q
  | .inf negative => if negative then "-inf" else "inf"
  | .nan => "nan"

/-- What `json.loads` gives, objects in the order of their keys' appearance. -/
inductive Json
  | null
  | bool (b : Bool)
  | int (n : Int)
  | float (x : PyFloat)
  | str (s : String)
  | arr (items : List Json)
  | obj (members : List (String × Json))

/-- `bool(value)`. -/
def Json.truthy : Json → Bool
  | .null => false
  | .bool b => b
  | .int n => n != 0
  | .float x => x != .finite 0
  | .str s => s != ""
  | .arr items => !items.isEmpty
  | .obj members => !members.isEmpty

/-- `type(value).__name__`. -/
def Json.typeName : Json → String
  | .null => "NoneType"
  | .bool _ => "bool"
  | .int _ => "int"
  | .float _ => "float"
  | .str _ => "str"
  | .arr _ => "list"
  | .obj _ => "dict"

/-- `d.get(key)` of a dictionary. -/
def Json.get? (members : List (String × Json)) (key : String) : Option Json :=
  (members.find? fun m => m.1 == key).map Prod.snd

/-- The number that `sum` adds; a truth value is one. -/
def Json.number : Json → Option PyFloat
  | .bool b => some (.finite (if b then 1 else 0))
  | .int n => some (.finite n)
  | .float x => some x
  | _ => none

/-- Whether a set or a dictionary takes the value as a key. -/
def Json.hashable : Json → Bool
  | .arr _ => false
  | .obj _ => false
  | _ => true

example : ["+1_000", "_1", " ٣٤ "].map int = [some 1000, none, some 34] := by decide

/-- A carriage return and its line feed are one break, and a vertical tab is one. -/
example : splitlines "a\r\nb\n\nc\x0bd" = ["a", "b", "", "c", "d"] := by decide

/-- The white space a model's text ends in is dropped on both sides. -/
example : strip " \tSELECT 1;\n" = "SELECT 1;" := by decide

end Python
