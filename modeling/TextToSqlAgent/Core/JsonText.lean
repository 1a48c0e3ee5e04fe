import TextToSqlAgent.Core.Python
import TextToSqlAgent.Library.Dictionary

/-!
# JSON as Python reads and writes it

`json.dumps` with its defaults: everything outside printable ASCII is escaped.
`json.loads` of a text; a lone surrogate in a text, which no `String` holds, is
an outcome of its own, and depth is not limited. How a `float` is written is a
parameter.
-/

namespace JsonText

open Python

/-! ## Writing -/

/-- The digits of a code unit. -/
def hexUnit (n : Nat) : List Char :=
  [Nat.digitChar (n / 4096 % 16), Nat.digitChar (n / 256 % 16), Nat.digitChar (n / 16 % 16),
    Nat.digitChar (n % 16)]

def escapedUnit (n : Nat) : List Char := '\\' :: 'u' :: hexUnit n

/-- One character between quotes; beyond the first plane it is a surrogate pair. -/
def escapeChar (c : Char) : List Char :=
  let n := c.toNat
  if c = '"' then ['\\', '"']
  else if c = '\\' then ['\\', '\\']
  else if c = '\n' then ['\\', 'n']
  else if c = '\r' then ['\\', 'r']
  else if c = '\t' then ['\\', 't']
  else if n = 12 then ['\\', 'f']
  else if n = 8 then ['\\', 'b']
  else if 32 ≤ n ∧ n ≤ 126 then [c]
  else if n < 0x10000 then escapedUnit n
  else escapedUnit (0xD800 + (n - 0x10000) / 0x400) ++ escapedUnit (0xDC00 + (n - 0x10000) % 0x400)

/-- The characters that have a letter of their own behind the backslash. -/
def shortEscapes : List (Char × Char) :=
  [('"', '"'), ('\\', '\\'), ('\n', 'n'), ('\r', 'r'), ('\t', 't'), (Char.ofNat 12, 'f'),
    (Char.ofNat 8, 'b')]

/-- What a character may be written as. -/
inductive Written (c : Char) : List Char → Prop
  | short {d : Char} (listed : (c, d) ∈ shortEscapes) : Written c ['\\', d]
  | plain (noQuote : c ≠ '"') (noSlash : c ≠ '\\') (visible : 32 ≤ c.toNat ∧ c.toNat ≤ 126) :
    Written c [c]
  | unit (basic : c.toNat < 0x10000) : Written c (escapedUnit c.toNat)
  | pair (beyond : ¬c.toNat < 0x10000) :
    Written c (escapedUnit (0xD800 + (c.toNat - 0x10000) / 0x400) ++
      escapedUnit (0xDC00 + (c.toNat - 0x10000) % 0x400))

theorem written_escapeChar (c : Char) : Written c (escapeChar c) := by
  have code {n : Nat} (is : c.toNat = n) : c = Char.ofNat n := by rw [← is, Char.ofNat_toNat]
  refine iteInduction (fun quote => .short (by simp [shortEscapes, quote])) fun quote => ?_
  refine iteInduction (fun slash => .short (by simp [shortEscapes, slash])) fun slash => ?_
  refine iteInduction (fun lf => .short (by simp [shortEscapes, lf])) fun _ => ?_
  refine iteInduction (fun cr => .short (by simp [shortEscapes, cr])) fun _ => ?_
  refine iteInduction (fun tab => .short (by simp [shortEscapes, tab])) fun _ => ?_
  refine iteInduction (fun ff => .short (by simp [shortEscapes, code ff])) fun _ => ?_
  refine iteInduction (fun bs => .short (by simp [shortEscapes, code bs])) fun _ => ?_
  refine iteInduction (fun visible => .plain quote slash visible) fun _ => ?_
  exact iteInduction (fun basic => .unit basic) fun beyond => .pair beyond

/-- What is written of a text after its first quote. -/
def escape (text : List Char) : List Char := text.flatMap escapeChar ++ ['"']

def quoted (s : String) : List Char := '"' :: escape s.toList

section Dumps

variable (floatText : Rat → String)

mutual

def dumpsChars : Json → List Char
  | .null => "null".toList
  | .bool b => (if b then "true" else "false").toList
  | .int n => (toString n).toList
  | .float (.finite q) => (floatText q).toList
  | .float (.inf negative) => (if negative then "-Infinity" else "Infinity").toList
  | .float .nan => "NaN".toList
  | .str s => quoted s
  | .arr [] => ['[', ']']
  | .arr (item :: items) => '[' :: (dumpsChars item ++ dumpsItems items)
  | .obj [] => ['{', '}']
  | .obj ((key, value) :: members) =>
    '{' :: (quoted key ++ ':' :: ' ' :: (dumpsChars value ++ dumpsMembers members))

/-- What follows an item of a list. -/
def dumpsItems : List Json → List Char
  | [] => [']']
  | item :: items => ',' :: ' ' :: (dumpsChars item ++ dumpsItems items)

/-- What follows a member of an object. -/
def dumpsMembers : List (String × Json) → List Char
  | [] => ['}']
  | (key, value) :: members =>
    ',' :: ' ' :: (quoted key ++ ':' :: ' ' :: (dumpsChars value ++ dumpsMembers members))

end

/-- `json.dumps(value)`. -/
def dumps (value : Json) : String := String.ofList (dumpsChars floatText value)

end Dumps

/-! ## Reading texts -/

/-- A `JSONDecodeError` with its message, the `ValueError` of a number with too
many digits, or a text that is no `String`. -/
inductive JsonError
  | decode (message : String)
  | value (message : String)
  | surrogate
  deriving DecidableEq, Repr

def hexDigit? (c : Char) : Option Nat :=
  let n := c.toNat
  if 48 ≤ n ∧ n ≤ 57 then some (n - 48)
  else if 97 ≤ n ∧ n ≤ 102 then some (n - 87)
  else if 65 ≤ n ∧ n ≤ 70 then some (n - 55)
  else none

/-- The code unit of four hexadecimal digits. -/
def unit? (a b c d : Char) : Option Nat := do
  let a ← hexDigit? a
  let b ← hexDigit? b
  let c ← hexDigit? c
  let d ← hexDigit? d
  return ((a * 16 + b) * 16 + c) * 16 + d

def isHigh (n : Nat) : Bool := 0xD800 ≤ n && n ≤ 0xDBFF

def isLow (n : Nat) : Bool := 0xDC00 ≤ n && n ≤ 0xDFFF

/-- The character that a backslash and this one stand for. -/
def unescape? (c : Char) : Option Char :=
  if c = '"' || c = '\\' || c = '/' then some c
  else if c = 'b' then some (Char.ofNat 8)
  else if c = 'f' then some (Char.ofNat 12)
  else if c = 'n' then some '\n'
  else if c = 'r' then some '\r'
  else if c = 't' then some '\t'
  else none

/-- What was read of a text, and the rest. -/
abbrev Scanned : Type := Except JsonError (List Char × List Char)

def before (c : Char) : Scanned → Scanned
  | .ok (text, rest) => .ok (c :: text, rest)
  | .error exc => .error exc

def invalidUnit : JsonError := .decode "Invalid \\uXXXX escape"

/-- A text, after its first quote. -/
def scanString : List Char → Scanned
  | [] => .error (.decode "Unterminated string starting at")
  | '"' :: rest => .ok ([], rest)
  | '\\' :: 'u' :: a :: b :: c :: d :: rest =>
    match unit? a b c d with
    | none => .error invalidUnit
    | some n =>
      if isHigh n then
        match rest with
        | '\\' :: 'u' :: e :: f :: g :: h :: more =>
          match unit? e f g h with
          | none => .error invalidUnit
          | some m =>
            if isLow m then
              before (Char.ofNat (0x10000 + (n - 0xD800) * 0x400 + (m - 0xDC00))) (scanString more)
            else .error .surrogate
        | _ => .error .surrogate
      else if isLow n then .error .surrogate
      else if rest.isEmpty then .error invalidUnit
      else before (Char.ofNat n) (scanString rest)
  | '\\' :: 'u' :: _ => .error invalidUnit
  | ['\\'] => .error (.decode "Unterminated string starting at")
  | '\\' :: c :: rest =>
    match unescape? c with
    | some plain => before plain (scanString rest)
    | none => .error (.decode "Invalid \\escape: ")
  | c :: rest =>
    if c.toNat < 32 then .error (.decode "Invalid control character at")
    else before c (scanString rest)

/-! ## Reading numbers -/

def isDigit (c : Char) : Bool := 48 ≤ c.toNat && c.toNat ≤ 57

def digitsValue (digits : List Char) : Nat :=
  digits.foldl (fun n c => 10 * n + (c.toNat - 48)) 0

/-- The digits after a point, if there are any. -/
def fraction : List Char → Option (List Char) × List Char
  | '.' :: rest =>
    match rest.takeWhile isDigit with
    | [] => (none, '.' :: rest)
    | digits => (some digits, rest.dropWhile isDigit)
  | rest => (none, rest)

/-- The exponent, if there is one. -/
def exponent (text : List Char) : Option Int × List Char :=
  match text with
  | c :: rest =>
    if c = 'e' ∨ c = 'E' then
      let (negative, body) := match rest with
        | '-' :: body => (true, body)
        | '+' :: body => (false, body)
        | body => (false, body)
      match body.takeWhile isDigit with
      | [] => (none, text)
      | digits =>
        let n := digitsValue digits
        (some (if negative then -n else n), body.dropWhile isDigit)
    else (none, text)
  | [] => (none, [])

/-- `float` of a number written with a point or an exponent. -/
def decimalFloat (negative : Bool) (whole fraction : List Char) (exponent : Int) : PyFloat :=
  match toDouble (digitsValue (whole ++ fraction) * 10 ^ (exponent - fraction.length)) with
  | some q => .finite (if negative then -q else q)
  | none => .inf negative

/-- The whole part of a number, without a leading zero. -/
def wholePart : List Char → Option (List Char × List Char)
  | [] => none
  | c :: rest =>
    if c = '0' then some (['0'], rest)
    else if isDigit c then some (c :: rest.takeWhile isDigit, rest.dropWhile isDigit)
    else none

def tooManyDigits (count : Nat) : String :=
  "Exceeds the limit (4300 digits) for integer string conversion: value has " ++
    s!"{count} digits; use sys.set_int_max_str_digits() to increase the limit"

/-- A number, if one begins here. -/
def scanNumber (text : List Char) : Option (Except JsonError (Json × List Char)) :=
  let (negative, body) := match text with
    | '-' :: body => (true, body)
    | body => (false, body)
  match wholePart body with
  | none => none
  | some (whole, rest) =>
    let (digits, rest) := fraction rest
    let (power, rest) := exponent rest
    if digits.isSome ∨ power.isSome then
      some (.ok (.float (decimalFloat negative whole (digits.getD []) (power.getD 0)), rest))
    else
      match Python.int (String.ofList (if negative then '-' :: whole else whole)) with
      | some n => some (.ok (.int n, rest))
      | none => some (.error (.value (tooManyDigits whole.length)))

/-! ## Reading values -/

def isBlank (c : Char) : Bool := c = ' ' || c = '\t' || c = '\n' || c = '\r'

def skipBlanks (text : List Char) : List Char := text.dropWhile isBlank

/-- The constants, and what they stand for. -/
def constants : List (String × Json) :=
  [("null", .null), ("true", .bool true), ("false", .bool false), ("NaN", .float .nan),
    ("Infinity", .float (.inf false)), ("-Infinity", .float (.inf true))]

/-- A constant or a number. -/
def scanAtom (text : List Char) : Except JsonError (Json × List Char) :=
  match constants.find? fun constant => constant.1.toList.isPrefixOf text with
  | some constant => .ok (constant.2, text.drop constant.1.length)
  | none => (scanNumber text).getD (.error (.decode "Expecting value"))

mutual

/-- A value, nested no deeper than the fuel. -/
def parseValue : Nat → List Char → Except JsonError (Json × List Char)
  | 0, _ => .error (.decode "Expecting value")
  | fuel + 1, text =>
    match text with
    | '"' :: rest => do
      let (s, rest) ← scanString rest
      return (.str (String.ofList s), rest)
    | '[' :: rest =>
      match skipBlanks rest with
      | ']' :: rest => .ok (.arr [], rest)
      | rest => do
        let (items, rest) ← parseItems fuel rest
        return (.arr items, rest)
    | '{' :: rest =>
      match skipBlanks rest with
      | '}' :: rest => .ok (.obj [], rest)
      | rest => do
        let (members, rest) ← parseMembers fuel rest
        return (.obj (Dictionary.ofList members).entries, rest)
    | text => scanAtom text

/-- Items up to the end of a list. -/
def parseItems : Nat → List Char → Except JsonError (List Json × List Char)
  | 0, _ => .error (.decode "Expecting value")
  | fuel + 1, text => do
    let (item, rest) ← parseValue fuel text
    match skipBlanks rest with
    | ']' :: rest => return ([item], rest)
    | ',' :: rest =>
      let (items, rest) ← parseItems fuel (skipBlanks rest)
      return (item :: items, rest)
    | _ => throw (.decode "Expecting ',' delimiter")

/-- Members up to the end of an object. -/
def parseMembers : Nat → List Char → Except JsonError (List (String × Json) × List Char)
  | 0, _ => .error (.decode "Expecting value")
  | fuel + 1, text =>
    match text with
    | '"' :: rest => do
      let (key, rest) ← scanString rest
      match skipBlanks rest with
      | ':' :: rest =>
        let (value, rest) ← parseValue fuel (skipBlanks rest)
        match skipBlanks rest with
        | '}' :: rest => return ([(String.ofList key, value)], rest)
        | ',' :: rest =>
          let (members, rest) ← parseMembers fuel (skipBlanks rest)
          return ((String.ofList key, value) :: members, rest)
        | _ => throw (.decode "Expecting ',' delimiter")
      | _ => throw (.decode "Expecting ':' delimiter")
    | _ => throw (.decode "Expecting property name enclosed in double quotes")

end

/-- `json.loads(text)`. No text nests deeper than its own length. -/
def loads (text : String) : Except JsonError Json :=
  let chars := text.toList
  if chars.head? = some (Char.ofNat 0xFEFF) then
    .error (.decode "Unexpected UTF-8 BOM (decode using utf-8-sig)")
  else do
    let (value, rest) ← parseValue (2 * chars.length + 1) (skipBlanks chars)
    if (skipBlanks rest).isEmpty then return value
    else throw (.decode "Extra data")

/-! ## A text written and read -/

theorem hexDigit?_digitChar : ∀ n < 16, hexDigit? (Nat.digitChar n) = some n := by decide

theorem unit?_hexUnit {n : Nat} (small : n < 0x10000) :
    unit? (Nat.digitChar (n / 4096 % 16)) (Nat.digitChar (n / 256 % 16))
      (Nat.digitChar (n / 16 % 16)) (Nat.digitChar (n % 16)) = some n := by
  simp only [unit?, hexDigit?_digitChar _ (Nat.mod_lt _ (by decide : 0 < 16)), bind, pure,
    Option.bind_some]
  congr 1
  omega

theorem scanString_unit {n : Nat} (small : n < 0x10000) (high : isHigh n = false)
    (low : isLow n = false) {rest : List Char} (more : rest ≠ []) :
    scanString (escapedUnit n ++ rest) = before (Char.ofNat n) (scanString rest) := by
  have nonempty : rest.isEmpty = false := by simpa using more
  simp only [escapedUnit, hexUnit, List.cons_append, List.nil_append, scanString,
    unit?_hexUnit small, high, low, nonempty, Bool.false_eq_true, if_false]

theorem scanString_pair {n m : Nat} (high : isHigh n = true) (low : isLow m = true)
    (rest : List Char) :
    scanString (escapedUnit n ++ (escapedUnit m ++ rest)) =
      before (Char.ofNat (0x10000 + (n - 0xD800) * 0x400 + (m - 0xDC00))) (scanString rest) := by
  have first : n < 0x10000 := by
    simp only [isHigh, Bool.and_eq_true, decide_eq_true_eq] at high
    omega
  have second : m < 0x10000 := by
    simp only [isLow, Bool.and_eq_true, decide_eq_true_eq] at low
    omega
  simp only [escapedUnit, hexUnit, List.cons_append, List.nil_append, scanString,
    unit?_hexUnit first, unit?_hexUnit second, high, low, if_true]

theorem scanString_plain {c : Char} (noQuote : c ≠ '"') (noSlash : c ≠ '\\')
    (visible : 32 ≤ c.toNat) (rest : List Char) :
    scanString (c :: rest) = before c (scanString rest) := by
  have shown : ¬c.toNat < 32 := by omega
  simp [scanString, noSlash, shown]

/-- A character is read as it was written. -/
theorem scanString_escapeChar (c : Char) {rest : List Char} (more : rest ≠ []) :
    scanString (escapeChar c ++ rest) = before c (scanString rest) := by
  have same : Char.ofNat c.toNat = c := Char.ofNat_toNat c
  have written := written_escapeChar c
  generalize escapeChar c = text at written
  cases written with
  | short listed =>
    simp only [shortEscapes, List.mem_cons, Prod.mk.injEq, List.not_mem_nil, or_false] at listed
    rcases listed with ⟨rfl, rfl⟩ | ⟨rfl, rfl⟩ | ⟨rfl, rfl⟩ | ⟨rfl, rfl⟩ | ⟨rfl, rfl⟩ | ⟨rfl, rfl⟩ |
      ⟨rfl, rfl⟩
    all_goals rfl
  | plain noQuote noSlash visible => exact scanString_plain noQuote noSlash visible.1 rest
  | unit basic =>
    rcases c.valid with lower | ⟨upper, -⟩
    · have below : c.toNat < 0xD800 := lower
      rw [scanString_unit basic (by simp [isHigh]; omega) (by simp [isLow]; omega) more, same]
    · have above : 0xDFFF < c.toNat := upper
      rw [scanString_unit basic (by simp [isHigh]; omega) (by simp [isLow]; omega) more, same]
  | pair beyond =>
    have bound : c.toNat < 0x110000 := by
      rcases c.valid with lower | ⟨-, upper⟩
      · have below : c.toNat < 0xD800 := lower
        omega
      · exact upper
    have high : isHigh (0xD800 + (c.toNat - 0x10000) / 0x400) = true := by
      simp only [isHigh, Bool.and_eq_true, decide_eq_true_eq]
      omega
    have low : isLow (0xDC00 + (c.toNat - 0x10000) % 0x400) = true := by
      simp only [isLow, Bool.and_eq_true, decide_eq_true_eq]
      omega
    have joined : 0x10000 + (0xD800 + (c.toNat - 0x10000) / 0x400 - 0xD800) * 0x400 +
        (0xDC00 + (c.toNat - 0x10000) % 0x400 - 0xDC00) = c.toNat := by
      omega
    rw [List.append_assoc, scanString_pair high low, joined, same]

/-- A text is read as it was written. -/
theorem scanString_escape (text rest : List Char) :
    scanString (escape text ++ rest) = .ok (text, rest) := by
  induction text with
  | nil => rfl
  | cons c text ih =>
    have more : escape text ++ rest ≠ [] := by simp [escape]
    have written : escape (c :: text) ++ rest = escapeChar c ++ (escape text ++ rest) := by
      simp [escape]
    rw [written, scanString_escapeChar c more, ih]
    rfl

/-! ## A value written and read -/

variable {floatText : Rat → String}

/-- A value without numbers; no key is twice in an object. -/
inductive Plain : Json → Prop
  | null : Plain .null
  | bool (b : Bool) : Plain (.bool b)
  | str (s : String) : Plain (.str s)
  | arr (items : List Json) (each : ∀ item ∈ items, Plain item) : Plain (.arr items)
  | obj (members : List (String × Json)) (distinct : (members.map Prod.fst).Nodup)
      (each : ∀ m ∈ members, Plain m.2) : Plain (.obj members)

/-- Where a value begins: no blank, and not where a list or an object ends. -/
def Begins (text : List Char) : Prop :=
  ∃ c rest, text = c :: rest ∧ isBlank c = false ∧ c ≠ ']' ∧ c ≠ '}'

theorem begins_dumpsChars {value : Json} (plain : Plain value) :
    Begins (dumpsChars floatText value) := by
  cases plain with
  | null => exact ⟨_, _, rfl, by decide, by decide, by decide⟩
  | bool b => cases b <;> exact ⟨_, _, rfl, by decide, by decide, by decide⟩
  | str s => exact ⟨_, _, rfl, by decide, by decide, by decide⟩
  | arr items each => cases items <;> exact ⟨_, _, rfl, by decide, by decide, by decide⟩
  | obj members distinct each =>
    cases members <;> exact ⟨_, _, rfl, by decide, by decide, by decide⟩

theorem skipBlanks_of_begins {text : List Char} (begins : Begins text) (rest : List Char) :
    skipBlanks (text ++ rest) = text ++ rest := by
  obtain ⟨c, tail, rfl, visible, -, -⟩ := begins
  rw [skipBlanks, List.cons_append, List.dropWhile_cons_of_neg (by simp [visible])]

variable (floatText) in
/-- With fuel for its length, a value is read as it was written. -/
def ReadsBack (value : Json) : Prop :=
  ∀ fuel rest, 2 * (dumpsChars floatText value).length ≤ fuel →
    parseValue fuel (dumpsChars floatText value ++ rest) = .ok (value, rest)

theorem parseItems_dumps (item : Json) (items : List Json)
    (begin : ∀ value ∈ item :: items, Begins (dumpsChars floatText value))
    (each : ∀ value ∈ item :: items, ReadsBack floatText value) (fuel : Nat) (rest : List Char)
    (enough : 2 * (dumpsChars floatText item ++ dumpsItems floatText items).length ≤ fuel) :
    parseItems fuel (dumpsChars floatText item ++ (dumpsItems floatText items ++ rest)) =
      .ok (item :: items, rest) := by
  induction items generalizing item fuel with
  | nil =>
    simp only [dumpsItems, List.length_append, List.length_cons, List.length_nil] at enough
    obtain ⟨fuel, rfl⟩ : ∃ less, fuel = less + 1 := ⟨fuel - 1, by omega⟩
    have first := each item List.mem_cons_self fuel (']' :: rest) (by omega)
    simp only [dumpsItems, List.cons_append, List.nil_append]
    rw [parseItems, first]
    rfl
  | cons next items ih =>
    simp only [dumpsItems, List.length_append, List.length_cons] at enough
    obtain ⟨fuel, rfl⟩ : ∃ less, fuel = less + 1 := ⟨fuel - 1, by omega⟩
    have first := each item List.mem_cons_self fuel
      (',' :: ' ' :: (dumpsChars floatText next ++ (dumpsItems floatText items ++ rest)))
      (by omega)
    have later := ih next (fun value listed => begin value (List.mem_cons_of_mem _ listed))
      (fun value listed => each value (List.mem_cons_of_mem _ listed)) fuel
      (by rw [List.length_append]; omega)
    have skipped : skipBlanks (' ' :: (dumpsChars floatText next ++
        (dumpsItems floatText items ++ rest))) =
          dumpsChars floatText next ++ (dumpsItems floatText items ++ rest) :=
      skipBlanks_of_begins (begin next (by simp)) _
    simp only [dumpsItems, List.cons_append, List.append_assoc]
    rw [parseItems, first]
    change (do
      let (found, left) ← parseItems fuel (skipBlanks (' ' :: (dumpsChars floatText next ++
        (dumpsItems floatText items ++ rest))))
      return (item :: found, left)) = _
    rw [skipped, later]
    rfl

/-- A member whose value has been read. -/
theorem parseMembers_step {fuel : Nat} {key : String} {value : Json} (text : List Char)
    {left : List Char}
    (read : parseValue fuel (skipBlanks text) = .ok (value, left)) :
    parseMembers (fuel + 1) (quoted key ++ ':' :: text) =
      match skipBlanks left with
      | '}' :: rest => .ok ([(key, value)], rest)
      | ',' :: rest => do
        let (members, rest) ← parseMembers fuel (skipBlanks rest)
        return ((key, value) :: members, rest)
      | _ => .error (.decode "Expecting ',' delimiter") := by
  rw [quoted, List.cons_append, parseMembers, scanString_escape]
  change (do
    let (value, rest) ← parseValue fuel (skipBlanks text)
    match skipBlanks rest with
    | '}' :: rest => return ([(String.ofList key.toList, value)], rest)
    | ',' :: rest =>
      let (members, rest) ← parseMembers fuel (skipBlanks rest)
      return ((String.ofList key.toList, value) :: members, rest)
    | _ => throw (JsonError.decode "Expecting ',' delimiter")) = _
  rw [read, String.ofList_toList]
  rfl

theorem parseMembers_dumps (key : String) (value : Json) (members : List (String × Json))
    (begin : ∀ m ∈ (key, value) :: members, Begins (dumpsChars floatText m.2))
    (each : ∀ m ∈ (key, value) :: members, ReadsBack floatText m.2) (fuel : Nat)
    (rest : List Char)
    (enough : 2 * (quoted key ++ ':' :: ' ' ::
      (dumpsChars floatText value ++ dumpsMembers floatText members)).length ≤ fuel) :
    parseMembers fuel (quoted key ++ ':' :: ' ' ::
        (dumpsChars floatText value ++ (dumpsMembers floatText members ++ rest))) =
      .ok ((key, value) :: members, rest) := by
  induction members generalizing key value fuel with
  | nil =>
    have own : ReadsBack floatText value := each (key, value) List.mem_cons_self
    have blank := skipBlanks_of_begins (begin (key, value) List.mem_cons_self)
    simp only [dumpsMembers, List.length_append, List.length_cons, List.length_nil] at enough
    obtain ⟨fuel, rfl⟩ : ∃ less, fuel = less + 1 := ⟨fuel - 1, by omega⟩
    have first := own fuel ('}' :: rest) (by omega)
    rw [← blank] at first
    exact parseMembers_step (' ' :: _) first
  | cons next members ih =>
    obtain ⟨name, other⟩ := next
    have own : ReadsBack floatText value := each (key, value) List.mem_cons_self
    have blank := skipBlanks_of_begins (begin (key, value) List.mem_cons_self)
    simp only [dumpsMembers, List.length_append, List.length_cons] at enough
    obtain ⟨fuel, rfl⟩ : ∃ less, fuel = less + 1 := ⟨fuel - 1, by omega⟩
    have first := own fuel (',' :: ' ' :: (quoted name ++ ':' :: ' ' ::
      (dumpsChars floatText other ++ (dumpsMembers floatText members ++ rest)))) (by omega)
    rw [← blank] at first
    have later := ih name other (fun m listed => begin m (List.mem_cons_of_mem _ listed))
      (fun m listed => each m (List.mem_cons_of_mem _ listed)) fuel
      (by simp only [List.length_append, List.length_cons]; omega)
    simp only [dumpsMembers, List.cons_append, List.append_assoc]
    refine (parseMembers_step (' ' :: _) first).trans ?_
    change (do
      let (found, left) ← parseMembers fuel (quoted name ++ ':' :: ' ' ::
        (dumpsChars floatText other ++ (dumpsMembers floatText members ++ rest)))
      return ((key, value) :: found, left)) = _
    rw [later]
    rfl

theorem parseValue_arr {fuel : Nat} {text rest : List Char} {items : List Json}
    (begins : Begins text) (read : parseItems fuel text = .ok (items, rest)) :
    parseValue (fuel + 1) ('[' :: text) = .ok (.arr items, rest) := by
  have blank := skipBlanks_of_begins begins []
  rw [List.append_nil] at blank
  obtain ⟨c, tail, rfl, -, noBracket, -⟩ := begins
  rw [parseValue, blank]
  split
  · rename_i same
    exact absurd (List.cons.inj same).1 noBracket
  · rw [read]
    rfl

theorem parseValue_obj {fuel : Nat} {text rest : List Char} {members : List (String × Json)}
    (distinct : (members.map Prod.fst).Nodup)
    (read : parseMembers fuel ('"' :: text) = .ok (members, rest)) :
    parseValue (fuel + 1) ('{' :: '"' :: text) = .ok (.obj members, rest) := by
  rw [parseValue]
  change (do
    let (members, rest) ← parseMembers fuel ('"' :: text)
    return (Json.obj (Dictionary.ofList members).entries, rest)) = _
  rw [read]
  change Except.ok (Json.obj (Dictionary.ofList members).entries, rest) = _
  rw [Dictionary.entries_ofList distinct]

/-- A text that is not empty leaves fuel to begin with. -/
theorem readsBack_of_succ {value : Json} (begins : Begins (dumpsChars floatText value))
    (reads : ∀ fuel rest, 2 * (dumpsChars floatText value).length ≤ fuel + 1 →
      parseValue (fuel + 1) (dumpsChars floatText value ++ rest) = .ok (value, rest)) :
    ReadsBack floatText value := by
  intro fuel rest enough
  obtain ⟨c, tail, written, -⟩ := begins
  have positive : 0 < (dumpsChars floatText value).length := by
    rw [written]
    exact Nat.succ_pos _
  obtain ⟨fuel, rfl⟩ : ∃ less, fuel = less + 1 := ⟨fuel - 1, by omega⟩
  exact reads fuel rest enough

/-- Every value without numbers is read as it was written. -/
theorem readsBack {value : Json} (plain : Plain value) : ReadsBack floatText value := by
  induction plain with
  | null => exact readsBack_of_succ (begins_dumpsChars .null) fun fuel rest _ => rfl
  | bool b =>
    refine readsBack_of_succ (begins_dumpsChars (.bool b)) fun fuel rest _ => ?_
    cases b <;> rfl
  | str s =>
    refine readsBack_of_succ (begins_dumpsChars (.str s)) fun fuel rest _ => ?_
    rw [dumpsChars, quoted, List.cons_append, parseValue, scanString_escape]
    change Except.ok (Json.str (String.ofList s.toList), rest) = _
    rw [String.ofList_toList]
  | arr items each ih =>
    refine readsBack_of_succ (begins_dumpsChars (.arr items each)) fun fuel rest enough => ?_
    cases items with
    | nil => rfl
    | cons item items =>
      have begins : Begins (dumpsChars floatText item) :=
        begins_dumpsChars (each item List.mem_cons_self)
      simp only [dumpsChars, List.length_cons] at enough
      have read := parseItems_dumps item items
        (fun value listed => begins_dumpsChars (each value listed)) ih fuel rest (by omega)
      simp only [dumpsChars, List.cons_append, List.append_assoc]
      refine parseValue_arr ?_ read
      obtain ⟨c, tail, written, apart⟩ := begins
      exact ⟨c, tail ++ _, by rw [written, List.cons_append], apart⟩
  | obj members distinct each ih =>
    refine readsBack_of_succ (begins_dumpsChars (.obj members distinct each))
      fun fuel rest enough => ?_
    cases members with
    | nil => rfl
    | cons first members =>
      obtain ⟨key, value⟩ := first
      simp only [dumpsChars, List.length_cons] at enough
      have read := parseMembers_dumps key value members
        (fun m listed => begins_dumpsChars (each m listed)) ih fuel rest (by omega)
      simp only [dumpsChars, List.cons_append, List.append_assoc]
      exact parseValue_obj distinct read

/-! ## What is written is printable ASCII -/

def Visible (text : List Char) : Prop := ∀ c ∈ text, 32 ≤ c.toNat ∧ c.toNat ≤ 126

theorem visible_append {a b : List Char} (first : Visible a) (second : Visible b) :
    Visible (a ++ b) := by
  intro c listed
  exact (List.mem_append.mp listed).elim (first c) (second c)

theorem visible_cons {c : Char} {text : List Char} (first : 32 ≤ c.toNat ∧ c.toNat ≤ 126)
    (rest : Visible text) : Visible (c :: text) := by
  intro d listed
  rcases List.mem_cons.mp listed with rfl | later
  · exact first
  · exact rest d later

theorem visible_of_all {text : List Char}
    (all : (text.all fun c => 32 ≤ c.toNat && c.toNat ≤ 126) = true) : Visible text := by
  simpa [Visible] using all

theorem visible_digitChar :
    ∀ n < 16, 32 ≤ (Nat.digitChar n).toNat ∧ (Nat.digitChar n).toNat ≤ 126 := by
  decide

theorem visible_escapedUnit (n : Nat) : Visible (escapedUnit n) := by
  have digit (m : Nat) := visible_digitChar (m % 16) (Nat.mod_lt m (by decide))
  refine visible_cons (by decide) (visible_cons (by decide) ?_)
  exact visible_cons (digit _) (visible_cons (digit _) (visible_cons (digit _)
    (visible_cons (digit _) nofun)))

theorem visible_escapeChar (c : Char) : Visible (escapeChar c) := by
  have letters : ∀ pair ∈ shortEscapes, 32 ≤ pair.2.toNat ∧ pair.2.toNat ≤ 126 := by decide
  have written := written_escapeChar c
  generalize escapeChar c = text at written
  cases written with
  | short listed => exact visible_cons (by decide) (visible_cons (letters _ listed) nofun)
  | plain noQuote noSlash visible => exact visible_cons visible nofun
  | unit basic => exact visible_escapedUnit _
  | pair beyond => exact visible_append (visible_escapedUnit _) (visible_escapedUnit _)

theorem visible_quoted (s : String) : Visible (quoted s) := by
  refine visible_cons (by decide) (visible_append ?_ (visible_cons (by decide) nofun))
  intro c listed
  obtain ⟨d, -, among⟩ := List.mem_flatMap.mp listed
  exact visible_escapeChar d c among

theorem visible_dumpsItems {items : List Json}
    (each : ∀ item ∈ items, Visible (dumpsChars floatText item)) :
    Visible (dumpsItems floatText items) := by
  induction items with
  | nil => exact visible_cons (by decide) nofun
  | cons item items ih =>
    rw [dumpsItems]
    exact visible_cons (by decide) (visible_cons (by decide)
      (visible_append (each item List.mem_cons_self)
        (ih fun other listed => each other (List.mem_cons_of_mem _ listed))))

theorem visible_dumpsMembers {members : List (String × Json)}
    (each : ∀ m ∈ members, Visible (dumpsChars floatText m.2)) :
    Visible (dumpsMembers floatText members) := by
  induction members with
  | nil => exact visible_cons (by decide) nofun
  | cons member members ih =>
    obtain ⟨key, value⟩ := member
    rw [dumpsMembers]
    refine visible_cons (by decide) (visible_cons (by decide) (visible_append (visible_quoted key)
      (visible_cons (by decide) (visible_cons (by decide) (visible_append ?_ ?_)))))
    · exact each (key, value) List.mem_cons_self
    · exact ih fun other listed => each other (List.mem_cons_of_mem _ listed)

theorem visible_dumpsChars {value : Json} (plain : Plain value) :
    Visible (dumpsChars floatText value) := by
  induction plain with
  | null =>
    rw [dumpsChars]
    exact visible_of_all (by decide)
  | bool b =>
    rw [dumpsChars]
    cases b <;> exact visible_of_all (by decide)
  | str s => exact visible_quoted s
  | arr items each ih =>
    cases items with
    | nil => exact visible_cons (by decide) (visible_cons (by decide) nofun)
    | cons item items =>
      rw [dumpsChars]
      exact visible_cons (by decide) (visible_append (ih item List.mem_cons_self)
        (visible_dumpsItems fun other listed => ih other (List.mem_cons_of_mem _ listed)))
  | obj members distinct each ih =>
    cases members with
    | nil => exact visible_cons (by decide) (visible_cons (by decide) nofun)
    | cons member members =>
      obtain ⟨key, value⟩ := member
      rw [dumpsChars]
      refine visible_cons (by decide) (visible_append (visible_quoted key)
        (visible_cons (by decide) (visible_cons (by decide) (visible_append ?_ ?_))))
      · exact ih (key, value) List.mem_cons_self
      · exact visible_dumpsMembers fun other listed => ih other (List.mem_cons_of_mem _ listed)

/-- `json.loads(json.dumps(value)) == value`. -/
theorem loads_dumps {value : Json} (plain : Plain value) :
    loads (dumps floatText value) = .ok value := by
  have begins : Begins (dumpsChars floatText value) := begins_dumpsChars plain
  have blank := skipBlanks_of_begins begins []
  rw [List.append_nil] at blank
  have back : ReadsBack floatText value := readsBack plain
  have read := back (2 * (dumpsChars floatText value).length + 1) [] (by omega)
  rw [List.append_nil] at read
  have noMark : (dumpsChars floatText value).head? ≠ some (Char.ofNat 0xFEFF) := by
    intro marked
    exact absurd (visible_dumpsChars plain _ (List.mem_of_mem_head? marked)).2 (by decide)
  simp only [loads, dumps, String.toList_ofList]
  rw [if_neg noMark, blank, read]
  rfl

end JsonText
