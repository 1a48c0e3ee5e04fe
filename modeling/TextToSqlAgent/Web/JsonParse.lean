import TextToSqlAgent.Core.FloatText
import TextToSqlAgent.Library.Documents
import TextToSqlAgent.Library.Lines
import TextToSqlAgent.Web.Events

/-!
# JSON.parse

Standard JSON over code units, and nothing else: the units are grouped into
tokens, the tokens into a value. No two numbers or constants can stand next to
each other in JSON, so each is the longest run of its characters. Depth is not
limited.
-/

namespace JsonParse

open Documents Utf16 Events

/-- The code unit of a character. -/
def unit (c : Char) : UInt16 := UInt16.ofNat c.toNat

/-- The character of a code unit. Half of a pair has none, and is as NUL. -/
def charOf (u : UInt16) : Char := Char.ofNat u.toNat

/-- A value that is neither a list nor a record. -/
inductive Leaf
  | null
  | bool (b : Bool)
  | number (x : JsNumber)
  | string (s : JsString)
  deriving DecidableEq, Repr

/-- The name of a member is a string. -/
def Leaf.name? : Leaf → Option JsString
  | .string s => some s
  | _ => none

/-! ## Tokens -/

def isBlank (u : UInt16) : Bool :=
  u = unit ' ' || u = unit '\t' || u = unit '\n' || u = unit '\r'

def punctuation? (u : UInt16) : Option (Token Leaf) :=
  if u = unit '[' then some .openArray
  else if u = unit ']' then some .closeArray
  else if u = unit '\x7b' then some .openObject
  else if u = unit '\x7d' then some .closeObject
  else if u = unit ',' then some .comma
  else if u = unit ':' then some .colon
  else none

/-- What was read of a string, with these units before it. -/
def prepend (units : JsString) : Option (JsString × JsString) → Option (JsString × JsString) :=
  Option.map fun (s, rest) => (units ++ s, rest)

/-- A string after its first quote, and what follows it. -/
def scanString : JsString → Option (JsString × JsString)
  | [] => none
  | u :: rest =>
    if u = unit '"' then some ([], rest)
    else if u = unit '\\' then
      match rest with
      | [] => none
      | e :: rest =>
        if e = unit 'u' then
          match rest with
          | a :: b :: c :: d :: rest =>
            match JsonText.unit? (charOf a) (charOf b) (charOf c) (charOf d) with
            | some n => prepend [UInt16.ofNat n] (scanString rest)
            | none => none
          | _ => none
        else
          match JsonText.unescape? (charOf e) with
          | some plain => prepend [unit plain] (scanString rest)
          | none => none
    else if u.toNat < 32 then none
    else prepend [u] (scanString rest)

/-- A number of JavaScript: the double nearest to a decimal. -/
def jsNumber : Python.PyFloat → JsNumber
  | .finite q => .finite q
  | .inf negative => .infinite negative
  | .nan => .nan

/-- The number that a whole text without a sign is. -/
def unsigned? (negative : Bool) (text : List Char) : Option JsNumber :=
  match JsonText.wholePart text with
  | none => none
  | some (whole, rest) =>
    let (digits, rest) := JsonText.fraction rest
    let (power, rest) := JsonText.exponent rest
    if rest = [] then
      some (jsNumber (JsonText.decimalFloat negative whole (digits.getD []) (power.getD 0)))
    else none

def number? : List Char → Option JsNumber
  | '-' :: text => unsigned? true text
  | text => unsigned? false text

/-- The characters that numbers are made of. -/
def numeric (c : Char) : Bool :=
  JsonText.isDigit c || c = '+' || c = '-' || c = '.' || c = 'e' || c = 'E'

def literals : List (String × Leaf) :=
  [("null", .null), ("true", .bool true), ("false", .bool false)]

/-- A constant or a number, and what follows it. -/
def scanLeaf (text : JsString) : Option (Leaf × JsString) :=
  match literals.find? fun literal => (js literal.1).isPrefixOf text with
  | some literal => some (literal.2, text.drop (js literal.1).length)
  | none =>
    let isNumeric (u : UInt16) : Bool := numeric (charOf u)
    (number? ((text.takeWhile isNumeric).map charOf)).map fun x =>
      (.number x, text.dropWhile isNumeric)

/-- The tokens of a text, as far as the fuel reaches. -/
def lex : Nat → JsString → Option (List (Token Leaf))
  | _, [] => some []
  | 0, _ => none
  | fuel + 1, u :: rest =>
    if isBlank u then lex fuel rest
    else
      match punctuation? u with
      | some token => (lex fuel rest).map (token :: ·)
      | none =>
        if u = unit '"' then
          (scanString rest).bind fun (s, rest) =>
            (lex fuel rest).map (.leaf (.string s) :: ·)
        else
          (scanLeaf (u :: rest)).bind fun (leaf, rest) =>
            (lex fuel rest).map (.leaf leaf :: ·)

/-! ## Values -/

def leafValue : Leaf → JsValue
  | .null => .null
  | .bool b => .bool b
  | .number x => .number x
  | .string s => .string s

mutual

/-- The value of a document. Of two members of one name the later one counts. -/
def value : Doc JsString Leaf → JsValue
  | .leaf leaf => leafValue leaf
  | .array items => .array (values items)
  | .object members => .object (Dictionary.ofList (memberValues members)).entries

def values : List (Doc JsString Leaf) → List JsValue
  | [] => []
  | item :: items => value item :: values items

def memberValues : List (JsString × Doc JsString Leaf) → List (JsString × JsValue)
  | [] => []
  | (name, item) :: members => (name, value item) :: memberValues members

end

theorem values_eq (items : List (Doc JsString Leaf)) : values items = items.map value := by
  induction items with
  | nil => rfl
  | cons item items ih => rw [values, ih, List.map_cons]

/-- `JSON.parse(text)`; a `SyntaxError` is none. -/
def parse (text : JsString) : Option JsValue := do
  let tokens ← lex text.length text
  let doc ← Documents.parse Leaf.name? tokens
  return value doc

/-- What other readers take is refused: a comma at the end, a number that
begins with a zero or a point, a word that is no constant. -/
example : (["[1,]", "01", ".5", "1.", "+1", "NaN", "[1 2]", "nulls", "'a'", ""].map fun text =>
    (parse (js text)).isNone) = List.replicate 10 true := by decide +kernel

/-! ## Numbers are read -/

open FloatText Lines

theorem exponent_read {text : List Char} (exponent : Exponent text) :
    ∃ power, JsonText.exponent text = (power, []) := by
  cases exponent with
  | none => exact ⟨none, rfl⟩
  | signed sign digits =>
    rename_i mark text
    have run := @takeWhile_stops _ _ text [] digits.2 nofun
    rw [List.append_nil] at run
    obtain ⟨c, more, rfl⟩ := List.exists_cons_of_ne_nil digits.1
    rcases sign with rfl | rfl
    · simp only [JsonText.exponent, true_or, if_true, run]
      exact ⟨_, rfl⟩
    · simp only [JsonText.exponent, true_or, if_true, run]
      exact ⟨_, rfl⟩

theorem fraction_append {text rest : List Char} (fraction : Fraction text)
    (exponent : Exponent rest) : ∃ digits, JsonText.fraction (text ++ rest) = (digits, rest) := by
  cases fraction with
  | none =>
    cases exponent with
    | none => exact ⟨none, rfl⟩
    | signed sign digits => exact ⟨none, rfl⟩
  | digits digits =>
    rename_i text
    have stop : ∀ c ∈ rest.head?, JsonText.isDigit c = false := by
      cases exponent with
      | none => nofun
      | signed sign digits =>
        rintro c ⟨⟩
        decide
    have run := takeWhile_stops digits.2 stop
    obtain ⟨c, more, rfl⟩ := List.exists_cons_of_ne_nil digits.1
    simp only [List.cons_append] at run
    simp only [List.cons_append, JsonText.fraction, run]
    exact ⟨_, rfl⟩

theorem unsigned?_isSome (negative : Bool) {text : List Char} (number : Unsigned text) :
    ∃ x, unsigned? negative text = some x := by
  obtain ⟨whole, fraction, exponent, digits, decimals, power, rfl⟩ := number
  have stop : ∀ c ∈ (fraction ++ exponent).head?, JsonText.isDigit c = false := by
    cases decimals with
    | none =>
      cases power with
      | none => nofun
      | signed sign digits =>
        rintro c ⟨⟩
        decide
    | digits digits =>
      rintro c ⟨⟩
      decide
  obtain ⟨d, first⟩ := fraction_append decimals power
  obtain ⟨p, second⟩ := exponent_read power
  simp only [unsigned?, wholePart_append digits stop, first, second, if_true]
  exact ⟨_, rfl⟩

theorem unsigned_begins {text : List Char} (number : Unsigned text) :
    ∃ c rest, text = c :: rest ∧ JsonText.isDigit c = true := by
  obtain ⟨whole, fraction, exponent, ⟨digits, -⟩, -, -, rfl⟩ := number
  obtain ⟨c, more, rfl⟩ := List.exists_cons_of_ne_nil digits.1
  exact ⟨c, _, rfl, digits.2 c List.mem_cons_self⟩

/-- Every number of the grammar is read. -/
theorem number?_isSome {text : List Char} (number : IsNumber text) :
    ∃ x, number? text = some x := by
  rcases number with plain | ⟨rest, plain, rfl⟩
  · have read := unsigned?_isSome false plain
    obtain ⟨c, rest, rfl, digit⟩ := unsigned_begins plain
    rw [number?]
    · exact read
    · rintro after same
      obtain rfl := (List.cons.inj same).1
      cases digit
  · exact unsigned?_isSome true plain

theorem numeric_of_isDigit {c : Char} (digit : JsonText.isDigit c = true) : numeric c = true := by
  simp [numeric, digit]

theorem numeric_of_digits {text : List Char} (digits : Digits text) :
    ∀ c ∈ text, numeric c = true :=
  fun c listed => numeric_of_isDigit (digits.2 c listed)

theorem numeric_of_unsigned {text : List Char} (number : Unsigned text) :
    ∀ c ∈ text, numeric c = true := by
  obtain ⟨whole, fraction, exponent, ⟨digits, -⟩, decimals, power, rfl⟩ := number
  have second : ∀ c ∈ fraction, numeric c = true := by
    cases decimals with
    | none => exact nofun
    | digits digits => exact List.forall_mem_cons.mpr ⟨by decide, numeric_of_digits digits⟩
  have third : ∀ c ∈ exponent, numeric c = true := by
    cases power with
    | none => exact nofun
    | signed sign digits =>
      refine List.forall_mem_cons.mpr ⟨by decide, List.forall_mem_cons.mpr ⟨?_, ?_⟩⟩
      · rcases sign with rfl | rfl <;> decide
      · exact numeric_of_digits digits
  exact List.forall_mem_append.mpr
    ⟨numeric_of_digits digits, List.forall_mem_append.mpr ⟨second, third⟩⟩

theorem numeric_of_isNumber {text : List Char} (number : IsNumber text) :
    ∀ c ∈ text, numeric c = true := by
  rcases number with plain | ⟨rest, plain, rfl⟩
  · exact numeric_of_unsigned plain
  · exact List.forall_mem_cons.mpr ⟨by decide, numeric_of_unsigned plain⟩

/-! ## Units of characters -/

theorem charOf_unit {c : Char} (low : c.toNat < 0xD800) : charOf (unit c) = c := by
  have same : (UInt16.ofNat c.toNat).toNat = c.toNat := by
    rw [UInt16.toNat_ofNat']
    omega
  rw [charOf, unit, same, Char.ofNat_toNat]

theorem unit_injective {c d : Char} (low : c.toNat < 0xD800) (low' : d.toNat < 0xD800)
    (equal : unit c = unit d) : c = d := by
  rw [← charOf_unit low, ← charOf_unit low', equal]

theorem numeric_visible {c : Char} (listed : numeric c = true) : 32 ≤ c.toNat ∧ c.toNat ≤ 126 := by
  simp only [numeric, JsonText.isDigit, Bool.or_eq_true, Bool.and_eq_true, decide_eq_true_eq]
    at listed
  rcases listed with ((((digit | rfl) | rfl) | rfl) | rfl) | rfl
  · omega
  all_goals decide

theorem numeric_low {c : Char} (listed : numeric c = true) : c.toNat < 0xD800 := by
  have shown := numeric_visible listed
  omega

/-- No constant begins as a number does. -/
theorem literals_numeric {u : UInt16} (listed : numeric (charOf u) = true) (rest : JsString) :
    (literals.find? fun literal => (js literal.1).isPrefixOf (u :: rest)) = none := by
  have other (c : Char) (apart : numeric (charOf (unit c)) = false) : (unit c == u) = false := by
    rw [beq_eq_false_iff_ne]
    rintro rfl
    rw [apart] at listed
    cases listed
  rw [List.find?_eq_none]
  intro literal among
  have no {c : Char} {text : JsString} (apart : numeric (charOf (unit c)) = false) :
      ¬(unit c :: text).isPrefixOf (u :: rest) = true := by
    rw [List.isPrefixOf_cons_cons, other c apart]
    exact nofun
  simp only [literals, List.mem_cons, List.not_mem_nil, or_false] at among
  rcases among with rfl | rfl | rfl
  · exact no (c := 'n') (by decide)
  · exact no (c := 't') (by decide)
  · exact no (c := 'f') (by decide)

theorem scanLeaf_number {text : List Char} (number : IsNumber text) {x : JsNumber}
    (read : number? text = some x) {rest : JsString}
    (stop : ∀ u ∈ rest.head?, numeric (charOf u) = false) :
    scanLeaf (text.map unit ++ rest) = some (.number x, rest) := by
  have numbers := numeric_of_isNumber number
  have back (c : Char) (listed : c ∈ text) : charOf (unit c) = c :=
    charOf_unit (numeric_low (numbers c listed))
  have whole : (text.map unit).map charOf = text := by
    rw [List.map_map]
    exact (List.map_congr_left back).trans (List.map_id' text)
  have all : ∀ u ∈ text.map unit, numeric (charOf u) = true := by
    intro u listed
    obtain ⟨c, among, rfl⟩ := List.mem_map.mp listed
    rw [back c among]
    exact numbers c among
  obtain ⟨run, after⟩ := takeWhile_stops all stop
  have constant : (literals.find? fun literal =>
      (js literal.1).isPrefixOf (text.map unit ++ rest)) = none := by
    cases text with
    | nil => cases read
    | cons c more =>
      exact literals_numeric (all (unit c) List.mem_cons_self) _
  simp only [scanLeaf, constant, run, after, whole, read, Option.map_some]

/-! ## Strings are read -/

theorem prepend_prepend (a b : JsString) (read : Option (JsString × JsString)) :
    prepend a (prepend b read) = prepend (a ++ b) read := by
  cases read with
  | none => rfl
  | some read => simp [prepend]

theorem scanString_quote (rest : JsString) : scanString (unit '"' :: rest) = some ([], rest) := by
  rw [scanString.eq_def]
  exact if_pos rfl

theorem scanString_plain {u : UInt16} (noQuote : u ≠ unit '"') (noSlash : u ≠ unit '\\')
    (visible : 32 ≤ u.toNat) (rest : JsString) :
    scanString (u :: rest) = prepend [u] (scanString rest) := by
  rw [scanString.eq_def]
  have shown : ¬u.toNat < 32 := by omega
  simp only [if_neg noQuote, if_neg noSlash, if_neg shown]

theorem scanString_short {c d : Char} (listed : (c, d) ∈ JsonText.shortEscapes)
    (rest : JsString) :
    scanString (unit '\\' :: unit d :: rest) = prepend (utf16Char c) (scanString rest) := by
  have slash : unit '\\' ≠ unit '"' := by decide
  have letters : ∀ pair ∈ JsonText.shortEscapes, unit pair.2 ≠ unit 'u' ∧
      pair.2.toNat < 0xD800 ∧ JsonText.unescape? pair.2 = some pair.1 ∧
      utf16Char pair.1 = [unit pair.1] := by decide
  obtain ⟨other, low, means, basic⟩ := letters _ listed
  rw [scanString.eq_def, basic]
  simp only [if_neg slash, if_true, if_neg other, charOf_unit low, means]

theorem digitChar_low (n : Nat) : (Nat.digitChar (n % 16)).toNat < 0xD800 := by
  have bound := JsonText.visible_digitChar (n % 16) (Nat.mod_lt n (by decide))
  omega

/-- An escaped code unit, half of a pair or not, is that unit. -/
theorem scanString_unit {n : Nat} (small : n < 0x10000) (rest : JsString) :
    scanString ((JsonText.escapedUnit n).map unit ++ rest) =
      prepend [UInt16.ofNat n] (scanString rest) := by
  have digit (m : Nat) : charOf (unit (Nat.digitChar (m % 16))) = Nat.digitChar (m % 16) :=
    charOf_unit (digitChar_low m)
  have slash : unit '\\' ≠ unit '"' := by decide
  rw [scanString.eq_def]
  simp only [JsonText.escapedUnit, JsonText.hexUnit, List.map_cons, List.map_nil, List.cons_append,
    List.nil_append, if_neg slash, if_true, digit, JsonText.unit?_hexUnit small]

/-- A character is read as it was written, as one unit or two. -/
theorem scanString_escapeChar (c : Char) (rest : JsString) :
    scanString ((JsonText.escapeChar c).map unit ++ rest) =
      prepend (utf16Char c) (scanString rest) := by
  have written := JsonText.written_escapeChar c
  generalize JsonText.escapeChar c = text at written
  cases written with
  | short listed => exact scanString_short listed rest
  | plain noQuote noSlash visible =>
    have low : c.toNat < 0xD800 := by omega
    have quote : unit c ≠ unit '"' := fun equal => noQuote (unit_injective low (by decide) equal)
    have slash : unit c ≠ unit '\\' := fun equal => noSlash (unit_injective low (by decide) equal)
    rw [utf16Char, if_pos (by omega)]
    refine scanString_plain quote slash ?_ rest
    rw [unit, UInt16.toNat_ofNat']
    omega
  | unit basic => rw [scanString_unit basic, utf16Char, if_pos basic]
  | pair beyond =>
    have bound : c.toNat < 0x110000 := by
      rcases c.valid with lower | ⟨-, upper⟩
      · have below : c.toNat < 0xD800 := lower
        omega
      · exact upper
    rw [List.map_append, List.append_assoc, scanString_unit (by omega),
      scanString_unit (by omega), prepend_prepend, utf16Char, if_neg beyond]
    rfl

/-! ## Tokens are read -/

/-- Where neither white space nor punctuation nor a string begins. -/
def BeginsLeaf (u : UInt16) : Prop :=
  isBlank u = false ∧ punctuation? u = none ∧ u ≠ unit '"'

theorem beginsLeaf_numeric {u : UInt16} (listed : numeric (charOf u) = true) : BeginsLeaf u := by
  have other {c : Char} (apart : numeric (charOf (unit c)) = false) : u ≠ unit c := by
    rintro rfl
    rw [apart] at listed
    cases listed
  refine ⟨?_, ?_, other (by decide)⟩
  · simp only [isBlank, Bool.or_eq_false_iff, decide_eq_false_iff_not]
    exact ⟨⟨⟨other (by decide), other (by decide)⟩, other (by decide)⟩, other (by decide)⟩
  · rw [punctuation?, if_neg (other (by decide)), if_neg (other (by decide)),
      if_neg (other (by decide)), if_neg (other (by decide)), if_neg (other (by decide)),
      if_neg (other (by decide))]

theorem lex_punctuation {u : UInt16} {token : Token Leaf} (visible : isBlank u = false)
    (is : punctuation? u = some token) (fuel : Nat) (rest : JsString) :
    lex (fuel + 1) (u :: rest) = (lex fuel rest).map (token :: ·) := by
  rw [lex, if_neg (by simp [visible]), is]

theorem lex_string {text s rest : JsString} (read : scanString text = some (s, rest))
    (fuel : Nat) :
    lex (fuel + 1) (unit '"' :: text) = (lex fuel rest).map (.leaf (.string s) :: ·) := by
  have quote : punctuation? (unit '"') = none := by decide
  rw [lex, if_neg (by decide), quote]
  simp only [if_true, read, Option.bind_some]

theorem lex_leaf {u : UInt16} (begins : BeginsLeaf u) (text : JsString) (fuel : Nat) :
    lex (fuel + 1) (u :: text) = (scanLeaf (u :: text)).bind fun (leaf, rest) =>
      (lex fuel rest).map (.leaf leaf :: ·) := by
  obtain ⟨visible, plain, noQuote⟩ := begins
  rw [lex, if_neg (by simp [visible]), plain]
  simp only [if_neg noQuote]

end JsonParse
