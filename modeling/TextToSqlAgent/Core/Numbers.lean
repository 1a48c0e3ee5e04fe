import TextToSqlAgent.Core.Doubles
import TextToSqlAgent.Core.FloatText
import TextToSqlAgent.Library.Lines

/-!
# Numbers as texts, and back

A float written with the fewest digits is read as that float: seventeen digits
always suffice, because another double is further away than the seventeenth one
can tell. An int is read as it was written unless it has too many digits.
-/

namespace Numbers

open Python JsonText FloatText Doubles Lines

/-! ## Seventeen digits -/

/-- A finite float. -/
def IsFloat (q : Rat) : Prop := toDouble q = some q

instance (q : Rat) : Decidable (IsFloat q) := inferInstanceAs (Decidable (_ = _))

theorem toDouble_eq_some_iff {q x : Rat} :
    toDouble q = some x ↔ nearestDouble q = x ∧ |x| < 2 ^ 1024 := by
  unfold toDouble
  dsimp only
  split
  · rename_i small
    rw [Option.some.injEq]
    refine (and_iff_left_of_imp ?_).symm
    rintro rfl
    exact small
  · rename_i large
    refine iff_of_false (by simp) ?_
    rintro ⟨rfl, small⟩
    exact large small

theorem isFloat_iff {q : Rat} : IsFloat q ↔ IsDouble q ∧ |q| < 2 ^ 1024 := by
  rw [IsFloat, toDouble_eq_some_iff, nearestDouble_eq_self_iff]

theorem IsFloat.neg {q : Rat} (float : IsFloat q) : IsFloat (-q) := by
  obtain ⟨⟨k, e, bits, low, rfl⟩, small⟩ := isFloat_iff.mp float
  refine isFloat_iff.mpr ⟨⟨-k, e, by rwa [abs_neg], low, ?_⟩, by rwa [abs_neg]⟩
  rw [Int.cast_neg, neg_mul]

theorem ten_zpow_pos (e : Int) : (0 : Rat) < 10 ^ e := zpow_pos (by norm_num) e

/-- The decimal of seventeen digits that is nearest to a float is read as it. -/
theorem toDouble_seventeen {q : Rat} (positive : 0 < q) (float : IsFloat q) :
    toDouble (roundHalfEven (q / 10 ^ unitAt q 17) * 10 ^ unitAt q 17) = some q := by
  obtain ⟨double, small⟩ := isFloat_iff.mp float
  refine toDouble_eq_some_iff.mpr ⟨nearestDouble_eq_of_near double ?_, small⟩
  have unit := ten_zpow_pos (unitAt q 17)
  have half := abs_roundHalfEven_sub_le_half (q / 10 ^ unitAt q 17)
  have error : |(roundHalfEven (q / 10 ^ unitAt q 17) : Rat) * 10 ^ unitAt q 17 - q| ≤
      1 / 2 * 10 ^ unitAt q 17 := by
    have scaled : (roundHalfEven (q / 10 ^ unitAt q 17) : Rat) * 10 ^ unitAt q 17 - q =
        (roundHalfEven (q / 10 ^ unitAt q 17) - q / 10 ^ unitAt q 17) * 10 ^ unitAt q 17 := by
      rw [sub_mul, div_mul_cancel₀ q unit.ne']
    rw [scaled, abs_mul, abs_of_pos unit]
    exact mul_le_mul_of_nonneg_right half unit.le
  have size : (10 : Rat) ^ 16 * 10 ^ unitAt q 17 ≤ q :=
    calc (10 : Rat) ^ 16 * 10 ^ unitAt q 17 = 10 ^ Int.log 10 q := by
          rw [← zpow_natCast, ← zpow_add₀ (by norm_num), unitAt]
          congr 1
          omega
      _ ≤ q := by exact_mod_cast Int.zpow_log_le_self (by norm_num) positive
  calc (2 : Rat) ^ 53 * (2 * |roundHalfEven (q / 10 ^ unitAt q 17) * 10 ^ unitAt q 17 - q|)
      ≤ 2 ^ 53 * 10 ^ unitAt q 17 := by linarith
    _ < 10 ^ 16 * 10 ^ unitAt q 17 := mul_lt_mul_of_pos_right (by norm_num) unit
    _ ≤ q := size

/-- What is written of a positive float is read as it. -/
theorem toDouble_shortest {q : Rat} (positive : 0 < q) (float : IsFloat q) :
    toDouble ((shortest q).1 * 10 ^ (shortest q).2) = some q := by
  have last : (decimal? q 17).isSome := by
    rw [decimal?, Option.isSome_map, List.find?_isSome]
    exact ⟨_, List.mem_cons_self, decide_eq_true (toDouble_seventeen positive float)⟩
  have listed : 17 ∈ List.range' 1 17 := List.mem_range'_1.mpr (by omega)
  obtain ⟨decimal, found⟩ := Option.isSome_iff_exists.mp
    (List.findSome?_isSome_iff.mpr ⟨17, listed, last⟩)
  rw [shortest, found, Option.getD_some]
  obtain ⟨count, -, made⟩ := List.exists_of_findSome?_eq_some found
  obtain ⟨m, chosen, rfl⟩ := Option.map_eq_some_iff.mp made
  have reads := List.find?_some chosen
  exact of_decide_eq_true reads

/-! ## The value of digits -/

theorem digitsValue_append (first later : List Char) :
    digitsValue (first ++ later) = digitsValue first * 10 ^ later.length + digitsValue later := by
  have fold (l : List Char) (n : Nat) : l.foldl (fun n c => 10 * n + (c.toNat - 48)) n =
      n * 10 ^ l.length + digitsValue l := by
    induction l generalizing n with
    | nil => simp [digitsValue]
    | cons c l ih =>
      have first : digitsValue (c :: l) = l.foldl (fun n c => 10 * n + (c.toNat - 48))
          (10 * 0 + (c.toNat - 48)) := rfl
      rw [List.foldl_cons, ih, first, ih, List.length_cons, pow_succ]
      ring
  rw [digitsValue, List.foldl_append, fold]
  rfl

theorem digitsValue_cons (c : Char) (rest : List Char) :
    digitsValue (c :: rest) = (c.toNat - 48) * 10 ^ rest.length + digitsValue rest := by
  have single : digitsValue [c] = c.toNat - 48 := by simp [digitsValue]
  rw [← List.singleton_append, digitsValue_append, single]

theorem digitsValue_replicate (n : Nat) : digitsValue (List.replicate n '0') = 0 := by
  induction n with
  | zero => rfl
  | succ n ih =>
    rw [List.replicate_succ, digitsValue_cons, ih]
    simp

theorem digitsValue_toDigits (n : Nat) : digitsValue (Nat.toDigits 10 n) = n := by
  induction n using Nat.strongRecOn with
  | _ n ih =>
    have digit : ∀ m < 10, (Nat.digitChar m).toNat - 48 = m := by decide
    rcases Nat.lt_or_ge n 10 with small | large
    · rw [Nat.toDigits_of_lt_base small, digitsValue_cons, digit n small]
      simp [digitsValue]
    · rw [Nat.toDigits_of_base_le (by omega) large, digitsValue_append,
        ih (n / 10) (Nat.div_lt_self (by omega) (by omega)), digitsValue_cons,
        digit (n % 10) (Nat.mod_lt n (by omega))]
      simp only [digitsValue, List.length_cons, List.length_nil, List.foldl_nil]
      omega

/-- The zeros at the end count in the power. -/
theorem exists_trailing (digits : List Char) :
    ∃ count, digits = digits.rdropWhile (· = '0') ++ List.replicate count '0' := by
  refine ⟨(digits.rtakeWhile (· = '0')).length, ?_⟩
  conv_lhs => rw [← List.rdropWhile_append_rtakeWhile (p := (· = '0')) (l := digits)]
  congr 1
  refine List.eq_replicate_iff.mpr ⟨rfl, fun c listed => ?_⟩
  have zero := List.mem_rtakeWhile_imp listed
  exact of_decide_eq_true zero

/-! ## Numerals -/

/-- What a number is written with: the digits before its point, maybe decimals, and
maybe an exponent with its sign. -/
structure Numeral where
  whole : List Char
  decimals : Option (List Char)
  power : Option (Bool × List Char)

namespace Numeral

def powerText (n : Numeral) : List Char :=
  match n.power with
  | none => []
  | some (negative, digits) => 'e' :: (if negative then '-' else '+') :: digits

def decimalsText (n : Numeral) : List Char :=
  match n.decimals with
  | none => []
  | some digits => '.' :: digits

def text (n : Numeral) : List Char := n.whole ++ (n.decimalsText ++ n.powerText)

def exponentValue : Option (Bool × List Char) → Option Int
  | none => none
  | some (negative, digits) =>
    some (if negative then -(digitsValue digits : Int) else (digitsValue digits : Int))

/-- The number itself. -/
def value (n : Numeral) : Rat :=
  digitsValue (n.whole ++ n.decimals.getD []) *
    10 ^ ((exponentValue n.power).getD 0 - (n.decimals.getD []).length)

structure Formed (n : Numeral) : Prop where
  whole : Whole n.whole
  decimals : ∀ digits ∈ n.decimals, Digits digits
  power : ∀ power ∈ n.power, Digits power.2

end Numeral

/-- What does not go on with a number. -/
def Stops (rest : List Char) : Prop :=
  ∀ c ∈ rest.head?, isDigit c = false ∧ c ≠ '.' ∧ c ≠ 'e' ∧ c ≠ 'E'

theorem stops_nil : Stops [] := nofun

variable {n : Numeral} {rest : List Char}

theorem exponent_powerText (formed : n.Formed) (stops : Stops rest) :
    exponent (n.powerText ++ rest) = (Numeral.exponentValue n.power, rest) := by
  obtain ⟨whole, decimals, power⟩ := n
  unfold Numeral.powerText
  cases power with
  | none =>
    rw [List.nil_append]
    cases rest with
    | nil => rfl
    | cons c rest =>
      obtain ⟨-, -, small, large⟩ := stops c rfl
      simp [exponent, small, large, Numeral.exponentValue]
  | some power =>
    obtain ⟨negative, digits⟩ := power
    have all : Digits digits := formed.power _ rfl
    have run := takeWhile_stops all.2 fun c first => (stops c first).1
    obtain ⟨c, more, rfl⟩ := List.exists_cons_of_ne_nil all.1
    simp only [List.cons_append] at run
    cases negative <;> simp [exponent, run, Numeral.exponentValue]

/-- Neither an exponent nor what follows goes on with the digits before it. -/
theorem digit_stops (n : Numeral) (stops : Stops rest) :
    ∀ c ∈ (n.powerText ++ rest).head?, isDigit c = false ∧ c ≠ '.' := by
  obtain ⟨whole, decimals, power⟩ := n
  unfold Numeral.powerText
  cases power with
  | none => exact fun c first => ⟨(stops c first).1, (stops c first).2.1⟩
  | some power =>
    rintro c ⟨⟩
    decide

theorem fraction_decimalsText (formed : n.Formed) (stops : Stops rest) :
    fraction (n.decimalsText ++ (n.powerText ++ rest)) = (n.decimals, n.powerText ++ rest) := by
  have next := digit_stops n stops
  unfold Numeral.decimalsText
  cases decimals : n.decimals with
  | none =>
    rw [List.nil_append]
    cases after : n.powerText ++ rest with
    | nil => rfl
    | cons c more =>
      have noPoint : c ≠ '.' := (next c (by rw [after]; rfl)).2
      rw [fraction]
      rintro later same
      exact noPoint (List.cons.inj same).1
  | some digits =>
    have all := formed.decimals _ decimals
    have run := takeWhile_stops all.2 fun c first => (next c first).1
    obtain ⟨c, more, rfl⟩ := List.exists_cons_of_ne_nil all.1
    simp only [List.cons_append] at run
    simp only [List.cons_append, fraction, run]

/-- What is scanned behind the sign. -/
def scanUnsigned (negative : Bool) (body : List Char) :
    Option (Except JsonError (Json × List Char)) :=
  match wholePart body with
  | none => none
  | some (whole, rest) =>
    let (digits, rest) := fraction rest
    let (power, rest) := exponent rest
    if digits.isSome ∨ power.isSome then
      some (.ok (.float (decimalFloat negative whole (digits.getD []) (power.getD 0)), rest))
    else
      match int (String.ofList (if negative then '-' :: whole else whole)) with
      | some n => some (.ok (.int n, rest))
      | none => some (.error (.value (tooManyDigits whole.length)))

theorem scanNumber_minus (body : List Char) :
    scanNumber ('-' :: body) = scanUnsigned true body := rfl

theorem scanNumber_digit {c : Char} (digit : isDigit c = true) (rest : List Char) :
    scanNumber (c :: rest) = scanUnsigned false (c :: rest) := by
  have noSign : c ≠ '-' := by
    rintro rfl
    cases digit
  unfold scanNumber
  split
  rename_i negative body split
  revert split
  split
  · rename_i same
    exact absurd (List.cons.inj same).1 noSign
  · intro split
    obtain ⟨rfl, rfl⟩ := Prod.mk.inj split
    rfl

/-- A number is scanned as the numeral it was written with: with decimals or an
exponent it is a float. -/
theorem scanUnsigned_text (formed : n.Formed) (stops : Stops rest) (negative : Bool) :
    scanUnsigned negative (n.text ++ rest) =
      if n.decimals.isSome ∨ n.power.isSome then
        some (.ok (.float (decimalFloat negative n.whole (n.decimals.getD [])
          ((Numeral.exponentValue n.power).getD 0)), rest))
      else match int (String.ofList (if negative then '-' :: n.whole else n.whole)) with
        | some k => some (.ok (.int k, rest))
        | none => some (.error (.value (tooManyDigits n.whole.length))) := by
  have next : ∀ c ∈ (n.decimalsText ++ (n.powerText ++ rest)).head?, isDigit c = false := by
    have later := digit_stops n stops
    unfold Numeral.decimalsText
    cases n.decimals with
    | none => exact fun c first => (later c first).1
    | some digits =>
      rintro c ⟨⟩
      decide
  have whole := wholePart_append formed.whole next
  have second := fraction_decimalsText formed stops
  have third := exponent_powerText formed stops
  have power : (Numeral.exponentValue n.power).isSome = n.power.isSome := by
    cases n.power <;> rfl
  have written : n.text ++ rest = n.whole ++ (n.decimalsText ++ (n.powerText ++ rest)) := by
    simp [Numeral.text]
  rw [written, scanUnsigned]
  simp only [whole, second, third, power]

/-! ## Floats are read back -/

theorem isFloat_zero : IsFloat 0 := by
  refine isFloat_iff.mpr ⟨⟨0, 0, by norm_num, by norm_num, by simp⟩, ?_⟩
  rw [abs_zero]
  positivity

/-- Digits with a point among them, or zeros around them, are their numeral. -/
def positionalNumeral (digits : List Char) (point : Int) : Numeral :=
  if point ≤ 0 then ⟨['0'], some (List.replicate (-point).toNat '0' ++ digits), none⟩
  else if digits.length ≤ point then
    ⟨digits ++ List.replicate (point - digits.length).toNat '0', some ['0'], none⟩
  else ⟨digits.take point.toNat, some (digits.drop point.toNat), none⟩

theorem positional_eq (digits : List Char) (point : Int) :
    positional digits point = (positionalNumeral digits point).text := by
  unfold positional positionalNumeral Numeral.text Numeral.decimalsText Numeral.powerText
  split_ifs <;> simp

theorem formed_positionalNumeral {digits : List Char} (leading : Leading digits) (point : Int) :
    (positionalNumeral digits point).Formed := by
  unfold positionalNumeral
  have zeros (count : Nat) : ∀ c ∈ List.replicate count '0', isDigit c = true :=
    fun c listed => isDigit_of_mem_replicate listed
  split_ifs with below beyond
  · refine ⟨whole_zero, ?_, nofun⟩
    rintro decimals ⟨⟩
    refine ⟨by simp [leading.1.1], fun c listed => ?_⟩
    exact (List.mem_append.mp listed).elim (zeros _ c) (leading.1.2 c)
  · refine ⟨Leading.whole ⟨digits_append leading.1 (zeros _), ?_⟩, ?_, nofun⟩
    · rw [List.head?_append_of_ne_nil _ leading.1.1]
      exact leading.2
    · rintro decimals ⟨⟩
      exact digits_zero
  · have some : digits.take point.toNat ≠ [] := by
      simp only [ne_eq, List.take_eq_nil_iff, not_or]
      exact ⟨by omega, leading.1.1⟩
    refine ⟨(leading_mono leading (List.take_prefix _ _) some).whole, ?_, nofun⟩
    rintro decimals ⟨⟩
    refine ⟨?_, fun c listed => leading.1.2 c (List.mem_of_mem_drop listed)⟩
    simp only [ne_eq, List.drop_eq_nil_iff]
    omega

theorem value_positionalNumeral (digits : List Char) (point : Int) :
    (positionalNumeral digits point).value = digitsValue digits * 10 ^ (point - digits.length) := by
  unfold positionalNumeral
  split_ifs with below beyond
  · simp only [Numeral.value, Numeral.exponentValue, Option.getD_some, Option.getD_none,
      List.length_append, List.length_replicate]
    have same : digitsValue (['0'] ++ (List.replicate (-point).toNat '0' ++ digits)) =
        digitsValue digits := by
      rw [digitsValue_append, digitsValue_append, digitsValue_replicate]
      simp [digitsValue]
    rw [same]
    congr 2
    omega
  · simp only [Numeral.value, Numeral.exponentValue, Option.getD_some, Option.getD_none,
      List.length_cons, List.length_nil]
    have zeros : digitsValue (digits ++ List.replicate (point - digits.length).toNat '0' ++ ['0']) =
        digitsValue digits * 10 ^ ((point - digits.length).toNat + 1) := by
      rw [List.append_assoc, digitsValue_append, ← List.replicate_succ', digitsValue_replicate,
        List.length_replicate, add_zero]
    rw [zeros]
    push_cast
    rw [mul_assoc, ← zpow_natCast, ← zpow_add₀ (by norm_num)]
    congr 2
    omega
  · simp only [Numeral.value, Numeral.exponentValue, Option.getD_some, Option.getD_none,
      List.take_append_drop, List.length_drop]
    congr 2
    omega

theorem digitsValue_places (power : Int) : digitsValue (places power) = power.natAbs := by
  have own := digitsValue_toDigits power.natAbs
  simp only [places]
  split_ifs
  · rw [digitsValue_cons, own]
    simp
  · exact own

/-- One digit and an exponent are their numeral. -/
def scientificNumeral (digits : List Char) (power : Int) : Numeral :=
  ⟨digits.take 1, if digits.length < 2 then none else some (digits.drop 1),
    some (decide (power < 0), places power)⟩

theorem scientific_eq (digits : List Char) (power : Int) :
    scientific digits power = (scientificNumeral digits power).text := by
  unfold scientific scientificNumeral Numeral.text Numeral.decimalsText Numeral.powerText
  match digits with
  | [] => simp
  | [d] => simp
  | d :: e :: more => simp

theorem formed_scientificNumeral {digits : List Char} (leading : Leading digits) (power : Int) :
    (scientificNumeral digits power).Formed := by
  have some : digits.take 1 ≠ [] := by simp [leading.1.1]
  refine ⟨(leading_mono leading (List.take_prefix _ _) some).whole, ?_, ?_⟩
  · rintro decimals listed
    simp only [scientificNumeral] at listed
    split_ifs at listed with short
    · cases listed
    · cases listed
      refine ⟨?_, fun c listed => leading.1.2 c (List.mem_of_mem_drop listed)⟩
      simp only [ne_eq, List.drop_eq_nil_iff]
      omega
  · rintro own ⟨⟩
    exact digits_places power

theorem value_scientificNumeral {digits : List Char} (leading : Leading digits) (power : Int) :
    (scientificNumeral digits power).value =
      digitsValue digits * 10 ^ (power + 1 - digits.length) := by
  have length : 0 < digits.length := List.length_pos_iff.mpr leading.1.1
  have exponent : Numeral.exponentValue (some (decide (power < 0), places power)) = some power := by
    simp only [Numeral.exponentValue, digitsValue_places, decide_eq_true_eq]
    congr 1
    split_ifs <;> omega
  unfold Numeral.value scientificNumeral
  simp only [exponent, Option.getD_some]
  split_ifs with short
  · have whole : digits.take 1 = digits := List.take_of_length_le (by omega)
    rw [whole, Option.getD_none, List.append_nil]
    congr 2
    simp only [List.length_nil]
    omega
  · rw [Option.getD_some, List.take_append_drop, List.length_drop]
    congr 2
    omega

/-- The numeral that a positive number is written as. -/
def magnitudeNumeral (q : Rat) : Numeral :=
  let (m, unit) := shortest q
  let digits := Nat.toDigits 10 m.toNat
  let point : Int := digits.length + unit
  let digits := digits.rdropWhile (· = '0')
  if -4 < point ∧ point ≤ 16 then positionalNumeral digits point
  else scientificNumeral digits (point - 1)

theorem magnitudeText_eq (q : Rat) : magnitudeText q = (magnitudeNumeral q).text := by
  simp only [magnitudeText, magnitudeNumeral, positional_eq, scientific_eq]
  split_ifs <;> rfl

theorem leading_shortest {q : Rat} (positive : 0 < q) :
    Leading ((Nat.toDigits 10 (shortest q).1.toNat).rdropWhile (· = '0')) := by
  have some := one_le_shortest positive
  exact (leading_toDigits (by omega)).rdropWhile

theorem formed_magnitudeNumeral {q : Rat} (positive : 0 < q) : (magnitudeNumeral q).Formed := by
  have leading := leading_shortest positive
  simp only [magnitudeNumeral]
  split_ifs
  · exact formed_positionalNumeral leading _
  · exact formed_scientificNumeral leading _

theorem pointed_magnitudeNumeral (q : Rat) :
    (magnitudeNumeral q).decimals.isSome ∨ (magnitudeNumeral q).power.isSome := by
  simp only [magnitudeNumeral, positionalNumeral, scientificNumeral]
  split_ifs <;> simp

theorem value_magnitudeNumeral {q : Rat} (positive : 0 < q) :
    (magnitudeNumeral q).value = (shortest q).1 * 10 ^ (shortest q).2 := by
  have some := one_le_shortest positive
  have leading := leading_shortest positive
  obtain ⟨count, split⟩ := exists_trailing (Nat.toDigits 10 (shortest q).1.toNat)
  have number := digitsValue_toDigits (shortest q).1.toNat
  have length := congrArg List.length split
  rw [split, digitsValue_append, digitsValue_replicate, List.length_replicate, add_zero] at number
  rw [List.length_append, List.length_replicate] at length
  have whole : ((shortest q).1 : Rat) =
      digitsValue ((Nat.toDigits 10 (shortest q).1.toNat).rdropWhile (· = '0')) * 10 ^ count := by
    have cast : ((shortest q).1.toNat : Int) = (shortest q).1 := Int.toNat_of_nonneg (by omega)
    rw [← number] at cast
    exact_mod_cast cast.symm
  have same : (magnitudeNumeral q).value =
      digitsValue ((Nat.toDigits 10 (shortest q).1.toNat).rdropWhile (· = '0')) *
        10 ^ ((Nat.toDigits 10 (shortest q).1.toNat).length + (shortest q).2 -
          ((Nat.toDigits 10 (shortest q).1.toNat).rdropWhile (· = '0')).length) := by
    simp only [magnitudeNumeral]
    split_ifs
    · exact value_positionalNumeral _ _
    · rw [value_scientificNumeral leading]
      congr 2
      omega
  rw [same, whole, mul_assoc, ← zpow_natCast, ← zpow_add₀ (by norm_num)]
  congr 2
  omega

theorem decimalFloat_value (n : Numeral) (negative : Bool) :
    decimalFloat negative n.whole (n.decimals.getD []) ((Numeral.exponentValue n.power).getD 0) =
      match toDouble n.value with
      | some q => .finite (if negative then -q else q)
      | none => .inf negative := rfl

theorem scanUnsigned_magnitudeText {q : Rat} (positive : 0 < q) (float : IsFloat q)
    (stops : Stops rest) (negative : Bool) :
    scanUnsigned negative (magnitudeText q ++ rest) =
      some (.ok (.float (.finite (if negative then -q else q)), rest)) := by
  have reads := toDouble_shortest positive float
  rw [magnitudeText_eq, scanUnsigned_text (formed_magnitudeNumeral positive) stops,
    if_pos (pointed_magnitudeNumeral q), decimalFloat_value, value_magnitudeNumeral positive, reads]

theorem Numeral.Formed.begins {n : Numeral} (formed : n.Formed) :
    ∃ c tail, n.text = c :: tail ∧ isDigit c = true := by
  obtain ⟨c, tail, whole⟩ := List.exists_cons_of_ne_nil formed.whole.1.1
  refine ⟨c, tail ++ (n.decimalsText ++ n.powerText), ?_, ?_⟩
  · rw [Numeral.text, whole, List.cons_append]
  · exact formed.whole.1.2 c (whole ▸ List.mem_cons_self)

/-- A float is read as it was written. -/
theorem scanNumber_floatText {q : Rat} (float : IsFloat q) (stops : Stops rest) :
    scanNumber (floatText q ++ rest) = some (.ok (.float (.finite q), rest)) := by
  rw [floatText]
  split_ifs with zero negative
  · subst zero
    let n : Numeral := ⟨['0'], some ['0'], none⟩
    have formed : n.Formed := by
      refine ⟨whole_zero, ?_, ?_⟩
      · intro decimals given
        cases given
        exact digits_zero
      · intro power given
        cases given
    have value : n.value = 0 := by
      rw [Numeral.value]
      simp [n, digitsValue]
    have scanned := scanUnsigned_text formed stops false
    have pointed : n.decimals.isSome ∨ n.power.isSome := Or.inl rfl
    rw [if_pos pointed, decimalFloat_value, value, isFloat_zero] at scanned
    exact scanned
  · have positive : 0 < -q := by linarith
    rw [List.cons_append, scanNumber_minus,
      scanUnsigned_magnitudeText positive float.neg stops true]
    simp
  · have positive : 0 < q := lt_of_le_of_ne (not_lt.mp negative) (Ne.symm zero)
    have scanned := scanUnsigned_magnitudeText positive float stops false
    obtain ⟨c, tail, text, digit⟩ := (formed_magnitudeNumeral positive).begins
    rw [magnitudeText_eq, text, List.cons_append] at scanned ⊢
    rw [scanNumber_digit digit, scanned]
    rfl

/-! ## Ints are read back -/

theorem decimalDigit_of_isDigit {c : Char} (digit : isDigit c = true) :
    decimalDigit c = some (c.toNat - 48) := by
  simp only [isDigit, Bool.and_eq_true, decide_eq_true_eq] at digit
  have first : decimalZeros.find? (fun first => first ≤ c.toNat && c.toNat < first + 10) =
      some 0x30 := by
    refine List.find?_cons_of_pos ?_
    simp only [Bool.and_eq_true, decide_eq_true_eq]
    omega
  rw [decimalDigit, first]
  rfl

theorem readDigits_of_digits {digits : List Char} (all : ∀ c ∈ digits, isDigit c = true)
    (value : Nat) :
    readDigits value true digits = some (value * 10 ^ digits.length + digitsValue digits) := by
  induction digits generalizing value with
  | nil => simp [readDigits, digitsValue]
  | cons c rest ih =>
    have digit := all c List.mem_cons_self
    have plain : c ≠ '_' := by
      rintro rfl
      cases digit
    rw [readDigits, if_neg plain, decimalDigit_of_isDigit digit]
    simp only [ih fun d listed => all d (List.mem_cons_of_mem c listed)]
    rw [digitsValue_cons, List.length_cons, pow_succ]
    congr 1
    ring

/-- Digits are an int, unless there are too many. -/
def readInt (digits : List Char) : Option Nat :=
  if digits.length ≤ 4300 then some (digitsValue digits) else none

theorem read_digits {digits : List Char} (all : Digits digits) :
    (if 4300 < digits.countP fun c => c ≠ '_' then none else readDigits 0 false digits) =
      readInt digits := by
  have count : digits.countP (fun c => c ≠ '_') = digits.length := by
    refine List.countP_eq_length.mpr fun c listed => ?_
    have digit := all.2 c listed
    simp only [ne_eq, decide_not, Bool.not_eq_true', decide_eq_false_iff_not]
    rintro rfl
    cases digit
  rw [count, readInt]
  obtain ⟨c, rest, rfl⟩ := List.exists_cons_of_ne_nil all.1
  have first := all.2 c List.mem_cons_self
  have plain : c ≠ '_' := by
    rintro rfl
    cases first
  have read := readDigits_of_digits fun d listed => all.2 d (List.mem_cons_of_mem c listed)
  by_cases short : (c :: rest).length ≤ 4300
  · rw [if_neg (by omega), if_pos short, readDigits, if_neg plain, decimalDigit_of_isDigit first]
    simp only [read, digitsValue_cons, Nat.mul_zero, Nat.zero_add]
  · rw [if_pos (by omega), if_neg short]

/-- A sign and digits have no white space to strip. -/
theorem unblank {text : List Char} {blank : Char → Bool} (visible : ∀ c ∈ text, blank c = false) :
    (text.dropWhile blank).rdropWhile blank = text := by
  have front : text.dropWhile blank = text := by
    cases text with
    | nil => rfl
    | cons c rest => rw [List.dropWhile_cons_of_neg (by simp [visible c List.mem_cons_self])]
  rw [front]
  refine List.rdropWhile_eq_self_iff.mpr fun nonempty => ?_
  rw [visible _ (List.getLast_mem nonempty)]
  decide

theorem digit_not_blank {c : Char} (digit : isDigit c = true) :
    (c = ' ' || (9 ≤ c.toNat && c.toNat ≤ 13) || (127 < c.toNat && isSpace c)) = false := by
  simp only [isDigit, Bool.and_eq_true, decide_eq_true_eq] at digit
  have noSpace : c ≠ ' ' := by
    rintro rfl
    exact absurd digit.1 (by decide)
  simp only [noSpace, decide_false, Bool.false_or, Bool.or_eq_false_iff, Bool.and_eq_false_iff,
    decide_eq_false_iff_not]
  omega

theorem int_digits {digits : List Char} (all : Digits digits) :
    int (String.ofList digits) = (readInt digits).map Int.ofNat := by
  have read := read_digits all
  rw [int, String.toList_ofList, unblank fun c listed => digit_not_blank (all.2 c listed)]
  obtain ⟨c, rest, rfl⟩ := List.exists_cons_of_ne_nil all.1
  have first := all.2 c List.mem_cons_self
  have unsigned : c ≠ '-' ∧ c ≠ '+' := by
    refine ⟨?_, ?_⟩ <;> (rintro rfl; cases first)
  split
  · exact absurd (List.cons.inj ‹_›).1 unsigned.1
  · exact absurd (List.cons.inj ‹_›).1 unsigned.2
  · simp only [read]
    cases readInt (c :: rest) <;> rfl

theorem int_negative {digits : List Char} (all : Digits digits) :
    int (String.ofList ('-' :: digits)) = (readInt digits).map fun n => -Int.ofNat n := by
  have read := read_digits all
  rw [int, String.toList_ofList, unblank]
  · simp only [read]
    cases readInt digits <;> rfl
  · intro c listed
    rcases List.mem_cons.mp listed with rfl | later
    · decide
    · exact digit_not_blank (all.2 c later)

/-- An int of no more digits than Python converts. -/
def Readable (n : Int) : Prop := (Nat.toDigits 10 n.natAbs).length ≤ 4300

instance : DecidablePred Readable := fun n =>
  inferInstanceAs (Decidable ((Nat.toDigits 10 n.natAbs).length ≤ 4300))

def wholeNumeral (n : Nat) : Numeral := ⟨Nat.toDigits 10 n, none, none⟩

theorem formed_wholeNumeral (n : Nat) : (wholeNumeral n).Formed := by
  refine ⟨?_, nofun, nofun⟩
  rcases Nat.eq_zero_or_pos n with rfl | positive
  · rw [wholeNumeral, Nat.toDigits_zero]
    exact whole_zero
  · exact (leading_toDigits positive).whole

theorem text_wholeNumeral (n : Nat) : (wholeNumeral n).text = Nat.toDigits 10 n := by
  simp [Numeral.text, wholeNumeral, Numeral.decimalsText, Numeral.powerText]

theorem toList_toString (n : Int) :
    (toString n).toList =
      if n < 0 then '-' :: Nat.toDigits 10 n.natAbs else Nat.toDigits 10 n.natAbs := by
  cases n with
  | ofNat n => exact Nat.toList_repr
  | negSucc n =>
    rw [if_pos (Int.negSucc_lt_zero n)]
    change ("-" ++ (n + 1).repr).toList = _
    rw [String.toList_append, Nat.toList_repr]
    rfl

/-- An int is read as it was written. -/
theorem scanNumber_intText {n : Int} (readable : Readable n) (stops : Stops rest) :
    scanNumber ((toString n).toList ++ rest) = some (.ok (.int n, rest)) := by
  have scanned := scanUnsigned_text (formed_wholeNumeral n.natAbs) stops
  have digits := digits_toDigits n.natAbs
  have read : readInt (Nat.toDigits 10 n.natAbs) = some n.natAbs := by
    have short : (Nat.toDigits 10 n.natAbs).length ≤ 4300 := readable
    rw [readInt, if_pos short, digitsValue_toDigits]
  simp only [text_wholeNumeral] at scanned
  rw [toList_toString]
  split_ifs with negative
  · rw [List.cons_append, scanNumber_minus, scanned]
    simp only [wholeNumeral, Option.isSome_none, Bool.false_eq_true, or_self, if_false, if_true,
      int_negative digits, read, Option.map_some]
    have same : -Int.ofNat n.natAbs = n := by
      rw [Int.ofNat_eq_natCast]
      omega
    rw [same]
  · obtain ⟨c, tail, text, digit⟩ := (formed_wholeNumeral n.natAbs).begins
    rw [text_wholeNumeral] at text
    have unsigned := scanned false
    rw [text, List.cons_append] at unsigned ⊢
    rw [scanNumber_digit digit, unsigned]
    simp only [wholeNumeral, Option.isSome_none, Bool.false_eq_true, or_self, if_false,
      int_digits digits, read, Option.map_some]
    have same : Int.ofNat n.natAbs = n := by
      rw [Int.ofNat_eq_natCast]
      omega
    rw [same]

end Numbers
