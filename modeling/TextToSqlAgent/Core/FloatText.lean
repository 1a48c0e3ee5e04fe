import TextToSqlAgent.Core.JsonText
import TextToSqlAgent.Library.Lines

/-!
# Numbers as texts

`repr` of a `float`: the shortest decimal that is read as that double, with an
exponent where the point would stand more than sixteen digits on or more than
three zeros back. Every such text, and every `repr` of an `int`, is a number of
the JSON grammar.
-/

namespace FloatText

open Python JsonText Lines

/-- The power of ten of the last of so many significant digits. -/
def unitAt (q : Rat) (count : Nat) : Int := Int.log 10 q + 1 - count

/-- The whole numbers around a number, the nearest first. -/
def around (x : Rat) : List Int := [roundHalfEven x, ⌊x⌋, ⌊x⌋ + 1]

/-- A decimal of so many digits that is read as the double, if there is one: a
whole number and its power of ten. -/
def decimal? (q : Rat) (count : Nat) : Option (Int × Int) :=
  let unit := unitAt q count
  let reads (m : Int) : Bool := toDouble ((m : Rat) * 10 ^ unit) = some q
  ((around (q / 10 ^ unit)).find? reads).map fun m => (m, unit)

/-- The decimal of the fewest digits that is read as the double. Seventeen are
enough for every double. -/
def shortest (q : Rat) : Int × Int :=
  ((List.range' 1 17).findSome? (decimal? q)).getD
    (roundHalfEven (q / 10 ^ unitAt q 17), unitAt q 17)

/-- Digits with the point after so many of them. -/
def positional (digits : List Char) (point : Int) : List Char :=
  if point ≤ 0 then '0' :: '.' :: (List.replicate (-point).toNat '0' ++ digits)
  else if digits.length ≤ point then
    (digits ++ List.replicate (point - digits.length).toNat '0') ++ ['.', '0']
  else digits.take point.toNat ++ '.' :: digits.drop point.toNat

/-- At least two digits of an exponent. -/
def places (power : Int) : List Char :=
  let digits := Nat.toDigits 10 power.natAbs
  if digits.length < 2 then '0' :: digits else digits

/-- One digit before the point, and an exponent. -/
def scientific (digits : List Char) (power : Int) : List Char :=
  let mantissa := match digits with
    | d :: e :: more => d :: '.' :: e :: more
    | short => short
  mantissa ++ 'e' :: (if power < 0 then '-' else '+') :: places power

/-- The text of a positive number. -/
def magnitudeText (q : Rat) : List Char :=
  let (m, unit) := shortest q
  let digits := Nat.toDigits 10 m.toNat
  let point : Int := digits.length + unit
  let digits := digits.rdropWhile (· = '0')
  if -4 < point ∧ point ≤ 16 then positional digits point else scientific digits (point - 1)

/-- `repr(x)` of a finite `float`. -/
def floatText (q : Rat) : List Char :=
  if q = 0 then ['0', '.', '0']
  else if q < 0 then '-' :: magnitudeText (-q)
  else magnitudeText q

/-- The double next to 0.1 has one digit; a power of two is not read as the
decimal nearest to it, and another of as many digits is taken. -/
example : ([(toDouble (1 / 10)).getD 0, -(2 : Rat) ^ (-44 : Int), 2 ^ 70].map fun q =>
    String.ofList (floatText q)) =
    ["0.1", "-5.684341886080802e-14", "1.1805916207174113e+21"] := by decide +kernel

/-! ## The grammar of numbers -/

/-- Digits, and at least one. -/
def Digits (text : List Char) : Prop := text ≠ [] ∧ ∀ c ∈ text, isDigit c = true

/-- What stands before the point has no zero in front. -/
def Whole (text : List Char) : Prop := Digits text ∧ (text.head? = some '0' → text = ['0'])

inductive Fraction : List Char → Prop
  | none : Fraction []
  | digits {text : List Char} (digits : Digits text) : Fraction ('.' :: text)

inductive Exponent : List Char → Prop
  | none : Exponent []
  | signed {sign : Char} {text : List Char} (sign_eq : sign = '-' ∨ sign = '+')
      (digits : Digits text) : Exponent ('e' :: sign :: text)

/-- A number without its sign. -/
def Unsigned (text : List Char) : Prop :=
  ∃ whole fraction exponent, Whole whole ∧ Fraction fraction ∧ Exponent exponent ∧
    text = whole ++ (fraction ++ exponent)

def IsNumber (text : List Char) : Prop :=
  Unsigned text ∨ ∃ rest, Unsigned rest ∧ text = '-' :: rest

theorem wholePart_append {whole rest : List Char} (digits : Whole whole)
    (stop : ∀ c ∈ rest.head?, isDigit c = false) :
    wholePart (whole ++ rest) = some (whole, rest) := by
  obtain ⟨⟨some, all⟩, zero⟩ := digits
  cases whole with
  | nil => exact absurd rfl some
  | cons c more =>
    rw [List.cons_append, wholePart]
    split_ifs with leading digit
    · subst leading
      obtain rfl : more = [] := (List.cons.inj (zero rfl)).2
      rfl
    · have run := takeWhile_stops (fun d listed => all d (List.mem_cons_of_mem _ listed)) stop
      rw [run.1, run.2]
    · exact absurd (all c List.mem_cons_self) digit

/-! ## Digits -/

/-- Digits that begin with no zero. -/
def Leading (text : List Char) : Prop := Digits text ∧ text.head? ≠ some '0'

theorem Leading.whole {text : List Char} (leading : Leading text) : Whole text :=
  ⟨leading.1, fun zero => absurd zero leading.2⟩

theorem digits_zero : Digits ['0'] := by
  refine ⟨List.cons_ne_nil _ _, fun c listed => ?_⟩
  obtain rfl := List.mem_singleton.mp listed
  decide

theorem whole_zero : Whole ['0'] := ⟨digits_zero, fun _ => rfl⟩

theorem digits_toDigits (n : Nat) : Digits (Nat.toDigits 10 n) := by
  refine ⟨Nat.toDigits_ne_nil, fun c listed => ?_⟩
  have digit : c.isDigit = true := Nat.isDigit_of_mem_toDigits (by omega) (by omega) listed
  simp only [Char.isDigit, Bool.and_eq_true, decide_eq_true_eq] at digit
  simp only [isDigit, Bool.and_eq_true, decide_eq_true_eq]
  exact digit

theorem leading_toDigits {n : Nat} (positive : 0 < n) : Leading (Nat.toDigits 10 n) := by
  refine ⟨digits_toDigits n, ?_⟩
  induction n using Nat.strongRecOn with
  | _ n ih =>
    rcases Nat.lt_or_ge n 10 with small | large
    · rw [Nat.toDigits_of_lt_base small]
      have nonzero : ∀ m < 10, 0 < m → Nat.digitChar m ≠ '0' := by decide
      simpa using nonzero n small positive
    · rw [Nat.toDigits_of_base_le (by omega) large,
        List.head?_append_of_ne_nil _ Nat.toDigits_ne_nil]
      exact ih (n / 10) (Nat.div_lt_self positive (by omega)) (Nat.div_pos large (by omega))

theorem leading_mono {first text : List Char} (leading : Leading text) (part : first <+: text)
    (some : first ≠ []) : Leading first := by
  obtain ⟨later, rfl⟩ := part
  refine ⟨⟨some, fun c listed => leading.1.2 c (List.mem_append_left _ listed)⟩, ?_⟩
  rw [← List.head?_append_of_ne_nil first some]
  exact leading.2

/-- Where zeros at the end are dropped, the first digit stays. -/
theorem Leading.rdropWhile {text : List Char} (leading : Leading text) :
    Leading (text.rdropWhile (· = '0')) := by
  refine leading_mono leading (List.rdropWhile_prefix _ _) ?_
  intro nothing
  rw [List.rdropWhile_eq_nil_iff] at nothing
  cases text with
  | nil => exact leading.1.1 rfl
  | cons c rest =>
    have zero : c = '0' := by simpa using nothing c List.mem_cons_self
    exact leading.2 (congrArg Option.some zero)

theorem digits_append {first later : List Char} (one : Digits first)
    (two : ∀ c ∈ later, isDigit c = true) : Digits (first ++ later) := by
  refine ⟨by simp [one.1], fun c listed => ?_⟩
  exact (List.mem_append.mp listed).elim (one.2 c) (two c)

theorem isDigit_of_mem_replicate {n : Nat} {c : Char} (listed : c ∈ List.replicate n '0') :
    isDigit c = true := by
  obtain rfl := List.eq_of_mem_replicate listed
  decide

/-! ## Every text is a number -/

theorem unsigned_positional {digits : List Char} (leading : Leading digits) (point : Int) :
    Unsigned (positional digits point) := by
  have zeros (n : Nat) : ∀ c ∈ List.replicate n '0', isDigit c = true :=
    fun c listed => isDigit_of_mem_replicate listed
  rw [positional]
  split_ifs with small large
  · refine ⟨['0'], '.' :: (List.replicate (-point).toNat '0' ++ digits), [], whole_zero,
      .digits ?_, .none, by simp⟩
    refine ⟨by simp [leading.1.1], fun c listed => ?_⟩
    exact (List.mem_append.mp listed).elim (zeros _ c) (leading.1.2 c)
  · refine ⟨digits ++ List.replicate (point - digits.length).toNat '0', ['.', '0'], [], ?_,
      .digits digits_zero, .none, by simp⟩
    refine Leading.whole ⟨digits_append leading.1 (zeros _), ?_⟩
    rw [List.head?_append_of_ne_nil _ leading.1.1]
    exact leading.2
  · have before : digits.take point.toNat ≠ [] := by
      rw [ne_eq, List.take_eq_nil_iff, not_or]
      exact ⟨by omega, leading.1.1⟩
    have after : digits.drop point.toNat ≠ [] := by
      rw [ne_eq, List.drop_eq_nil_iff]
      omega
    refine ⟨digits.take point.toNat, '.' :: digits.drop point.toNat, [],
      (leading_mono leading (List.take_prefix _ _) before).whole, .digits ⟨after, ?_⟩, .none,
      by simp⟩
    exact fun c listed => leading.1.2 c (List.mem_of_mem_drop listed)

theorem digits_places (power : Int) : Digits (places power) := by
  have own := digits_toDigits power.natAbs
  simp only [places]
  split_ifs
  · refine ⟨by simp, fun c listed => ?_⟩
    rcases List.mem_cons.mp listed with rfl | later
    · decide
    · exact own.2 c later
  · exact own

theorem unsigned_scientific {digits : List Char} (leading : Leading digits) (power : Int) :
    Unsigned (scientific digits power) := by
  have sign : (if power < 0 then '-' else '+') = '-' ∨ (if power < 0 then '-' else '+') = '+' := by
    split_ifs <;> simp
  have exponent := Exponent.signed sign (digits_places power)
  cases digits with
  | nil => exact absurd rfl leading.1.1
  | cons d more =>
    have first : Whole [d] :=
      (leading_mono leading (List.prefix_append [d] more) (by simp)).whole
    cases more with
    | nil => exact ⟨[d], [], _, first, .none, exponent, rfl⟩
    | cons e more =>
      have rest : Digits (e :: more) :=
        ⟨by simp, fun c listed => leading.1.2 c (List.mem_cons_of_mem _ listed)⟩
      exact ⟨[d], _, _, first, .digits rest, exponent, rfl⟩

theorem floor_le_roundHalfEven (x : Rat) : ⌊x⌋ ≤ roundHalfEven x := by
  simp only [roundHalfEven]
  split_ifs <;> omega

theorem one_le_around {x : Rat} (large : 1 ≤ x) : ∀ m ∈ around x, 1 ≤ m := by
  have floor : 1 ≤ ⌊x⌋ := Int.le_floor.mpr (by exact_mod_cast large)
  have round := floor_le_roundHalfEven x
  intro m listed
  simp only [around, List.mem_cons, List.not_mem_nil, or_false] at listed
  omega

/-- At its own unit a positive number is at least one. -/
theorem one_le_div_unit {q : Rat} (positive : 0 < q) {count : Nat} (some : 1 ≤ count) :
    1 ≤ q / 10 ^ unitAt q count := by
  have unit : (0 : Rat) < 10 ^ unitAt q count := zpow_pos (by norm_num) _
  have lower : unitAt q count ≤ Int.log 10 q := by
    rw [unitAt]
    omega
  rw [one_le_div unit]
  calc (10 : Rat) ^ unitAt q count
      ≤ 10 ^ Int.log 10 q := zpow_le_zpow_right₀ (by norm_num) lower
    _ ≤ q := by exact_mod_cast Int.zpow_log_le_self (by norm_num) positive

theorem one_le_shortest {q : Rat} (positive : 0 < q) : 1 ≤ (shortest q).1 := by
  rw [shortest]
  cases found : (List.range' 1 17).findSome? (decimal? q) with
  | none =>
    exact one_le_around (one_le_div_unit positive (by omega : 1 ≤ 17)) _ List.mem_cons_self
  | some decimal =>
    obtain ⟨count, listed, made⟩ := List.exists_of_findSome?_eq_some found
    have some : 1 ≤ count := (List.mem_range'_1.mp listed).1
    obtain ⟨m, chosen, rfl⟩ := Option.map_eq_some_iff.mp made
    exact one_le_around (one_le_div_unit positive some) m (List.mem_of_find?_eq_some chosen)

theorem unsigned_magnitudeText {q : Rat} (positive : 0 < q) : Unsigned (magnitudeText q) := by
  have some := one_le_shortest positive
  have leading : Leading ((Nat.toDigits 10 (shortest q).1.toNat).rdropWhile (· = '0')) :=
    (leading_toDigits (by omega)).rdropWhile
  simp only [magnitudeText]
  split_ifs
  · exact unsigned_positional leading _
  · exact unsigned_scientific leading _

/-- The text of a float is a number. -/
theorem isNumber_floatText (q : Rat) : IsNumber (floatText q) := by
  rw [floatText]
  split_ifs with zero negative
  · exact Or.inl ⟨['0'], ['.', '0'], [], whole_zero, .digits digits_zero, .none, rfl⟩
  · exact Or.inr ⟨_, unsigned_magnitudeText (by linarith), rfl⟩
  · refine Or.inl (unsigned_magnitudeText ?_)
    exact lt_of_le_of_ne (not_lt.mp negative) (Ne.symm zero)

theorem unsigned_toDigits (n : Nat) : Unsigned (Nat.toDigits 10 n) := by
  refine ⟨Nat.toDigits 10 n, [], [], ?_, .none, .none, by simp⟩
  rcases Nat.eq_zero_or_pos n with rfl | positive
  · rw [Nat.toDigits_zero]
    exact whole_zero
  · exact (leading_toDigits positive).whole

/-- The text of an integer is a number. -/
theorem isNumber_intText (n : Int) : IsNumber (toString n).toList := by
  cases n with
  | ofNat n =>
    have text : (toString (Int.ofNat n)).toList = Nat.toDigits 10 n := Nat.toList_repr
    rw [text]
    exact Or.inl (unsigned_toDigits n)
  | negSucc n =>
    have text : (toString (Int.negSucc n)).toList = '-' :: Nat.toDigits 10 (n + 1) := by
      change ("-" ++ (n + 1).repr).toList = _
      rw [String.toList_append, Nat.toList_repr]
      rfl
    rw [text]
    exact Or.inr ⟨_, unsigned_toDigits (n + 1), rfl⟩

end FloatText
