import Mathlib.RingTheory.Int.Basic
import Mathlib.Tactic.Linarith
import TextToSqlAgent.Core.Python

/-!
# Doubles among the rational numbers

A double is a significand of at most 53 bits times a power of two. The nearest
double to a number is one, no double is nearer, and it is the number itself
exactly where the number is a double. Rounding doubles to decimal places merges
only those that have one nearest decimal.
-/

namespace Doubles

open Python

/-! ## The nearest integer -/

theorem abs_roundHalfEven_sub_le_half (q : Rat) : |(roundHalfEven q : Rat) - q| ≤ 1 / 2 := by
  have below := Int.floor_le q
  have above := Int.lt_floor_add_one q
  simp only [roundHalfEven]
  split_ifs <;> rw [abs_le] <;> push_cast <;> constructor <;> linarith

/-- No integer is nearer. -/
theorem abs_roundHalfEven_sub_le (q : Rat) (n : Int) :
    |(roundHalfEven q : Rat) - q| ≤ |(n : Rat) - q| := by
  by_cases same : n = roundHalfEven q
  · rw [same]
  · have half := abs_roundHalfEven_sub_le_half q
    have apart : (1 : Rat) ≤ |(n : Rat) - roundHalfEven q| := by
      have differ : n - roundHalfEven q ≠ 0 := sub_ne_zero.mpr same
      exact_mod_cast Int.one_le_abs differ
    have around := abs_sub_le (n : Rat) q (roundHalfEven q)
    rw [abs_sub_comm q] at around
    linarith

/-! ## Doubles -/

/-- The exponent of the last bit of a significand as large as the number. -/
def unit (q : Rat) : Int := max (Int.log 2 |q| - 52) (-1074)

/-- A significand and an exponent, the bound on large numbers left out. -/
def IsDouble (x : Rat) : Prop :=
  ∃ (significand : Int) (exponent : Int),
    |significand| ≤ 2 ^ 53 ∧ -1074 ≤ exponent ∧ x = significand * 2 ^ exponent

theorem nearestDouble_eq (q : Rat) :
    nearestDouble q = roundHalfEven (q / 2 ^ unit q) * 2 ^ unit q := rfl

theorem two_zpow_pos (e : Int) : (0 : Rat) < 2 ^ e := zpow_pos (by norm_num) e

theorem lt_two_zpow_unit (q : Rat) : |q| < 2 ^ (unit q + 53) := by
  have above : |q| < (2 : Rat) ^ (Int.log 2 |q| + 1) :=
    Int.lt_zpow_succ_log_self (by norm_num) |q|
  refine above.trans_le (zpow_le_zpow_right₀ (by norm_num) ?_)
  unfold unit
  omega

/-- Scaled to units, a number has at most 53 bits before its point. -/
theorem abs_div_unit_lt (q : Rat) : |q / 2 ^ unit q| < 2 ^ 53 := by
  have bound := lt_two_zpow_unit q
  rw [abs_div, abs_of_pos (two_zpow_pos _), div_lt_iff₀ (two_zpow_pos _)]
  rw [zpow_add₀ (by norm_num)] at bound
  have same : (2 : Rat) ^ (53 : Int) = 2 ^ 53 := by norm_num
  rw [same] at bound
  linarith

theorem isDouble_nearestDouble (q : Rat) : IsDouble (nearestDouble q) := by
  refine ⟨roundHalfEven (q / 2 ^ unit q), unit q, ?_, le_max_right _ _, nearestDouble_eq q⟩
  have near := abs_roundHalfEven_sub_le_half (q / 2 ^ unit q)
  have bound := abs_div_unit_lt q
  have whole : |(roundHalfEven (q / 2 ^ unit q) : Rat)| < 2 ^ 53 + 1 := by
    have := abs_sub_abs_le_abs_sub (roundHalfEven (q / 2 ^ unit q) : Rat) (q / 2 ^ unit q)
    linarith
  have whole' : |roundHalfEven (q / 2 ^ unit q)| < 2 ^ 53 + 1 := by exact_mod_cast whole
  omega

/-- Multiples of the unit are no nearer. -/
theorem abs_nearestDouble_sub_le_multiple (q : Rat) (n : Int) :
    |nearestDouble q - q| ≤ |n * 2 ^ unit q - q| := by
  have scaled : ∀ m : Int, |(m : Rat) * 2 ^ unit q - q| =
      |(m : Rat) - q / 2 ^ unit q| * 2 ^ unit q := by
    intro m
    have positive := two_zpow_pos (unit q)
    rw [← abs_of_pos positive, ← abs_mul, abs_of_pos positive, sub_mul,
      div_mul_cancel₀ q positive.ne']
  rw [nearestDouble_eq, scaled, scaled]
  exact mul_le_mul_of_nonneg_right (abs_roundHalfEven_sub_le _ n) (two_zpow_pos _).le

/-- No double is nearer than the nearest one. -/
theorem abs_nearestDouble_sub_le (q : Rat) {z : Rat} (double : IsDouble z) :
    |nearestDouble q - q| ≤ |z - q| := by
  obtain ⟨k, e, bits, lowest, rfl⟩ := double
  by_cases zero : q = 0
  · rw [zero, nearestDouble_zero, sub_zero, abs_zero]
    exact abs_nonneg _
  by_cases fine : unit q ≤ e
  · -- a coarser exponent gives a multiple of the unit
    have multiple : (k : Rat) * 2 ^ e = (k * 2 ^ (e - unit q).toNat : Int) * 2 ^ unit q := by
      push_cast
      rw [mul_assoc, ← zpow_natCast, ← zpow_add₀ (by norm_num)]
      congr 2
      omega
    rw [multiple]
    exact abs_nearestDouble_sub_le_multiple q _
  · -- a finer one gives a number below the power of two under `q`
    have exact : unit q = Int.log 2 |q| - 52 := by
      unfold unit at fine ⊢
      omega
    have nonzero : 0 < |q| := abs_pos.mpr zero
    have power : ((2 ^ 52 : Int) : Rat) * 2 ^ unit q = 2 ^ Int.log 2 |q| := by
      rw [Int.cast_pow, Int.cast_ofNat, ← zpow_natCast, ← zpow_add₀ (by norm_num)]
      congr 1
      omega
    have under : (2 : Rat) ^ Int.log 2 |q| ≤ |q| := Int.zpow_log_le_self (by norm_num) nonzero
    have small : |(k : Rat) * 2 ^ e| ≤ 2 ^ Int.log 2 |q| := by
      have bitsRat : |(k : Rat)| ≤ 2 ^ (53 : Nat) := by exact_mod_cast bits
      rw [abs_mul, abs_of_pos (two_zpow_pos e)]
      calc |(k : Rat)| * 2 ^ e ≤ 2 ^ (53 : Nat) * 2 ^ e :=
            mul_le_mul_of_nonneg_right bitsRat (two_zpow_pos e).le
        _ = 2 ^ (53 + e) := by
            rw [← zpow_natCast, ← zpow_add₀ (by norm_num)]
            norm_num
        _ ≤ 2 ^ Int.log 2 |q| := zpow_le_zpow_right₀ (by norm_num) (by omega)
    have step : |nearestDouble q - q| ≤ |q| - 2 ^ Int.log 2 |q| := by
      rcases abs_cases q with ⟨positive, sign⟩ | ⟨negative, sign⟩
      · have near := abs_nearestDouble_sub_le_multiple q (2 ^ 52)
        rw [power, abs_of_nonpos (a := 2 ^ Int.log 2 |q| - q) (by linarith)] at near
        linarith
      · have near := abs_nearestDouble_sub_le_multiple q (-(2 ^ 52))
        rw [Int.cast_neg, neg_mul, power, abs_of_nonneg (a := -2 ^ Int.log 2 |q| - q)
          (by linarith)] at near
        linarith
    have away := abs_sub_abs_le_abs_sub q (k * 2 ^ e)
    rw [abs_sub_comm q] at away
    linarith

/-- A number is its own nearest double exactly when it is a double. -/
theorem nearestDouble_eq_self_iff {x : Rat} : nearestDouble x = x ↔ IsDouble x := by
  constructor
  · intro same
    rw [← same]
    exact isDouble_nearestDouble x
  · intro double
    have near := abs_nearestDouble_sub_le x double
    rw [sub_self, abs_zero, abs_nonpos_iff, sub_eq_zero] at near
    exact near

instance (x : Rat) : Decidable (IsDouble x) := decidable_of_iff _ nearestDouble_eq_self_iff

/-- Integers of 53 bits are doubles. -/
theorem isDouble_intCast {n : Int} (small : |n| ≤ 2 ^ 53) : IsDouble n :=
  ⟨n, 0, small, by norm_num, by simp⟩

/-- A number of 64 bits is not rounded to infinity. -/
theorem toDouble_of_abs_le {q : Rat} (small : |q| ≤ 2 ^ 64) :
    toDouble q = some (nearestDouble q) := by
  have near := abs_nearestDouble_sub_le q (isDouble_intCast (n := 0) (by norm_num))
  have size := abs_sub_abs_le_abs_sub (nearestDouble q) q
  rw [Int.cast_zero, zero_sub, abs_neg] at near
  have below : |nearestDouble q| < 2 ^ 1024 :=
    calc |nearestDouble q| ≤ 2 ^ 65 := by linarith
      _ < 2 ^ 1024 := pow_lt_pow_right₀ (by norm_num) (by norm_num)
  unfold toDouble
  exact if_pos below

/-! ## Doubles are apart -/

theorem two_zpow_add_natCast (e : Int) (n : Nat) : (2 : Rat) ^ (e + n) = 2 ^ n * 2 ^ e := by
  rw [zpow_add₀ (by norm_num), zpow_natCast, mul_comm]

theorem one_le_abs_intCast {n : Int} (some : n ≠ 0) : (1 : Rat) ≤ |(n : Rat)| := by
  have whole : (1 : Int) ≤ |n| := Int.one_le_abs some
  exact_mod_cast whole

/-- Two multiples of a power of two are that power apart. -/
theorem two_zpow_le_abs_sub {m n e : Int} (apart : (n : Rat) * 2 ^ e ≠ m * 2 ^ e) :
    (2 : Rat) ^ e ≤ |(n : Rat) * 2 ^ e - m * 2 ^ e| := by
  have positive := two_zpow_pos e
  have other : n - m ≠ 0 := by
    intro same
    rw [sub_eq_zero.mp same] at apart
    exact apart rfl
  have far := mul_le_mul_of_nonneg_right (one_le_abs_intCast other) positive.le
  rw [one_mul, Int.cast_sub] at far
  rwa [← sub_mul, abs_mul, abs_of_pos positive]

/-- A significand of 53 bits bounds a positive double by its own last bit. -/
theorem double_le {k e : Int} (bits : |k| ≤ 2 ^ 53) : (k : Rat) * 2 ^ e ≤ 2 ^ 53 * 2 ^ e := by
  have bitsRat : (k : Rat) ≤ 2 ^ 53 := by exact_mod_cast (le_abs_self k).trans bits
  exact mul_le_mul_of_nonneg_right bitsRat (two_zpow_pos e).le

/-- A double is no further from zero than 2 ^ 53 times its distance from another one. -/
theorem le_abs_sub_of_double {q w : Rat} (one : IsDouble q) (other : IsDouble w) (apart : w ≠ q) :
    q ≤ 2 ^ 53 * |w - q| := by
  obtain ⟨m, e, bits, -, rfl⟩ := one
  obtain ⟨n, f, bits', -, rfl⟩ := other
  rcases Int.le_total e f with fine | coarse
  · -- the other one is a multiple of this one's last bit
    obtain ⟨d, rfl⟩ := Int.le.dest fine
    have multiple : (n : Rat) * 2 ^ (e + d) = (n * 2 ^ d : Int) * 2 ^ e := by
      rw [two_zpow_add_natCast]
      push_cast
      ring
    rw [multiple] at apart ⊢
    have far := two_zpow_le_abs_sub apart
    have size := double_le (e := e) bits
    linarith
  · obtain ⟨d, rfl⟩ := Int.le.dest coarse
    have multiple : (m : Rat) * 2 ^ (f + d) = (m * 2 ^ d : Int) * 2 ^ f := by
      rw [two_zpow_add_natCast]
      push_cast
      ring
    have size := double_le (e := f) bits'
    have bit := two_zpow_pos f
    rcases le_or_gt ((m : Rat) * 2 ^ (f + d)) (2 ^ 53 * 2 ^ f) with near | beyond
    · rw [multiple] at apart near ⊢
      have far := two_zpow_le_abs_sub apart
      linarith
    · -- beyond the other one's significands, by a multiple of this one's last bit
      have away : (m : Rat) * 2 ^ (f + d) - 2 ^ 53 * 2 ^ f ≤
          |(n : Rat) * 2 ^ f - m * 2 ^ (f + d)| := by
        rw [abs_sub_comm]
        have below := le_abs_self ((m : Rat) * 2 ^ (f + d) - n * 2 ^ f)
        linarith
      rcases le_or_gt d 53 with close | wide
      · obtain ⟨r, same⟩ := Nat.exists_eq_add_of_le close
        have edge : (2 : Rat) ^ 53 * 2 ^ f = (2 ^ r : Int) * 2 ^ (f + d) := by
          rw [two_zpow_add_natCast, same, pow_add]
          push_cast
          ring
        have above : ((2 ^ r : Int) : Rat) * 2 ^ (f + d) < m * 2 ^ (f + d) := by rwa [← edge]
        have gap := two_zpow_le_abs_sub above.ne'
        rw [abs_of_pos (sub_pos.mpr above), ← edge] at gap
        have own := double_le (e := f + d) bits
        linarith
      · have positive : 0 < m := by
          by_contra negative
          have cast : (m : Rat) ≤ 0 := by exact_mod_cast not_lt.mp negative
          have product := mul_nonpos_of_nonpos_of_nonneg cast (two_zpow_pos (f + d)).le
          linarith
        have large : (2 : Rat) * (2 ^ 53 * 2 ^ f) ≤ m * 2 ^ (f + d) := by
          have power : (2 : Rat) ^ 54 ≤ 2 ^ d := pow_le_pow_right₀ (by norm_num) (by omega)
          have whole : (1 : Rat) ≤ m := by exact_mod_cast positive
          rw [two_zpow_add_natCast, ← mul_assoc]
          have least : (2 : Rat) ^ 54 ≤ m * 2 ^ d := by nlinarith
          nlinarith
        linarith

/-- What is near enough to a positive double is rounded to it. -/
theorem nearestDouble_eq_of_near {q y : Rat} (double : IsDouble q)
    (near : 2 ^ 53 * (2 * |y - q|) < q) : nearestDouble y = q := by
  by_contra other
  have far := le_abs_sub_of_double double (isDouble_nearestDouble y) other
  have nearest := abs_nearestDouble_sub_le y double
  have between := abs_sub_le (nearestDouble y) y q
  rw [abs_sub_comm q] at nearest
  linarith

/-- The nearer one of two numbers is on the number's side of their middle. -/
theorem add_le_of_abs_sub_le {x near far : Rat} (order : far < near)
    (nearer : |near - x| ≤ |far - x|) : near + far ≤ 2 * x := by
  have squares := sq_le_sq.mpr nearer
  nlinarith

/-- Rounding keeps the order of numbers. -/
theorem nearestDouble_mono {x y : Rat} (le : x ≤ y) : nearestDouble x ≤ nearestDouble y := by
  by_contra crossed
  have order := not_le.mp crossed
  have above := add_le_of_abs_sub_le order (abs_nearestDouble_sub_le x (isDouble_nearestDouble y))
  have nearest := abs_nearestDouble_sub_le y (isDouble_nearestDouble x)
  have below := add_le_of_abs_sub_le (x := -y) (neg_lt_neg order) (by
    rwa [neg_sub_neg, neg_sub_neg, abs_sub_comm, abs_sub_comm y])
  have same : x = y := by linarith
  exact crossed (same ▸ le_rfl)

/-! ## Decimal places -/

/-- The nearest multiple of a decimal unit, counted in these units. -/
def decimalOf (places : Nat) (x : Rat) : Int := roundHalfEven (x * 10 ^ places)

theorem roundPlaces_eq (places : Nat) (x : Rat) :
    roundPlaces places x = nearestDouble (decimalOf places x / 10 ^ places) := rfl

theorem abs_sub_decimalOf_le (places : Nat) (x : Rat) :
    |x - decimalOf places x / 10 ^ places| ≤ 1 / 2 / 10 ^ places := by
  have unit : (0 : Rat) < 10 ^ places := pow_pos (by norm_num) _
  have half := abs_roundHalfEven_sub_le_half (x * 10 ^ places)
  have scaled : x - decimalOf places x / 10 ^ places =
      (x * 10 ^ places - decimalOf places x) / 10 ^ places := by
    rw [sub_div, mul_div_cancel_right₀ _ unit.ne']
  rw [scaled, abs_div, abs_of_pos unit, abs_sub_comm]
  exact div_le_div_of_nonneg_right half unit.le

/-- The difference of two multiples of powers of two has no factor other than
two in its denominator. -/
theorem dyadic_sub_ne_inv {k m e f : Int} {lowest places : Nat} (low : -(lowest : Int) ≤ e)
    (low' : -(lowest : Int) ≤ f) (some : 0 < places) :
    (k : Rat) * 2 ^ e - m * 2 ^ f ≠ 1 / 10 ^ places := by
  intro same
  have whole : ∀ (n : Int) (g : Int), -(lowest : Int) ≤ g →
      (n : Rat) * 2 ^ g * 2 ^ lowest = (n * 2 ^ (g + lowest).toNat : Int) := by
    intro n g bound
    push_cast
    rw [mul_assoc, ← zpow_natCast, ← zpow_natCast, ← zpow_add₀ (by norm_num)]
    congr 2
    omega
  have cleared : ((k * 2 ^ (e + lowest).toNat - m * 2 ^ (f + lowest).toNat) * 10 ^ places : Int) =
      (2 ^ lowest : Int) := by
    have unit : (10 : Rat) ^ places ≠ 0 := pow_ne_zero _ (by norm_num)
    have goal : ((k * 2 ^ (e + lowest).toNat - m * 2 ^ (f + lowest).toNat : Int) : Rat)
        * 10 ^ places = 2 ^ lowest := by
      rw [Int.cast_sub, ← whole k e low, ← whole m f low', ← sub_mul, same, mul_assoc,
        one_div, mul_comm ((2 : Rat) ^ lowest), inv_mul_cancel_left₀ unit]
    exact_mod_cast goal
  have five : (5 : Int) ∣ 2 ^ lowest := by
    rw [← cleared]
    exact Dvd.dvd.mul_left (dvd_pow (by norm_num) some.ne') _
  have two := Int.Prime.dvd_pow Nat.prime_five five
  omega

theorem IsDouble.sub_ne_inv {x y : Rat} (one : IsDouble x) (other : IsDouble y) {places : Nat}
    (some : 0 < places) : x - y ≠ 1 / 10 ^ places := by
  obtain ⟨k, e, -, low, rfl⟩ := one
  obtain ⟨m, f, -, low', rfl⟩ := other
  have lowest : -((1074 : Nat) : Int) = -1074 := rfl
  exact dyadic_sub_ne_inv (lowest ▸ low) (lowest ▸ low') some

/-- Doubles with neighbouring decimals and one result: the result lies halfway
between these, so it is both doubles. -/
theorem eq_of_decimalOf_lt {x y : Rat} (one : IsDouble x) (other : IsDouble y) {places : Nat}
    (some : 0 < places) (same : roundPlaces places x = roundPlaces places y)
    (less : decimalOf places x < decimalOf places y) : x = y := by
  have unit : (0 : Rat) < 1 / 10 ^ places := by positivity
  have half : (1 : Rat) / 2 / 10 ^ places = 1 / 10 ^ places / 2 := by ring
  have nearX := abs_sub_decimalOf_le places x
  have nearY := abs_sub_decimalOf_le places y
  have apart : (decimalOf places x : Rat) / 10 ^ places + 1 / 10 ^ places ≤
      decimalOf places y / 10 ^ places := by
    rw [← add_div]
    refine div_le_div_of_nonneg_right ?_ (by positivity)
    exact_mod_cast less
  have doubleX := abs_nearestDouble_sub_le (decimalOf places x / 10 ^ places) one
  have doubleY := abs_nearestDouble_sub_le (decimalOf places y / 10 ^ places) other
  have double := isDouble_nearestDouble (decimalOf places x / 10 ^ places)
  rw [roundPlaces_eq, roundPlaces_eq] at same
  rw [← same] at doubleY
  have gapX := double.sub_ne_inv one some
  have gapY := other.sub_ne_inv double some
  rw [half] at nearX nearY
  generalize nearestDouble (decimalOf places x / 10 ^ places) = d at *
  generalize (decimalOf places x : Rat) / 10 ^ places = X at *
  generalize (decimalOf places y : Rat) / 10 ^ places = Y at *
  generalize (1 : Rat) / 10 ^ places = u at *
  have dX := abs_le.mp (doubleX.trans nearX)
  have dY := abs_le.mp (doubleY.trans nearY)
  have left : d - X = u / 2 := by linarith
  have right : Y - d = u / 2 := by linarith
  have farX : u / 2 ≤ |x - X| := by
    rw [left, abs_of_pos (by linarith)] at doubleX
    exact doubleX
  have farY : u / 2 ≤ |y - Y| := by
    rw [abs_sub_comm, right, abs_of_pos (by linarith)] at doubleY
    exact doubleY
  have atX : x = d := by
    rcases abs_cases (x - X) with ⟨size, -⟩ | ⟨size, -⟩
    · linarith
    · exact absurd (by linarith) gapX
  have atY : y = d := by
    rcases abs_cases (y - Y) with ⟨size, -⟩ | ⟨size, -⟩
    · exact absurd (by linarith) gapY
    · linarith
  rw [atX, atY]

/-- Two doubles are rounded to one number exactly when they are one, or have
the same nearest decimal. -/
theorem roundPlaces_eq_iff {x y : Rat} (one : IsDouble x) (other : IsDouble y) {places : Nat}
    (some : 0 < places) :
    roundPlaces places x = roundPlaces places y ↔
      x = y ∨ decimalOf places x = decimalOf places y := by
  constructor
  · intro same
    rcases Int.lt_trichotomy (decimalOf places x) (decimalOf places y) with less | equal | more
    · exact .inl (eq_of_decimalOf_lt one other some same less)
    · exact .inr equal
    · exact .inl (eq_of_decimalOf_lt other one some same.symm more).symm
  · rintro (rfl | same)
    · rfl
    · rw [roundPlaces_eq, same, ← roundPlaces_eq]

end Doubles
