import TextToSqlAgent.Core.Numbers

/-!
# Arithmetic of floats

Sums and products are the doubles nearest to the exact ones, or infinite where
these are too large. Rounding keeps the order, so sums and products with the same
number do.
-/

namespace FloatArithmetic

open Python Doubles Numbers

/-- The float of an exact number. -/
def rounded (q : Rat) : PyFloat :=
  match toDouble q with
  | some x => .finite x
  | none => .inf (decide (q < 0))

/-- `x + y`. -/
def plus : PyFloat → PyFloat → PyFloat
  | .finite q, .finite r => rounded (q + r)
  | x, y => x.add y

def negated : PyFloat → PyFloat
  | .finite q => .finite (-q)
  | .inf negative => .inf !negative
  | .nan => .nan

/-- `x - y`. -/
def minus (x y : PyFloat) : PyFloat := plus x (negated y)

/-- `abs(x)`. -/
def absolute : PyFloat → PyFloat
  | .finite q => .finite |q|
  | .inf _ => .inf false
  | .nan => .nan

/-- `x * y`. -/
def times : PyFloat → PyFloat → PyFloat
  | .finite q, .finite r => rounded (q * r)
  | .finite q, .inf negative => if q = 0 then .nan else .inf (negative != decide (q < 0))
  | .inf negative, .finite q => if q = 0 then .nan else .inf (negative != decide (q < 0))
  | .inf negative, .inf other => .inf (negative != other)
  | _, _ => .nan

/-- `x <= y`. -/
def le : PyFloat → PyFloat → Bool
  | .finite q, .finite r => decide (q ≤ r)
  | .finite _, .inf negative => !negative
  | .inf negative, .finite _ => negative
  | .inf negative, .inf other => negative || !other
  | _, _ => false

/-- `x < y`. -/
def lt (x y : PyFloat) : Bool := y.gt x

/-- `min(x, y)`: the first unless the second is less. -/
def least (x y : PyFloat) : PyFloat := if lt y x then y else x

/-! ## Order -/

theorem lt_of_lt_of_le {q : Rat} {x y : PyFloat} (first : lt (.finite q) x = true)
    (second : le x y = true) : lt (.finite q) y = true := by
  cases x with
  | nan => cases first
  | finite r =>
    cases y with
    | nan => cases second
    | finite s =>
      have below : q < r := of_decide_eq_true first
      have above : r ≤ s := of_decide_eq_true second
      exact decide_eq_true (below.trans_le above)
    | inf negative => exact second
  | inf negative =>
    cases negative with
    | true => cases first
    | false =>
      cases y with
      | nan => cases second
      | finite s => cases second
      | inf other => exact second

/-- The numbers that rounding takes beyond all doubles. -/
theorem toDouble_eq_none_iff {q : Rat} : toDouble q = none ↔ 2 ^ 1024 ≤ |nearestDouble q| := by
  rw [← not_lt, Option.eq_none_iff_forall_ne_some]
  constructor
  · intro none small
    exact none _ (toDouble_eq_some_iff.mpr ⟨rfl, small⟩)
  · intro large x some
    obtain ⟨rfl, small⟩ := toDouble_eq_some_iff.mp some
    exact large small

theorem nearestDouble_nonpos {q : Rat} (nonpos : q ≤ 0) : nearestDouble q ≤ 0 :=
  (nearestDouble_mono nonpos).trans_eq nearestDouble_zero

theorem le_inf (x : PyFloat) (some : x ≠ .nan) : le x (.inf false) = true := by
  cases x with
  | nan => exact absurd rfl some
  | finite q => rfl
  | inf negative => exact Bool.or_true negative

theorem inf_le (x : PyFloat) (some : x ≠ .nan) : le (.inf true) x = true := by
  cases x with
  | nan => exact absurd rfl some
  | finite q => rfl
  | inf negative => rfl

theorem rounded_ne_nan (q : Rat) : rounded q ≠ .nan := by
  rw [rounded]
  split <;> exact PyFloat.noConfusion

theorem rounded_mono {q r : Rat} (order : q ≤ r) : le (rounded q) (rounded r) = true := by
  have mono := nearestDouble_mono order
  cases first : toDouble q with
  | none =>
    have large := toDouble_eq_none_iff.mp first
    by_cases negative : q < 0
    · have low : rounded q = .inf true := by rw [rounded, first, decide_eq_true negative]
      exact low ▸ inf_le _ (rounded_ne_nan r)
    · have above := nearestDouble_nonneg (not_lt.mp negative)
      rw [abs_of_nonneg above] at large
      have larger := large.trans (mono.trans (le_abs_self _))
      have high : rounded r = .inf false := by
        rw [rounded, toDouble_eq_none_iff.mpr larger]
        exact congrArg _ (decide_eq_false (by linarith))
      exact high ▸ le_inf _ (rounded_ne_nan q)
  | some x =>
    obtain ⟨rfl, small⟩ := toDouble_eq_some_iff.mp first
    cases second : toDouble r with
    | some y =>
      obtain ⟨rfl, -⟩ := toDouble_eq_some_iff.mp second
      rw [rounded, rounded, first, second]
      exact decide_eq_true mono
    | none =>
      have large := toDouble_eq_none_iff.mp second
      have positive : ¬r < 0 := by
        intro negative
        have nonpos := nearestDouble_nonpos negative.le
        rw [abs_of_nonpos nonpos] at large
        rw [abs_of_nonpos (mono.trans nonpos)] at small
        exact absurd (large.trans (neg_le_neg mono)) (not_le.mpr small)
      have high : rounded r = .inf false := by rw [rounded, second, decide_eq_false positive]
      exact high ▸ le_inf _ (rounded_ne_nan q)

theorem plus_mono {q : Rat} {x y : PyFloat} (order : le x y = true) :
    le (plus (.finite q) x) (plus (.finite q) y) = true := by
  cases x with
  | nan => cases order
  | finite r =>
    cases y with
    | nan => cases order
    | finite s =>
      have below : r ≤ s := of_decide_eq_true order
      exact rounded_mono (by linarith)
    | inf negative =>
      have high : negative = false := by simpa [le] using order
      exact high ▸ le_inf _ (rounded_ne_nan _)
  | inf negative =>
    cases y with
    | nan => cases order
    | finite s =>
      have low : negative = true := order
      exact low ▸ inf_le _ (rounded_ne_nan _)
    | inf other => exact order

theorem times_mono {q : Rat} (positive : 0 < q) {x y : PyFloat} (order : le x y = true) :
    le (times x (.finite q)) (times y (.finite q)) = true := by
  have scaled (negative : Bool) : times (.inf negative) (.finite q) = .inf negative := by
    rw [times, if_neg positive.ne', decide_eq_false (by linarith), Bool.bne_false]
  cases x with
  | nan => cases order
  | finite r =>
    cases y with
    | nan => cases order
    | finite s =>
      have below : r ≤ s := of_decide_eq_true order
      exact rounded_mono (mul_le_mul_of_nonneg_right below positive.le)
    | inf negative =>
      have high : negative = false := by simpa [le] using order
      rw [scaled, high]
      exact le_inf _ (rounded_ne_nan _)
  | inf negative =>
    cases y with
    | nan => cases order
    | finite s =>
      have low : negative = true := order
      rw [scaled, low]
      exact inf_le _ (rounded_ne_nan _)
    | inf other => rwa [scaled, scaled]

end FloatArithmetic
