import TextToSqlAgent.Core.Doubles
import TextToSqlAgent.Evals.Canonical

/-!
# Which values share a canonical form

Numbers pass through floats on their way to a canonical form, and a float that
is no number becomes its own name. So a text may meet a number, and two numbers
far apart may meet in one double.
-/

namespace Conflation

open Python Exceptions Canonical Doubles

/-- From the evaluation's rules: numbers this near count as equal. -/
def floatTolerance : Rat := nearestDouble (1 / 10 ^ 6)

/-! ## What values are -/

def IsScalar : PyValue → Prop
  | .sequence _ | .dict _ => False
  | _ => True

/-- A float holds a double. -/
def Held : PyValue → Prop
  | .float (.finite x) => IsDouble x
  | _ => True

/-- The exact value of a number; a truth value is none. -/
def number? : PyValue → Option PyFloat
  | .int n => some (.finite n)
  | .float x | .decimal x => some x
  | _ => none

def text? : PyValue → Option String
  | .str s | .temporal s => some s
  | _ => none

/-- Within the tolerance, or the same infinity, or no number both. -/
def Near : PyFloat → PyFloat → Prop
  | .finite x, .finite y => |x - y| ≤ floatTolerance
  | x, y => x = y

/-- Both numbers and near, or neither a number and `NULL` only with `NULL`. -/
def Agree (a b : PyValue) : Prop :=
  match number? a, number? b with
  | some x, some y => Near x y
  | none, none => a = .none ↔ b = .none
  | _, _ => False

/-- One canonical form is shared only by values that agree. -/
def NotConflated (a b : PyValue) : Prop :=
  ∀ c, canonical a = .ok c → canonical b = .ok c → Agree a b

/-! ## What numbers become -/

/-- The name of a number that has no finite double: an infinity, NaN, or a
`Decimal` that rounds to `2 ^ 1024` or more. -/
def nameOf : PyValue → Option String
  | .float (.inf negative) | .decimal (.inf negative) => some (reprSpecial negative)
  | .float .nan | .decimal .nan => some "nan"
  | .decimal (.finite q) => if toDouble q = none then some (reprSpecial (q < 0)) else none
  | _ => none

/-- The double nearest to a number. -/
def doubleOf : PyValue → Option Rat
  | .int n => toDouble n
  | .float (.finite x) => some x
  | .decimal (.finite q) => toDouble q
  | _ => none

theorem isDouble_of_toDouble {q x : Rat} (finite : toDouble q = some x) : IsDouble x := by
  simp only [toDouble, Option.ite_none_right_eq_some, Option.some.injEq] at finite
  rw [← finite.2]
  exact isDouble_nearestDouble q

theorem isDouble_doubleOf {a : PyValue} (held : Held a) {x : Rat} (finite : doubleOf a = some x) :
    IsDouble x := by
  cases a with
  | int n => exact isDouble_of_toDouble finite
  | float y =>
    cases y with
    | finite y =>
      obtain rfl := Option.some.inj finite
      exact held
    | inf _ => cases finite
    | nan => cases finite
  | decimal q =>
    cases q with
    | finite q => exact isDouble_of_toDouble finite
    | inf _ => cases finite
    | nan => cases finite
  | _ => cases finite

theorem canonical_of_nameOf {a : PyValue} {s : String} (named : nameOf a = some s) :
    canonical a = .ok (.str s) := by
  cases a with
  | float x =>
    cases x with
    | finite x => cases named
    | inf negative => obtain rfl := Option.some.inj named; rfl
    | nan => obtain rfl := Option.some.inj named; rfl
  | decimal x =>
    cases x with
    | finite q =>
      simp only [nameOf, Option.ite_none_right_eq_some, Option.some.injEq] at named
      obtain ⟨beyond, rfl⟩ := named
      simp [canonical, canonicalDecimal, beyond, canonicalFloat]
    | inf negative => obtain rfl := Option.some.inj named; rfl
    | nan => obtain rfl := Option.some.inj named; rfl
  | _ => cases named

theorem canonical_of_doubleOf {a : PyValue} {x : Rat} (finite : doubleOf a = some x) :
    canonical a = .ok (.number (roundPlaces floatPlaces x)) := by
  cases a with
  | int n =>
    rw [doubleOf] at finite
    simp [canonical, canonicalInt, finite, canonicalFloat]
  | float y =>
    cases y with
    | finite y => obtain rfl := Option.some.inj finite; rfl
    | inf _ => cases finite
    | nan => cases finite
  | decimal q =>
    cases q with
    | finite q =>
      rw [doubleOf] at finite
      simp [canonical, canonicalDecimal, finite, canonicalFloat]
    | inf _ => cases finite
    | nan => cases finite
  | _ => cases finite

theorem canonical_of_text {a : PyValue} {s : String} (text : text? a = some s) :
    canonical a = .ok (.str s) := by
  cases a with
  | str t => obtain rfl := Option.some.inj text; rfl
  | temporal t => obtain rfl := Option.some.inj text; rfl
  | _ => cases text

/-- A number with a canonical form has a name or a double. -/
theorem nameOf_or_doubleOf {a : PyValue} {x : PyFloat} {c : Canon} (number : number? a = some x)
    (found : canonical a = .ok c) : (∃ s, nameOf a = some s) ∨ ∃ q, doubleOf a = some q := by
  cases a with
  | int n =>
    right
    cases finite : toDouble n with
    | none => simp [canonical, canonicalInt, finite] at found
    | some q => exact ⟨q, finite⟩
  | float y => cases y <;> simp [nameOf, doubleOf]
  | decimal y =>
    cases y with
    | finite q => cases finite : toDouble q <;> simp [nameOf, doubleOf, finite]
    | inf _ => simp [nameOf]
    | nan => simp [nameOf]
  | _ => cases number

/-- What is no number becomes none, and a text only from a text. -/
theorem form_of_not_number {a : PyValue} {c : Canon} (scalar : IsScalar a)
    (other : number? a = none) (found : canonical a = .ok c) :
    (∀ q, c ≠ .number q) ∧ (∀ s, c = .str s → text? a = some s) ∧ (c = .none ↔ a = .none) := by
  cases a with
  | int _ | float _ | decimal _ => cases other
  | sequence _ | dict _ => exact scalar.elim
  | none | bool _ | temporal _ | bytes _ | str _ | object _ =>
    simp only [canonical, Except.ok.injEq] at found
    subst found
    simp [text?]

/-! ## When values are told apart -/

/-- Near, as far as both are numbers. -/
def NearNumbers (a b : PyValue) : Prop :=
  ∀ x y, number? a = some x → number? b = some y → Near x y

/-- No text spells the other's name, numbers of one name are near, and so are
those with one nearest double or one nearest decimal of their doubles. -/
structure Separate (a b : PyValue) : Prop where
  spelled : ∀ s, nameOf a = some s → text? b ≠ some s
  spells : ∀ s, nameOf b = some s → text? a ≠ some s
  named : ∀ s, nameOf a = some s → nameOf b = some s → NearNumbers a b
  rounded : ∀ q r, doubleOf a = some q → doubleOf b = some r →
    q = r ∨ decimalOf floatPlaces q = decimalOf floatPlaces r → NearNumbers a b

theorem number_of_nameOf {a : PyValue} {s : String} (named : nameOf a = some s) :
    ∃ x, number? a = some x := by
  cases a with
  | float x | decimal x => exact ⟨x, rfl⟩
  | _ => cases named

theorem number_of_text {a : PyValue} {s : String} (text : text? a = some s) :
    number? a = none := by
  cases a with
  | str _ | temporal _ => rfl
  | _ => cases text

theorem not_agree {a b : PyValue} {x : PyFloat} (number : number? a = some x)
    (other : number? b = none) : ¬ Agree a b ∧ ¬ Agree b a := by
  simp [Agree, number, other]

theorem Agree.nearNumbers {a b : PyValue} (agree : Agree a b) : NearNumbers a b := by
  intro x y one other
  simpa [Agree, one, other] using agree

/-- A number meets what is none only by its name. -/
theorem spelled_of_shared {a b : PyValue} {x : PyFloat} {c : Canon} (scalar : IsScalar b)
    (number : number? a = some x) (other : number? b = none)
    (one : canonical a = .ok c) (two : canonical b = .ok c) :
    ∃ s, nameOf a = some s ∧ text? b = some s := by
  obtain ⟨noNumber, texts, -⟩ := form_of_not_number scalar other two
  rcases nameOf_or_doubleOf number one with ⟨s, named⟩ | ⟨q, finite⟩
  · have form := canonical_of_nameOf named
    rw [one] at form
    exact ⟨s, named, texts s (Except.ok.inj form)⟩
  · have form := canonical_of_doubleOf finite
    rw [one] at form
    exact absurd (Except.ok.inj form) (noNumber _)

/-- Two numbers that share a form and are told apart are near. -/
theorem near_of_shared {a b : PyValue} {x y : PyFloat} {c : Canon} (heldA : Held a)
    (heldB : Held b) (separate : Separate a b) (numberA : number? a = some x)
    (numberB : number? b = some y) (one : canonical a = .ok c) (two : canonical b = .ok c) :
    Near x y := by
  rcases nameOf_or_doubleOf numberA one with ⟨s, nameA⟩ | ⟨q, doubleA⟩ <;>
    rcases nameOf_or_doubleOf numberB two with ⟨t, nameB⟩ | ⟨r, doubleB⟩
  · have same := (canonical_of_nameOf nameA).symm.trans (one.trans (two.symm.trans
      (canonical_of_nameOf nameB)))
    obtain rfl : s = t := by simpa using same
    exact separate.named s nameA nameB x y numberA numberB
  · have same := (canonical_of_nameOf nameA).symm.trans (one.trans (two.symm.trans
      (canonical_of_doubleOf doubleB)))
    simp at same
  · have same := (canonical_of_doubleOf doubleA).symm.trans (one.trans (two.symm.trans
      (canonical_of_nameOf nameB)))
    simp at same
  · have same := (canonical_of_doubleOf doubleA).symm.trans (one.trans (two.symm.trans
      (canonical_of_doubleOf doubleB)))
    have rounded : roundPlaces floatPlaces q = roundPlaces floatPlaces r := by simpa using same
    have met := (roundPlaces_eq_iff (isDouble_doubleOf heldA doubleA)
      (isDouble_doubleOf heldB doubleB) (by decide)).mp rounded
    exact separate.rounded q r doubleA doubleB met x y numberA numberB

/-- Two scalars are not conflated exactly when no text spells the name of a
number without a double, and numbers of one name, of one nearest double or of
one nearest decimal are within the tolerance. -/
theorem not_conflated_iff {a b : PyValue} (scalarA : IsScalar a) (scalarB : IsScalar b)
    (heldA : Held a) (heldB : Held b) : NotConflated a b ↔ Separate a b := by
  constructor
  · intro distinct
    constructor
    · intro s named text
      obtain ⟨x, number⟩ := number_of_nameOf named
      exact (not_agree number (number_of_text text)).1
        (distinct _ (canonical_of_nameOf named) (canonical_of_text text))
    · intro s named text
      obtain ⟨x, number⟩ := number_of_nameOf named
      exact (not_agree number (number_of_text text)).2
        (distinct _ (canonical_of_text text) (canonical_of_nameOf named))
    · intro s nameA nameB
      exact (distinct _ (canonical_of_nameOf nameA) (canonical_of_nameOf nameB)).nearNumbers
    · intro q r doubleA doubleB met
      have same : roundPlaces floatPlaces q = roundPlaces floatPlaces r :=
        (roundPlaces_eq_iff (isDouble_doubleOf heldA doubleA) (isDouble_doubleOf heldB doubleB)
          (by decide)).mpr met
      refine (distinct _ (canonical_of_doubleOf doubleA) ?_).nearNumbers
      rw [same]
      exact canonical_of_doubleOf doubleB
  · intro separate c one two
    cases numberA : number? a with
    | some x =>
      cases numberB : number? b with
      | some y =>
        have near := near_of_shared heldA heldB separate numberA numberB one two
        simpa [Agree, numberA, numberB] using near
      | none =>
        obtain ⟨s, named, text⟩ := spelled_of_shared scalarB numberA numberB one two
        exact absurd text (separate.spelled s named)
    | none =>
      cases numberB : number? b with
      | some y =>
        obtain ⟨s, named, text⟩ := spelled_of_shared scalarA numberB numberA two one
        exact absurd text (separate.spells s named)
      | none =>
        have nullA := (form_of_not_number scalarA numberA one).2.2
        have nullB := (form_of_not_number scalarB numberB two).2.2
        simp only [Agree, numberA, numberB]
        rw [← nullA, nullB]

/-- A `Decimal` and the integer it counts. -/
theorem not_conflated_iff_one : NotConflated (.decimal (.finite 1)) (.int 1) := by
  refine (not_conflated_iff (a := .decimal (.finite 1)) (b := .int 1)
    trivial trivial trivial trivial).mpr ⟨?_, ?_, ?_, ?_⟩
  · intro s _ text
    cases text
  · intro s named
    cases named
  · intro s _ named
    cases named
  · intro q r _ _ _ x y one other
    obtain rfl := Option.some.inj one
    obtain rfl := Option.some.inj other
    simp only [Near]
    decide +kernel

/-- NaN is the text `nan`; an infinity is every `Decimal` beyond the doubles;
two integers are one double. -/
theorem values_conflated : ¬ NotConflated (.float .nan) (.str "nan") ∧
    ¬ NotConflated (.float (.inf false)) (.decimal (.finite (10 ^ 400))) ∧
    ¬ NotConflated (.int (2 ^ 53)) (.int (2 ^ 53 + 1)) := by
  refine ⟨fun distinct => ?_, fun distinct => ?_, fun distinct => ?_⟩
  · exact distinct (.str "nan") rfl rfl
  · have agree := distinct (.str "inf") rfl (by decide +kernel)
    exact absurd agree (by simp [Agree, number?, Near])
  · have agree := distinct (.number (2 ^ 53)) (by decide +kernel) (by decide +kernel)
    simp only [Agree, number?, Near] at agree
    exact absurd agree (by decide +kernel)

end Conflation
