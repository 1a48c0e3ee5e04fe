import TextToSqlAgent.Evals.ColumnOrder

/-!
# When a mismatch is said to be one of order

A comparison with order enforced searches the orders of the columns. Once it has
failed, the rows are compared again with order set aside, this time with the
columns where they are; above the width of the search they are not compared
again at all.
-/

namespace OrderDiagnosis

open Python Exceptions Canonical Arrangements Validator ColumnOrder
open Compare hiding compare

variable {p : Platform} {repr : Canon → String} {width : Nat}

/-! ## The verdict on columns -/

theorem diagnose_eq_orderMismatch_iff {ordered : Bool} {pred gold : List (List Canon)} :
    diagnose repr ordered pred gold = .orderMismatch ↔
      ordered = true ∧ rowsEqual false pred gold = true := by
  rw [← Bool.and_eq_true, diagnose]
  constructor
  · intro verdict
    by_contra differ
    rw [if_neg differ] at verdict
    dsimp only at verdict
    split at verdict <;> cases verdict
  · intro same
    rw [if_pos same]

/-- Where columns are searched, an unmatched comparison is diagnosed. -/
theorem verdict_of_narrow {ordered : Bool} {pred gold : List (List Canon)}
    (narrow : width ≤ maxColumnsForPermutation)
    (unmatched : (compareColumns repr ordered width pred gold).matched = false) :
    (compareColumns repr ordered width pred gold).verdict = diagnose repr ordered pred gold := by
  rw [compareColumns, if_neg (Nat.not_lt.mpr narrow)] at unmatched ⊢
  split at unmatched
  · cases unmatched
  · rename_i missed
    rw [if_neg missed]

/-- Where they are not, it never counts as one of order. -/
theorem verdict_of_wide {ordered : Bool} {pred gold : List (List Canon)}
    (wide : maxColumnsForPermutation < width) :
    (compareColumns repr ordered width pred gold).verdict ≠ .orderMismatch := by
  rw [compareColumns, if_pos wide]
  dsimp only
  split <;> decide

theorem matched_of_wide {ordered : Bool} {pred gold : List (List Canon)}
    (wide : maxColumnsForPermutation < width) :
    (compareColumns repr ordered width pred gold).matched = rowsEqual ordered pred gold := by
  rw [compareColumns, if_pos wide]

/-! ## The verdict on results -/

variable {predicted gold : List (List PyValue)} {goldSql : Option String} {order : Option Bool}

/-- Of a comparison that did not match, order is the reason given exactly when
the results match with order not enforced. -/
def DiagnosisExact (p : Platform) (repr : Canon → String) (predicted gold : List (List PyValue))
    (goldSql : Option String) (order : Option Bool) : Prop :=
  ∀ enforced free,
    Compare.compare p repr predicted gold goldSql order = .ok enforced →
    enforced.matched = false →
    Compare.compare p repr predicted gold goldSql (some false) = .ok free →
    (enforced.verdict = .orderMismatch ↔ free.matched = true)

/-- Where the diagnosis is right: within the width of the search, results that
some order of columns makes alike up to the order of rows are so already, or are
made alike by some order of columns; beyond it, results that are alike up to the
order of rows are alike. -/
def RowsTell (width : Nat) (pred gold : List (List Canon)) : Prop :=
  if width ≤ maxColumnsForPermutation then
    Aligned false width pred gold → Aligned true width pred gold ∨ pred.Perm gold
  else pred.Perm gold → pred = gold

theorem exact_columns_iff {pred gold : List (List Canon)} (rectPred : Rectangular width pred)
    (rectGold : Rectangular width gold)
    (distinguishes : Distinguishes repr (pred.flatten ++ gold.flatten))
    (sameLength : pred.length = gold.length) :
    ((compareColumns repr true width (columns width pred) (columns width gold)).matched = false →
      ((compareColumns repr true width (columns width pred) (columns width gold)).verdict =
          .orderMismatch ↔
        (compareColumns repr false width (columns width pred) (columns width gold)).matched =
          true)) ↔ RowsTell width pred gold := by
  have within : Within (pred.flatten ++ gold.flatten) pred :=
    fun _ hrow _ hc => List.mem_append_left _ (List.mem_flatten_of_mem hrow hc)
  unfold RowsTell
  split
  · rename_i narrow
    have matched : ∀ ordered, (compareColumns repr ordered width (columns width pred)
        (columns width gold)).matched = true ↔ Aligned ordered width pred gold := fun _ =>
      compareColumns_matched distinguishes narrow rectPred rectGold within sameLength
    have diagnosed : ¬ Aligned true width pred gold →
        ((compareColumns repr true width (columns width pred) (columns width gold)).verdict =
          .orderMismatch ↔ pred.Perm gold) := by
      intro differ
      have wide : 0 < width := by
        rcases Nat.eq_zero_or_pos width with rfl | wide
        · exact absurd (.of_sameRows rectPred
            (.of_eq (eq_of_no_columns rectPred rectGold sameLength))) differ
        · exact wide
      have unmatched := Bool.eq_false_iff.mpr (mt (matched true).mp differ)
      rw [verdict_of_narrow narrow unmatched, diagnose_eq_orderMismatch_iff,
        rowsEqual_columns wide rectPred rectGold]
      exact and_iff_right rfl
    rw [Bool.eq_false_iff, ne_eq, matched true, matched false]
    constructor
    · intro exact aligned
      by_cases same : Aligned true width pred gold
      · exact .inl same
      · exact .inr ((diagnosed same).mp ((exact same).mpr aligned))
    · intro tell differ
      rw [diagnosed differ]
      refine ⟨fun perm => ?_, fun aligned => (tell aligned).resolve_left differ⟩
      exact .of_sameRows rectPred perm
  · rename_i wide
    have wide : maxColumnsForPermutation < width := Nat.lt_of_not_le wide
    have positive : 0 < width := by omega
    rw [matched_of_wide wide, matched_of_wide wide, Bool.eq_false_iff, ne_eq,
      rowsEqual_columns positive rectPred rectGold, rowsEqual_columns positive rectPred rectGold,
      iff_false_left (verdict_of_wide wide)]
    exact ⟨fun tell perm => by_contra fun differ => tell differ perm,
      fun tell differ perm => differ (tell perm)⟩

/-- The diagnosis is exact when the results, once in canonical form, are told
apart by their rows. -/
theorem diagnosis_exact_iff (distinguishes : Distinguishes repr (cells predicted gold))
    (rectPred : Rectangular width predicted) (rectGold : Rectangular width gold)
    (sameLength : predicted.length = gold.length) (strict : enforced p goldSql order = true) :
    DiagnosisExact p repr predicted gold goldSql order ↔
      (HasForms predicted → HasForms gold → RowsTell width (forms predicted) (forms gold)) := by
  have formsLength : (forms predicted).length = (forms gold).length := by
    simpa [forms] using sameLength
  have columnwise := exact_columns_iff (rectangular_forms rectPred) (rectangular_forms rectGold)
    distinguishes formsLength
  by_cases empty : gold = []
  · -- no rows on either side always match
    subst empty
    obtain rfl := List.eq_nil_of_length_eq_zero sameLength
    have alike : RowsTell width (forms []) (forms []) := by
      unfold RowsTell
      split
      · exact fun _ => .inr (.refl _)
      · exact fun _ => rfl
    refine ⟨fun _ _ _ => alike, fun _ r s found unmatched _ => ?_⟩
    simp only [Compare.compare] at found
    obtain rfl := Except.ok.inj found
    cases unmatched
  · rw [← forall₂_congr fun _ _ => columnwise]
    simp only [DiagnosisExact, compare_eq_ok rectPred rectGold sameLength empty, strict]
    constructor
    · intro exact hasPred hasGold unmatched
      exact exact _ _ ⟨hasPred, hasGold, rfl⟩ unmatched ⟨hasPred, hasGold, rfl⟩
    · rintro exact r s ⟨hasPred, hasGold, rfl⟩ unmatched ⟨-, -, rfl⟩
      exact exact hasPred hasGold unmatched

private def noParser : Platform where
  casefold text := text
  closeMatch _ _ := none
  parse _ := .error ""
  sql _ := ""
  str _ := ""
  float _ := none

private def texts : Canon → String
  | .str s => s
  | _ => ""

private def oneColumn (names : List String) : List (List PyValue) :=
  names.map fun name => [.str name]

/-- One column the other way up. -/
theorem diagnosis_exact_iff_reversed : DiagnosisExact noParser texts (oneColumn ["Ada", "Bob"])
    (oneColumn ["Bob", "Ada"]) none (some true) := by
  have distinct : Distinguishes texts
      (cells (oneColumn ["Ada", "Bob"]) (oneColumn ["Bob", "Ada"])) := by decide
  have rectFound : Rectangular 1 (oneColumn ["Ada", "Bob"]) := by decide
  have rectWanted : Rectangular 1 (oneColumn ["Bob", "Ada"]) := by decide
  refine (diagnosis_exact_iff distinct rectFound rectWanted rfl rfl).mpr ?_
  intro _ _ _
  exact .inr (by decide)

private def people : List (List PyValue) :=
  [[.str "Ada", .str "Oslo"], [.str "Bob", .str "Bern"]]

private def places : List (List PyValue) :=
  [[.str "Bern", .str "Bob"], [.str "Oslo", .str "Ada"]]

private def nineColumns (names : List String) : List (List PyValue) :=
  names.map fun name => .str name :: List.replicate 8 .none

/-- The rows the other way up, in columns that are swapped, and in nine columns. -/
theorem diagnosis_not_exact :
    ¬ DiagnosisExact noParser texts people places none (some true) ∧
    ¬ DiagnosisExact noParser texts (nineColumns ["Ada", "Bob"]) (nineColumns ["Bob", "Ada"]) none
      (some true) := by
  constructor
  · intro exact
    have swapped := (exact
      { verdict := .valueMismatch
        matched := false
        detail := "no assignment of predicted columns to gold columns matches"
        orderEnforced := true }
      { verdict := .matched, matched := true } (by decide +kernel) rfl (by decide +kernel)).mpr rfl
    cases swapped
  · intro exact
    have positional := (exact
      { verdict := .valueMismatch
        matched := false
        detail := "no positional match across 9 columns"
        orderEnforced := true
        positionalFallback := true }
      { verdict := .matched, matched := true, positionalFallback := true }
      (by decide +kernel) rfl (by decide +kernel)).mpr rfl
    cases positional

end OrderDiagnosis
