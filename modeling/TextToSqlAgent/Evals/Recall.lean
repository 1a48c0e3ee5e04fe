import Mathlib.Data.Finset.Card
import TextToSqlAgent.Core.Python
import TextToSqlAgent.Validation.Catalog

/-!
# Recall at k

Did retrieval surface the schema elements that the reference query names?
-/

namespace Recall

open Python Catalog

def defaultKValues : List Nat := [1, 5, 10, 20]

/-- The schema elements a reference query names; `unresolved` could not be
attributed to a table. -/
structure GoldElements where
  tables : Finset String := ∅
  columns : Finset (String × String) := ∅
  unresolved : Finset String := ∅
  parseFailed : Bool := false

/-- Whether it can contribute to a recall number at all. -/
def GoldElements.isUsable (gold : GoldElements) : Bool :=
  !gold.parseFailed && (gold.columns.Nonempty || gold.tables.Nonempty)

/-- Recall at each k, plus what it was computed over. -/
structure RecallResult where
  atK : List (Nat × Rat) := []
  goldSize : Nat := 0
  unresolvedCount : Nat := 0
  skipped : Bool := false
  deriving DecidableEq, Repr

/-- What recall is measured against: columns, and tables as elements of their own. -/
def GoldElements.targets (gold : GoldElements) : Finset (String × Option String) :=
  gold.columns.image (fun c => (c.1, some c.2)) ∪ gold.tables.image fun table => (table, none)

/-- Whether the top of the ranking credits a target. -/
def credited (names : Names) (window : List (String × Option String)) :
    String × Option String → Bool
  | (table, none) => seenTable table
  | (table, some column) =>
    (window.any fun r => match r.2 with
      | some c => (names.casefold r.1, names.casefold c) = (table, column)
      | none => false) || seenTable table
where
  seenTable (table : String) : Bool := window.any fun r => names.casefold r.1 = table

/-- Fraction of the gold elements present in the retriever's top k. -/
def computeRecall (names : Names) (gold : GoldElements) (retrieved : List (String × Option String))
    (kValues : List Nat := defaultKValues) : RecallResult :=
  if !gold.isUsable then { skipped := true, unresolvedCount := gold.unresolved.card }
  else
    let targets := gold.targets
    let atK := kValues.map fun k =>
      let found := (targets.filter fun t => credited names (retrieved.take k) t).card
      (k, if targets.card = 0 then 0 else roundPlaces 4 (nearestDouble (found / targets.card)))
    { atK := atK, goldSize := targets.card, unresolvedCount := gold.unresolved.card }

variable {names : Names} {gold : GoldElements} {retrieved : List (String × Option String)}

/-- No recall is below zero. -/
theorem nonneg_of_mem_atK {kValues : List Nat} {value : Nat × Rat}
    (listed : value ∈ (computeRecall names gold retrieved kValues).atK) : 0 ≤ value.2 := by
  by_cases usable : gold.isUsable = true
  · simp only [computeRecall, usable, Bool.not_true, Bool.false_eq_true, if_false] at listed
    obtain ⟨k, -, rfl⟩ := List.mem_map.mp listed
    dsimp only
    split_ifs
    · exact le_rfl
    · exact roundPlaces_nonneg 4 (nearestDouble_nonneg (by positivity))
  · simp [computeRecall, usable] at listed

/-- Where nothing was retrieved nothing is credited. -/
theorem zero_of_mem_atK {kValues : List Nat} {value : Nat × Rat}
    (listed : value ∈ (computeRecall names gold [] kValues).atK) : value.2 = 0 := by
  by_cases usable : gold.isUsable = true
  · simp only [computeRecall, usable, Bool.not_true, Bool.false_eq_true, if_false] at listed
    obtain ⟨k, -, rfl⟩ := List.mem_map.mp listed
    have nothing : gold.targets.filter (fun t => credited names [] t = true) = ∅ := by
      refine Finset.filter_eq_empty_iff.mpr fun target _ => ?_
      rcases target with ⟨table, - | column⟩ <;> simp [credited, credited.seenTable]
    simp [nothing, nearestDouble_zero, roundPlaces_zero]
  · simp [computeRecall, usable] at listed

/-- The cut-offs of what is measured are those asked for. -/
theorem map_fst_atK (kValues : List Nat) :
    (computeRecall names gold retrieved kValues).atK.map Prod.fst =
      if gold.isUsable = true then kValues else [] := by
  by_cases usable : gold.isUsable = true
  · simp [computeRecall, usable, Function.comp_def]
  · simp [computeRecall, usable]

/-! ## Credit -/

/-- The targets that the top of a ranking is credited with. -/
def found (names : Names) (gold : GoldElements) (window : List (String × Option String)) :
    Finset (String × Option String) :=
  gold.targets.filter fun t => credited names window t = true

/-- Some pair is of the table. -/
def Named (names : Names) (window : List (String × Option String)) (table : String) : Prop :=
  ∃ r ∈ window, names.casefold r.1 = table

/-- What earns a target its credit: a table any pair of it, a column itself or
its table as an element of its own. -/
def Earned (names : Names) (window : List (String × Option String)) :
    String × Option String → Prop
  | (table, none) => Named names window table
  | (table, some column) => ∃ r ∈ window, names.casefold r.1 = table ∧
      (r.2 = none ∨ r.2.map names.casefold = some column)

/-- Credit is given where it is earned, and nowhere else. -/
def CreditExact (names : Names) (gold : GoldElements)
    (window : List (String × Option String)) : Prop :=
  ∀ target ∈ gold.targets, target ∈ found names gold window ↔ Earned names window target

variable {window : List (String × Option String)}

theorem mem_found {target : String × Option String} (listed : target ∈ gold.targets) :
    target ∈ found names gold window ↔ credited names window target = true := by
  simp [found, listed]

theorem seenTable_iff {table : String} :
    credited.seenTable names window table = true ↔ Named names window table := by
  simp [credited.seenTable, Named]

/-- A column is credited for itself, or for any pair of its table. -/
theorem credited_column_iff {table column : String} :
    credited names window (table, some column) = true ↔
      Earned names window (table, some column) ∨ Named names window table := by
  rw [credited, Bool.or_eq_true, seenTable_iff, List.any_eq_true]
  constructor
  · rintro (⟨⟨t, c⟩, listed, same⟩ | seen)
    · cases c with
      | none => cases same
      | some c =>
        obtain ⟨rfl, rfl⟩ := Prod.mk.inj (of_decide_eq_true same)
        exact .inl ⟨_, listed, rfl, .inr rfl⟩
    · exact .inr seen
  · rintro (⟨r, listed, table, -⟩ | seen)
    · exact .inr ⟨r, listed, table⟩
    · exact .inr seen

theorem Earned.named {table column : String} (earned : Earned names window (table, some column)) :
    Named names window table := by
  obtain ⟨r, listed, same, -⟩ := earned
  exact ⟨r, listed, same⟩

/-- A usable set of elements is measured: each recall is the share of the
targets found. -/
theorem atK_of_usable (usable : gold.isUsable = true) (kValues : List Nat) :
    (computeRecall names gold retrieved kValues).atK = kValues.map fun k =>
      (k, roundPlaces 4 (nearestDouble
        ((found names gold (retrieved.take k)).card / gold.targets.card))) := by
  have some : gold.targets.card ≠ 0 := by
    rw [Finset.card_ne_zero]
    simp only [GoldElements.isUsable, Bool.and_eq_true, Bool.or_eq_true, decide_eq_true_eq]
      at usable
    rcases usable.2 with ⟨column, listed⟩ | ⟨table, listed⟩
    · exact ⟨_, Finset.mem_union_left _ (Finset.mem_image_of_mem _ listed)⟩
    · exact ⟨_, Finset.mem_union_right _ (Finset.mem_image_of_mem _ listed)⟩
  simp [computeRecall, usable, some, found]

/-- Recall at `k` credits exactly what the first `k` pairs earn when no gold
column's table is among them only by other columns. -/
theorem credit_exact_iff (usable : gold.isUsable = true) (kValues : List Nat) :
    (computeRecall names gold retrieved kValues).atK = (kValues.map fun k =>
      (k, roundPlaces 4 (nearestDouble
        ((found names gold (retrieved.take k)).card / gold.targets.card)))) ∧
    ∀ k, CreditExact names gold (retrieved.take k) ↔
      ∀ c ∈ gold.columns, ∀ r ∈ retrieved.take k, names.casefold r.1 = c.1 →
        ∃ s ∈ retrieved.take k, names.casefold s.1 = c.1 ∧
          (s.2 = none ∨ s.2.map names.casefold = some c.2) := by
  refine ⟨atK_of_usable usable kValues, fun k => ⟨?_, ?_⟩⟩
  · rintro exact ⟨table, column⟩ listed r inWindow same
    have target : (table, some column) ∈ gold.targets :=
      Finset.mem_union_left _ (Finset.mem_image_of_mem _ listed)
    refine (exact _ target).mp ((mem_found target).mpr (credited_column_iff.mpr (.inr ?_)))
    exact ⟨r, inWindow, same⟩
  · rintro only ⟨table, column⟩ target
    rw [mem_found target]
    cases column with
    | none => exact seenTable_iff
    | some column =>
      rw [credited_column_iff]
      refine ⟨?_, .inl⟩
      rintro (earned | ⟨r, inWindow, same⟩)
      · exact earned
      · have listed : (table, column) ∈ gold.columns := by
          simpa [GoldElements.targets] using target
        exact only _ listed r inWindow same

private def ascii : Names := ⟨fun s => String.ofList (s.toList.map Char.toLower), fun _ _ => none⟩

private def orderTotals : GoldElements := { tables := {"orders"}, columns := {("orders", "total")} }

/-- A column is not found, and then its table. -/
theorem credit_exact_iff_orders :
    CreditExact ascii orderTotals ([("Orders", none), ("Orders", some "id")].take 1) := by
  refine ((credit_exact_iff (by decide) []).2 1).mpr ?_
  decide

/-- Another column of the table is found, and recall is said to be whole. -/
theorem other_column_credits : ¬ CreditExact ascii orderTotals [("orders", some "id")] ∧
    (computeRecall ascii orderTotals [("orders", some "id")] [1]).atK = [(1, 1)] := by
  have target : (("orders", some "total") : String × Option String) ∈ orderTotals.targets := by
    decide
  constructor
  · intro exact
    have earned := (exact _ target).mp (by decide +kernel)
    obtain ⟨r, listed, -, same⟩ := earned
    simp only [List.mem_singleton] at listed
    subst listed
    revert same
    decide
  · decide +kernel

end Recall
