import TextToSqlAgent.Library.Fallible
import TextToSqlAgent.Evals.Comparison

/-!
# Comparison is exact up to column order

The search for a column bijection is pruned by what columns hold, and no
bijection is lost by it: two results of one width match exactly when some order
of the predicted columns gives the gold rows.
-/

namespace ColumnOrder

open Python Exceptions Canonical Arrangements Validator Fallible
open Compare hiding compare

/-! ## Canonical columns -/

/-- Every cell has a canonical form: no integer is beyond the doubles. -/
def HasForms (rows : List (List PyValue)) : Prop :=
  ∀ row ∈ rows, ∀ v ∈ row, ∃ c, canonical v = .ok c

/-- The canonical form, where there is one. -/
def form (v : PyValue) : Canon :=
  match canonical v with
  | .ok c => c
  | .error _ => default

def forms (rows : List (List PyValue)) : List (List Canon) := rows.map fun row => row.map form

theorem canonical_form {v : PyValue} (h : ∃ c, canonical v = .ok c) :
    canonical v = .ok (form v) := by
  obtain ⟨c, found⟩ := h
  rw [form, found]

variable {width : Nat} {rows : List (List PyValue)}

theorem rectangular_forms (rect : Rectangular width rows) : Rectangular width (forms rows) := by
  intro row hrow
  obtain ⟨source, present, rfl⟩ := List.mem_map.mp hrow
  rw [List.length_map, rect source present]

theorem columnsOf_forms (rect : Rectangular width rows) (has : HasForms rows) :
    columnsOf rows width = .ok (columns width (forms rows)) := by
  have each : ∀ i ∈ List.range width,
      (rows.mapM fun row => canonical (row.getD i default)) = .ok (column (forms rows) i) := by
    intro i hi
    have cell : ∀ row ∈ rows, canonical (row.getD i default) =
        .ok ((row.map form).getD i default) := by
      intro row hrow
      have bound : i < row.length := rect row hrow ▸ List.mem_range.mp hi
      simp only [List.getD_eq_getElem?_getD, List.getElem?_map, List.getElem?_eq_getElem bound,
        Option.map_some, Option.getD_some]
      exact canonical_form (has row hrow _ (List.getElem_mem bound))
    rw [mapM_ok cell, column, forms, List.map_map]
    rfl
  exact mapM_ok each

theorem hasForms_of_columnsOf (rect : Rectangular width rows) {cols : List (List Canon)}
    (found : columnsOf rows width = .ok cols) : HasForms rows := by
  intro row hrow v hv
  obtain ⟨i, bound, rfl⟩ := List.getElem_of_mem hv
  have inside : i ∈ List.range width := List.mem_range.mpr (rect row hrow ▸ bound)
  obtain ⟨col, atColumn⟩ := ok_of_mapM found i inside
  have cell := ok_of_mapM atColumn row hrow
  rwa [List.getD_eq_getElem?_getD, List.getElem?_eq_getElem bound] at cell

/-- Arranging columns arranges their canonical forms. -/
theorem forms_arrange (rect : Rectangular width rows) {order : List Nat}
    (isOrder : IsOrder width order) :
    forms (rows.map (arrange order)) = (forms rows).map (arrange order) := by
  simp only [forms, List.map_map]
  apply List.map_congr_left
  intro row hrow
  exact map_arrange form fun i hi => rect row hrow ▸ isOrder.lt hi

theorem hasForms_arrange (rect : Rectangular width rows) {order : List Nat}
    (isOrder : IsOrder width order) : HasForms (rows.map (arrange order)) ↔ HasForms rows := by
  simp only [HasForms, List.forall_mem_map]
  refine forall₂_congr fun row hrow => ?_
  have same := arrange_perm (rect row hrow ▸ isOrder : IsOrder row.length order)
  simp only [same.mem_iff]

/-! ## Signatures -/

variable {repr : Canon → String} {ordered : Bool} {values : List Canon}

/-- The text of a value tells the given values apart. -/
def Distinguishes (repr : Canon → String) (values : List Canon) : Prop :=
  ∀ x ∈ values, ∀ y ∈ values, repr x = repr y → x = y

instance : Decidable (Distinguishes repr values) :=
  inferInstanceAs (Decidable (∀ x ∈ values, ∀ y ∈ values, repr x = repr y → x = y))

/-- What a signature must not tell apart: columns with the same values, in the
same order where order is enforced. -/
def Respects {σ : Type} (values : List Canon) (ordered : Bool)
    (signature : List Canon → σ) : Prop :=
  ∀ c d, c ⊆ values → SameRows ordered c d → signature c = signature d

theorem respects_signatureOrdered : Respects values true signatureOrdered :=
  fun _ _ _ same => same

theorem respects_signatureUnordered (distinguishes : Distinguishes repr values) :
    Respects values false (signatureUnordered repr) := by
  intro c d known same
  refine Counting.sortBy_eq_of_perm _ ?_ (Counting.items_perm same)
  intro x hx y hy keys
  obtain ⟨inX, countX⟩ := Counting.mem_items.mp hx
  obtain ⟨inY, countY⟩ := Counting.mem_items.mp hy
  have value := distinguishes _ (known inX) _ (known inY) keys
  rw [value, ← countY] at countX
  exact Prod.ext value countX

/-- Every cell is one of the values. -/
def Within (values : List Canon) (rows : List (List Canon)) : Prop := ∀ row ∈ rows, row ⊆ values

theorem column_subset {rows : List (List Canon)} (rect : Rectangular width rows)
    (within : Within values rows) {i : Nat} (bound : i < width) : column rows i ⊆ values := by
  intro c hc
  obtain ⟨row, hrow, rfl⟩ := List.mem_map.mp hc
  have inside : i < row.length := rect row hrow ▸ bound
  rw [List.getD_eq_getElem?_getD, List.getElem?_eq_getElem inside]
  exact within row hrow (List.getElem_mem inside)

theorem within_arrange {rows : List (List Canon)} (rect : Rectangular width rows)
    (within : Within values rows) {order : List Nat} (isOrder : IsOrder width order) :
    Within values (rows.map (arrange order)) := by
  intro row hrow
  obtain ⟨source, present, rfl⟩ := List.mem_map.mp hrow
  have same := arrange_perm (rect source present ▸ isOrder : IsOrder source.length order)
  exact List.Subset.trans same.subset (within source present)

/-! ## The search -/

variable {pred gold : List (List Canon)}

theorem rowsEqual_columns (wide : 0 < width) (rectPred : Rectangular width pred)
    (rectGold : Rectangular width gold) :
    rowsEqual ordered (columns width pred) (columns width gold) = true ↔
      SameRows ordered pred gold := by
  simp only [rowsEqual, zip_columns wide rectPred, zip_columns wide rectGold]
  cases ordered with
  | false => exact List.isPerm_iff
  | true => exact decide_eq_true_iff

/-- Rows without columns are alike. -/
theorem eq_of_no_columns (rectPred : Rectangular 0 pred) (rectGold : Rectangular 0 gold)
    (sameLength : pred.length = gold.length) : pred = gold := by
  have all : ∀ {l : List (List Canon)}, Rectangular 0 l → l = List.replicate l.length [] :=
    fun rect => List.eq_replicate_iff.mpr ⟨rfl, fun row hrow =>
      List.eq_nil_of_length_eq_zero (rect row hrow)⟩
  rw [all rectPred, all rectGold, sameLength]

/-- A bijection that gives the gold rows puts every column where its signature
is wanted, so the pruned search still tries it. -/
theorem arrange_mem_orderingsBy {σ : Type} [DecidableEq σ] {signature : List Canon → σ}
    (respects : Respects values ordered signature) (rectPred : Rectangular width pred)
    (within : Within values pred) {order : List Nat} (isOrder : IsOrder width order)
    (same : SameRows ordered (pred.map (arrange order)) gold) :
    arrange order (columns width pred) ∈
      orderingsBy signature (columns width pred) (columns width gold) := by
  have size : (columns width pred).length = width := by simp [columns]
  have wanted : (arrange order (columns width pred)).map signature =
      (columns width gold).map signature := by
    rw [arrange_columns isOrder, columns, columns, List.map_map, List.map_map]
    apply List.map_congr_left
    intro i hi
    have known := column_subset (rectangular_arrange isOrder pred)
      (within_arrange rectPred within isOrder) (List.mem_range.mp hi)
    exact respects _ _ known (same.map fun row => row.getD i default)
  have counted : ((columns width gold).map signature).isPerm
      ((columns width pred).map signature) = true := by
    rw [List.isPerm_iff, ← wanted]
    exact (arrange_perm (size.symm ▸ isOrder)).map signature
  refine List.mem_cons_of_mem _ ?_
  rw [if_pos counted]
  refine List.mem_map_of_mem (List.mem_filter.mpr ⟨?_, ?_⟩)
  · exact (mem_permutations _ (List.length_range) order).mpr (size.symm ▸ isOrder)
  · simp only [List.all_eq_true, List.mem_range, decide_eq_true_eq]
    intro i bound
    have inside : order[i] < (columns width pred).length :=
      size.symm ▸ isOrder.lt (List.getElem_mem bound)
    rw [← wanted]
    simp [arrange, bound, inside]

theorem of_mem_orderingsBy {σ : Type} [DecidableEq σ] {signature : List Canon → σ}
    {candidate : List (List Canon)}
    (tried : candidate ∈ orderingsBy signature (columns width pred) (columns width gold)) :
    ∃ order, IsOrder width order ∧ candidate = arrange order (columns width pred) := by
  have size : (columns width pred).length = width := by simp [columns]
  rcases List.mem_cons.mp tried with rfl | searched
  · have unmoved := arrange_range (columns width pred)
    rw [size] at unmoved
    exact ⟨List.range width, isOrder_range width, unmoved.symm⟩
  · split at searched
    · obtain ⟨order, kept, rfl⟩ := List.mem_map.mp searched
      have listed := (List.mem_filter.mp kept).1
      rw [size] at listed
      exact ⟨order, (mem_permutations _ List.length_range order).mp listed, rfl⟩
    · exact absurd searched List.not_mem_nil

/-- The search finds a match exactly where some order of the columns gives one. -/
theorem any_orderingsBy {σ : Type} [DecidableEq σ] {signature : List Canon → σ}
    (respects : Respects values ordered signature) (rectPred : Rectangular width pred)
    (rectGold : Rectangular width gold) (within : Within values pred)
    (sameLength : pred.length = gold.length) :
    ((orderingsBy signature (columns width pred) (columns width gold)).any fun candidate =>
      rowsEqual ordered candidate (columns width gold)) = true ↔
        Aligned ordered width pred gold := by
  rcases Nat.eq_zero_or_pos width with rfl | wide
  · have aligned : Aligned ordered 0 pred gold :=
      .of_sameRows rectPred (.of_eq (eq_of_no_columns rectPred rectGold sameLength))
    have found : rowsEqual ordered (columns 0 pred) (columns 0 gold) = true := by
      cases ordered <;> rfl
    exact ⟨fun _ => aligned, fun _ => List.any_eq_true.mpr ⟨_, List.mem_cons_self, found⟩⟩
  · rw [List.any_eq_true]
    constructor
    · rintro ⟨candidate, tried, equal⟩
      obtain ⟨order, isOrder, rfl⟩ := of_mem_orderingsBy tried
      rw [arrange_columns isOrder,
        rowsEqual_columns wide (rectangular_arrange isOrder pred) rectGold] at equal
      exact ⟨order, isOrder, equal⟩
    · rintro ⟨order, isOrder, same⟩
      refine ⟨_, arrange_mem_orderingsBy respects rectPred within isOrder same, ?_⟩
      rwa [arrange_columns isOrder,
        rowsEqual_columns wide (rectangular_arrange isOrder pred) rectGold]

theorem any_candidateOrderings (distinguishes : Distinguishes repr values)
    (rectPred : Rectangular width pred) (rectGold : Rectangular width gold)
    (within : Within values pred) (sameLength : pred.length = gold.length) :
    ((candidateOrderings repr ordered (columns width pred) (columns width gold)).any
      fun candidate => rowsEqual ordered candidate (columns width gold)) = true ↔
        Aligned ordered width pred gold := by
  cases ordered with
  | false =>
    exact any_orderingsBy (respects_signatureUnordered distinguishes) rectPred rectGold within
      sameLength
  | true => exact any_orderingsBy respects_signatureOrdered rectPred rectGold within sameLength

theorem compareColumns_matched (distinguishes : Distinguishes repr values)
    (narrow : width ≤ maxColumnsForPermutation) (rectPred : Rectangular width pred)
    (rectGold : Rectangular width gold) (within : Within values pred)
    (sameLength : pred.length = gold.length) :
    (compareColumns repr ordered width (columns width pred) (columns width gold)).matched = true ↔
      Aligned ordered width pred gold := by
  rw [← any_candidateOrderings distinguishes rectPred rectGold within sameLength, compareColumns,
    if_neg (Nat.not_lt.mpr narrow)]
  split
  · rename_i found
    simp only [found]
  · rename_i missed
    simp only [missed]

/-! ## The decision -/

variable {p : Platform} {predicted gold : List (List PyValue)} {goldSql : Option String}
  {order : Option Bool}

/-- The comparison reports a match. -/
def Matches (p : Platform) (repr : Canon → String) (predicted gold : List (List PyValue))
    (goldSql : Option String) (order : Option Bool) : Prop :=
  ∃ c, Compare.compare p repr predicted gold goldSql order = .ok c ∧ c.matched = true

/-- Results of one width and as many rows are compared by their columns, once
every cell has a canonical form. -/
theorem compare_eq_ok (rectPred : Rectangular width predicted) (rectGold : Rectangular width gold)
    (sameLength : predicted.length = gold.length) (some : gold ≠ []) (c : Comparison) :
    Compare.compare p repr predicted gold goldSql order = .ok c ↔
      HasForms predicted ∧ HasForms gold ∧
        compareColumns repr (enforced p goldSql order) width (columns width (forms predicted))
          (columns width (forms gold)) = c := by
  have columnwise : Compare.compare p repr predicted gold goldSql order = (do
      let predColumns ← columnsOf predicted width
      let goldColumns ← columnsOf gold width
      return compareColumns repr (enforced p goldSql order) width predColumns goldColumns) := by
    match gold, some with
    | first :: rest, _ =>
      obtain rfl := rectGold first List.mem_cons_self
      have even : ∀ {l : List (List PyValue)}, Rectangular first.length l →
          (l.any fun row => row.length ≠ first.length) = false := by
        intro l rect
        simpa [Rectangular] using rect
      simp only [Compare.compare, sameLength, ne_eq, not_true_eq_false, if_false]
      rw [even rectGold, even rectPred]
      rfl
  rw [columnwise]
  constructor
  · intro found
    cases predFound : columnsOf predicted width with
    | error e =>
      rw [predFound] at found
      cases found
    | ok predColumns =>
      cases goldFound : columnsOf gold width with
      | error e =>
        rw [predFound, goldFound] at found
        cases found
      | ok goldColumns =>
        have hasPred := hasForms_of_columnsOf rectPred predFound
        have hasGold := hasForms_of_columnsOf rectGold goldFound
        rw [columnsOf_forms rectPred hasPred, columnsOf_forms rectGold hasGold] at found
        exact ⟨hasPred, hasGold, Except.ok.inj found⟩
  · rintro ⟨hasPred, hasGold, rfl⟩
    rw [columnsOf_forms rectPred hasPred, columnsOf_forms rectGold hasGold]
    rfl

theorem matches_of_same_length (distinguishes : Distinguishes repr values)
    (narrow : width ≤ maxColumnsForPermutation) (rectPred : Rectangular width predicted)
    (rectGold : Rectangular width gold) (within : Within values (forms predicted))
    (sameLength : predicted.length = gold.length) :
    Matches p repr predicted gold goldSql order ↔ HasForms predicted ∧ HasForms gold ∧
      Aligned (enforced p goldSql order) width (forms predicted) (forms gold) := by
  cases gold with
  | nil =>
    obtain rfl := List.eq_nil_of_length_eq_zero sameLength
    have has : HasForms [] := by simp [HasForms]
    have aligned : Aligned (enforced p goldSql order) width (forms []) (forms []) :=
      .of_sameRows (rectangular_forms rectPred) (.of_eq rfl)
    exact ⟨fun _ => ⟨has, has, aligned⟩, fun _ => ⟨_, rfl, rfl⟩⟩
  | cons first rest =>
    have formsLength : (forms predicted).length = (forms (first :: rest)).length := by
      simpa [forms] using sameLength
    have decided : (compareColumns repr (enforced p goldSql order) width
        (columns width (forms predicted)) (columns width (forms (first :: rest)))).matched = true ↔
          Aligned (enforced p goldSql order) width (forms predicted) (forms (first :: rest)) :=
      compareColumns_matched distinguishes narrow (rectangular_forms rectPred)
        (rectangular_forms rectGold) within formsLength
    simp only [Matches, compare_eq_ok rectPred rectGold sameLength (List.cons_ne_nil _ _)]
    constructor
    · rintro ⟨c, ⟨hasPred, hasGold, rfl⟩, matched⟩
      exact ⟨hasPred, hasGold, decided.mp matched⟩
    · rintro ⟨hasPred, hasGold, aligned⟩
      exact ⟨_, ⟨hasPred, hasGold, rfl⟩, decided.mpr aligned⟩

theorem matches_iff (distinguishes : Distinguishes repr values)
    (narrow : width ≤ maxColumnsForPermutation) (rectPred : Rectangular width predicted)
    (rectGold : Rectangular width gold) (within : Within values (forms predicted)) :
    Matches p repr predicted gold goldSql order ↔ HasForms predicted ∧ HasForms gold ∧
      Aligned (enforced p goldSql order) width (forms predicted) (forms gold) := by
  by_cases sameLength : predicted.length = gold.length
  · exact matches_of_same_length distinguishes narrow rectPred rectGold within sameLength
  · constructor
    · rintro ⟨c, found, matched⟩
      unfold Compare.compare at found
      rw [if_pos sameLength] at found
      obtain rfl := Except.ok.inj found
      cases matched
    · rintro ⟨-, -, aligned⟩
      exact absurd (by simpa [forms] using aligned.length_eq) sameLength

section decision

variable (distinguishes : Distinguishes repr values) (narrow : width ≤ maxColumnsForPermutation)
  (rectPred : Rectangular width predicted) (rectGold : Rectangular width gold)
  (withinPred : Within values (forms predicted)) (withinGold : Within values (forms gold))

include distinguishes narrow rectPred rectGold withinPred withinGold

theorem matches_comm :
    Matches p repr predicted gold goldSql order ↔ Matches p repr gold predicted goldSql order := by
  rw [matches_iff distinguishes narrow rectPred rectGold withinPred,
    matches_iff distinguishes narrow rectGold rectPred withinGold, ← and_assoc, ← and_assoc,
    and_comm (a := HasForms gold)]
  exact and_congr_right fun _ =>
    ⟨.symm (rectangular_forms rectPred), .symm (rectangular_forms rectGold)⟩

omit withinGold

/-- Arranging the predicted columns changes nothing. -/
theorem matches_arrange {columnOrder : List Nat} (isOrder : IsOrder width columnOrder) :
    Matches p repr (predicted.map (arrange columnOrder)) gold goldSql order ↔
      Matches p repr predicted gold goldSql order := by
  have arranged : Aligned (enforced p goldSql order) width (forms predicted)
      ((forms predicted).map (arrange columnOrder)) := .of_arrange isOrder
  have withinArranged : Within values (forms (predicted.map (arrange columnOrder))) := by
    rw [forms_arrange rectPred isOrder]
    exact within_arrange (rectangular_forms rectPred) withinPred isOrder
  rw [matches_iff distinguishes narrow (rectangular_arrange isOrder predicted) rectGold
      withinArranged,
    matches_iff distinguishes narrow rectPred rectGold withinPred,
    hasForms_arrange rectPred isOrder, forms_arrange rectPred isOrder]
  refine and_congr_right fun _ => and_congr_right fun _ => ⟨arranged.trans, fun aligned => ?_⟩
  exact (arranged.symm (rectangular_forms rectPred)).trans aligned

/-- Where order is not enforced, neither does moving the predicted rows. -/
theorem matches_perm (free : enforced p goldSql order = false) {moved : List (List PyValue)}
    (same : moved.Perm predicted) :
    Matches p repr moved gold goldSql order ↔ Matches p repr predicted gold goldSql order := by
  have sameForms : SameRows false (forms moved) (forms predicted) := List.Perm.map _ same
  have rectMoved : Rectangular width moved := fun row hrow => rectPred row (same.subset hrow)
  have withinMoved : Within values (forms moved) := fun row hrow =>
    withinPred row (sameForms.perm.subset hrow)
  have hasMoved : HasForms moved ↔ HasForms predicted := by
    simp only [HasForms, same.mem_iff]
  rw [matches_iff distinguishes narrow rectMoved rectGold withinMoved,
    matches_iff distinguishes narrow rectPred rectGold withinPred, hasMoved, free]
  exact and_congr_right fun _ => and_congr_right fun _ =>
    ⟨(Aligned.of_sameRows (rectangular_forms rectPred) sameForms.symm).trans,
      (Aligned.of_sameRows (rectangular_forms rectMoved) sameForms).trans⟩

end decision

/-- The canonical values of two results. -/
def cells (predicted gold : List (List PyValue)) : List Canon :=
  (forms predicted).flatten ++ (forms gold).flatten

theorem within_cells_left : Within (cells predicted gold) (forms predicted) :=
  fun _ hrow _ hc => List.mem_append_left _ (List.mem_flatten_of_mem hrow hc)

theorem within_cells_right : Within (cells predicted gold) (forms gold) :=
  fun _ hrow _ hc => List.mem_append_right _ (List.mem_flatten_of_mem hrow hc)

/-- A match is reported exactly where both results have canonical forms and some
order of the predicted columns makes their rows equal: as sequences when order
is enforced, as multisets otherwise. So the decision is symmetric, does not
depend on the order of the columns of either result, nor, where order is not
enforced, on that of the rows. -/
theorem match_exact_up_to_column_order (distinguishes : Distinguishes repr (cells predicted gold))
    (narrow : width ≤ maxColumnsForPermutation) (rectPred : Rectangular width predicted)
    (rectGold : Rectangular width gold) :
    (Matches p repr predicted gold goldSql order ↔ HasForms predicted ∧ HasForms gold ∧
      ∃ columnOrder, IsOrder width columnOrder ∧
        if enforced p goldSql order then
          (forms predicted).map (arrange columnOrder) = forms gold
        else ((forms predicted).map (arrange columnOrder)).Perm (forms gold)) ∧
    (Matches p repr predicted gold goldSql order ↔ Matches p repr gold predicted goldSql order) ∧
    (∀ a b, IsOrder width a → IsOrder width b →
      (Matches p repr (predicted.map (arrange a)) (gold.map (arrange b)) goldSql order ↔
        Matches p repr predicted gold goldSql order)) ∧
    (enforced p goldSql order = false → ∀ movedPred movedGold,
      movedPred.Perm predicted → movedGold.Perm gold →
      (Matches p repr movedPred movedGold goldSql order ↔
        Matches p repr predicted gold goldSql order)) := by
  have inPred : Within (cells predicted gold) (forms predicted) := within_cells_left
  have inGold : Within (cells predicted gold) (forms gold) := within_cells_right
  refine ⟨matches_iff distinguishes narrow rectPred rectGold inPred,
    matches_comm distinguishes narrow rectPred rectGold inPred inGold, ?_, ?_⟩
  · intro a b orderA orderB
    have rectB := rectangular_arrange orderB gold
    have inB : Within (cells predicted gold) (forms (gold.map (arrange b))) := by
      rw [forms_arrange rectGold orderB]
      exact within_arrange (rectangular_forms rectGold) inGold orderB
    rw [matches_arrange distinguishes narrow rectPred rectB inPred orderA,
      matches_comm distinguishes narrow rectPred rectB inPred inB,
      matches_arrange distinguishes narrow rectGold rectPred inGold orderB,
      matches_comm distinguishes narrow rectGold rectPred inGold inPred]
  · intro free movedPred movedGold samePred sameGold
    have rectMoved : Rectangular width movedGold := fun row hrow =>
      rectGold row (sameGold.subset hrow)
    have inMoved : Within (cells predicted gold) (forms movedGold) := fun row hrow =>
      inGold row ((sameGold.map _).subset hrow)
    rw [matches_perm distinguishes narrow rectPred rectMoved inPred free samePred,
      matches_comm distinguishes narrow rectPred rectMoved inPred inMoved,
      matches_perm distinguishes narrow rectGold rectPred inGold free sameGold,
      matches_comm distinguishes narrow rectGold rectPred inGold inPred]

private def homeSql : String := "SELECT city, name FROM homes"

private def homePlatform : Platform where
  casefold text := String.ofList (text.toList.map Char.toLower)
  closeMatch _ _ := none
  parse text :=
    if text = homeSql then
      .ok [some (.expression (.mk .select [
        ("expressions", .mk .column [("this", .mk (.identifier "city") [])]),
        ("expressions", .mk .column [("this", .mk (.identifier "name") [])]),
        ("from", .mk (.other "from" "")
          [("this", .mk .table [("this", .mk (.identifier "homes") [])])])]))]
    else .error ""
  sql _ := homeSql
  str _ := ""
  float _ := none

private def quoted : Canon → String
  | .str s => "'" ++ s ++ "'"
  | _ => "None"

private def homesFound : List (List PyValue) :=
  [[.str "Ada", .str "Oslo"], [.str "Ada", .str "Oslo"], [.str "Bob", .none]]

private def homesWanted : List (List PyValue) :=
  [[.none, .str "Bob"], [.str "Oslo", .str "Ada"], [.str "Oslo", .str "Ada"]]

/-- Two rows that are alike, and the columns the other way round. -/
theorem match_exact_up_to_column_order_homes :
    Matches homePlatform quoted homesFound homesWanted (some homeSql) none := by
  have distinct : Distinguishes quoted (cells homesFound homesWanted) := by decide
  have hasFound : HasForms homesFound := by
    simp [HasForms, homesFound, canonical]
  have hasWanted : HasForms homesWanted := by
    simp [HasForms, homesWanted, canonical]
  have wideFound : Rectangular 2 homesFound := by decide
  have wideWanted : Rectangular 2 homesWanted := by decide
  refine (match_exact_up_to_column_order distinct (by decide) wideFound wideWanted).1.mpr
    ⟨hasFound, hasWanted, [1, 0], ?_, ?_⟩
  · exact List.Perm.swap 0 1 []
  · decide

end ColumnOrder
