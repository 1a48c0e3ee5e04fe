import Mathlib.Data.List.Perm.Subperm
import Mathlib.Data.List.Nodup
import Mathlib.Data.List.GetD

/-!
# Arranging the columns of a table

A list of positions arranges a list; the orders of `n` positions are the
arrangements that lose and repeat nothing. They are listed in lexicographic
order, compose and have inverses. A table is a list of rows of one width, and
arranging its columns arranges every row.
-/

namespace Arrangements

universe u

section rows

variable {ρ τ : Type u}

/-- The same rows, as a sequence or as a multiset. -/
def SameRows (ordered : Bool) (rows other : List ρ) : Prop :=
  if ordered then rows = other else rows.Perm other

namespace SameRows

variable {ordered : Bool} {a b c : List ρ}

theorem perm (h : SameRows ordered a b) : a.Perm b := by
  cases ordered with
  | false => exact h
  | true => exact List.Perm.of_eq h

theorem of_eq (h : a = b) : SameRows ordered a b := by
  cases ordered with
  | false => exact List.Perm.of_eq h
  | true => exact h

theorem symm (h : SameRows ordered a b) : SameRows ordered b a := by
  cases ordered with
  | false => exact List.Perm.symm h
  | true => exact Eq.symm h

theorem trans (h₁ : SameRows ordered a b) (h₂ : SameRows ordered b c) : SameRows ordered a c := by
  cases ordered with
  | false => exact List.Perm.trans h₁ h₂
  | true => exact Eq.trans h₁ h₂

theorem map (h : SameRows ordered a b) (f : ρ → τ) :
    SameRows ordered (a.map f) (b.map f) := by
  cases ordered with
  | false => exact List.Perm.map f h
  | true => exact congrArg (List.map f) h

end SameRows

end rows

variable {α : Type u} [Inhabited α]

/-- The entries at the given positions. -/
def arrange (order : List Nat) (l : List α) : List α := order.map fun i => l.getD i default

/-- An order of `n` positions. -/
def IsOrder (n : Nat) (order : List Nat) : Prop := order.Perm (List.range n)

theorem IsOrder.length {n : Nat} {order : List Nat} (h : IsOrder n order) : order.length = n := by
  simpa using List.Perm.length_eq h

theorem IsOrder.lt {n : Nat} {order : List Nat} (h : IsOrder n order) {i : Nat} (hi : i ∈ order) :
    i < n := List.mem_range.mp ((List.Perm.mem_iff h).mp hi)

theorem isOrder_range (n : Nat) : IsOrder n (List.range n) := List.Perm.refl _

@[simp]
theorem length_arrange (order : List Nat) (l : List α) :
    (arrange order l).length = order.length := List.length_map ..

theorem getD_arrange {order : List Nat} {i : Nat} (bound : i < order.length) (l : List α) :
    (arrange order l).getD i default = l.getD (order.getD i default) default := by
  simp [arrange, List.getD_eq_getElem?_getD, bound]

theorem arrange_range (l : List α) : arrange (List.range l.length) l = l := by
  apply List.ext_getElem
  · simp
  · intro i h₁ h₂
    simp [arrange, h₂]

/-- An order of a list's positions permutes the list. -/
theorem arrange_perm {order : List Nat} {l : List α} (h : IsOrder l.length order) :
    (arrange order l).Perm l := by
  have mapped : (arrange order l).Perm (arrange (List.range l.length) l) := List.Perm.map _ h
  rwa [arrange_range] at mapped

theorem arrange_arrange {first second : List Nat} (l : List α)
    (inside : ∀ i ∈ second, i < first.length) :
    arrange second (arrange first l) = arrange (arrange second first) l := by
  have each : ∀ i ∈ second,
      (arrange first l).getD i default = l.getD (first.getD i default) default :=
    fun i hi => getD_arrange (inside i hi) l
  simpa only [arrange, List.map_map, Function.comp_def] using List.map_congr_left each

/-- Orders compose. -/
theorem IsOrder.comp {n : Nat} {first second : List Nat} (h₁ : IsOrder n first)
    (h₂ : IsOrder n second) : IsOrder n (arrange second first) := by
  rw [← h₁.length] at h₂
  exact (arrange_perm h₂).trans h₁

/-- Every order can be undone. -/
theorem IsOrder.inverse {n : Nat} {order : List Nat} (h : IsOrder n order) :
    ∃ back, IsOrder n back ∧ arrange back order = List.range n := by
  have present : ∀ i ∈ List.range n, i ∈ order := fun i hi => (List.Perm.mem_iff h).mpr hi
  refine ⟨(List.range n).map fun i => order.idxOf i, ?_, ?_⟩
  · have distinct : ((List.range n).map fun i => order.idxOf i).Nodup := by
      refine List.Nodup.map_on ?_ List.nodup_range
      intro i hi j _ same
      exact List.idxOf_inj (present i hi) |>.mp same
    have within : ((List.range n).map fun i => order.idxOf i) ⊆ List.range n := by
      intro k hk
      obtain ⟨i, hi, rfl⟩ := List.mem_map.mp hk
      have := List.idxOf_lt_length_of_mem (present i hi)
      rw [h.length] at this
      exact List.mem_range.mpr this
    exact (List.subperm_of_subset distinct within).perm_of_length_le (by simp)
  · rw [arrange, List.map_map]
    conv_rhs => rw [← List.map_id (List.range n)]
    apply List.map_congr_left
    intro i hi
    have bound := List.idxOf_lt_length_of_mem (present i hi)
    simp [List.getD_eq_getElem?_getD, bound]

/-! ## All orders -/

/-- All arrangements of a list of `n` entries, in lexicographic order of their
positions. -/
def permutations : Nat → List α → List (List α)
  | 0, _ => [[]]
  | n + 1, l => (List.range l.length).flatMap fun i =>
    (permutations n (l.eraseIdx i)).map (l.getD i default :: ·)

theorem mem_permutations (n : Nat) {l : List α} (size : l.length = n) (m : List α) :
    m ∈ permutations n l ↔ m.Perm l := by
  induction n generalizing l m with
  | zero =>
    obtain rfl := List.eq_nil_of_length_eq_zero size
    simp [permutations]
  | succ n ih =>
    have shorter : ∀ i < l.length, (l.eraseIdx i).length = n := by
      intro i hi
      rw [List.length_eraseIdx_of_lt hi]
      omega
    simp only [permutations, List.mem_flatMap, List.mem_range, List.mem_map]
    constructor
    · rintro ⟨i, hi, rest, hrest, rfl⟩
      have tail := (ih (shorter i hi) rest).mp hrest
      rw [List.getD_eq_getElem l default hi]
      exact (tail.cons _).trans (List.getElem_cons_eraseIdx_perm hi)
    · intro perm
      cases m with
      | nil =>
        have := perm.length_eq
        simp [size] at this
      | cons x rest =>
        obtain ⟨i, hi, rfl⟩ := List.getElem_of_mem (perm.subset List.mem_cons_self)
        refine ⟨i, hi, rest, (ih (shorter i hi) rest).mpr ?_, by rw [List.getD_eq_getElem l _ hi]⟩
        exact (perm.trans (List.getElem_cons_eraseIdx_perm hi).symm).cons_inv

/-! ## Tables -/

/-- Every row has the width. -/
def Rectangular (width : Nat) (rows : List (List α)) : Prop := ∀ row ∈ rows, row.length = width

instance (width : Nat) (rows : List (List α)) : Decidable (Rectangular width rows) :=
  inferInstanceAs (Decidable (∀ row ∈ rows, row.length = width))

/-- The entries of every row at one position. -/
def column (rows : List (List α)) (i : Nat) : List α := rows.map fun row => row.getD i default

def columns (width : Nat) (rows : List (List α)) : List (List α) :=
  (List.range width).map (column rows)

/-- The rows again, from the columns; of no columns at all there are no rows. -/
def zipColumns : List (List α) → List (List α)
  | [] => []
  | c :: rest => (List.range c.length).map (column (c :: rest))

theorem zip_columns {width : Nat} (wide : 0 < width) {rows : List (List α)}
    (rect : Rectangular width rows) : zipColumns (columns width rows) = rows := by
  obtain ⟨more, rfl⟩ := Nat.exists_eq_succ_of_ne_zero (Nat.ne_of_gt wide)
  have first : columns (more + 1) rows =
      column rows 0 :: (List.range more).map fun i => column rows (i + 1) := by
    simp [columns, List.range_succ_eq_map]
  have whole : zipColumns (columns (more + 1) rows) =
      (List.range rows.length).map (column (columns (more + 1) rows)) := by
    conv_lhs => rw [first, zipColumns, ← first]
    simp [column]
  rw [whole]
  apply List.ext_getElem
  · simp
  · intro j h₁ h₂
    have width := rect rows[j] (List.getElem_mem h₂)
    apply List.ext_getElem
    · simp [column, columns, width]
    · intro i h₃ h₄
      simp [column, columns, h₂, h₄]

/-- Arranging the columns arranges every row. -/
theorem arrange_columns {width : Nat} {order : List Nat} (h : IsOrder width order)
    (rows : List (List α)) :
    arrange order (columns width rows) = columns width (rows.map (arrange order)) := by
  apply List.ext_getElem
  · simp [columns, h.length]
  · intro i h₁ h₂
    have bound : i < order.length := by simpa using h₁
    have inside := h.lt (List.getElem_mem bound)
    simp [arrange, columns, column, bound, inside]

theorem rectangular_arrange {width : Nat} {order : List Nat} (h : IsOrder width order)
    (rows : List (List α)) : Rectangular width (rows.map (arrange order)) := by
  intro row hrow
  obtain ⟨source, -, rfl⟩ := List.mem_map.mp hrow
  rw [length_arrange, h.length]

/-- Arranging and arranging back leaves a table as it was. -/
theorem map_arrange_back {width : Nat} {order back : List Nat} (h : IsOrder width order)
    (hb : IsOrder width back) (undo : arrange back order = List.range width)
    {rows : List (List α)} (rect : Rectangular width rows) :
    (rows.map (arrange order)).map (arrange back) = rows := by
  rw [List.map_map]
  conv_rhs => rw [← List.map_id rows]
  apply List.map_congr_left
  intro row hrow
  have inside : ∀ i ∈ back, i < order.length := fun i hi => h.length.symm ▸ hb.lt hi
  simp only [Function.comp, id]
  rw [arrange_arrange row inside, undo, ← rect row hrow, arrange_range]

theorem map_arrange {β : Type u} [Inhabited β] (f : α → β) {order : List Nat} {l : List α}
    (inside : ∀ i ∈ order, i < l.length) : (arrange order l).map f = arrange order (l.map f) := by
  rw [arrange, List.map_map]
  apply List.map_congr_left
  intro i hi
  simp [List.getD_eq_getElem?_getD, inside i hi]

/-! ## Equal up to the order of columns -/

/-- Some order of the columns of the one gives the rows of the other. -/
def Aligned (ordered : Bool) (width : Nat) (a b : List (List α)) : Prop :=
  ∃ order, IsOrder width order ∧ SameRows ordered (a.map (arrange order)) b

namespace Aligned

variable {ordered : Bool} {width : Nat} {a b c : List (List α)}

theorem of_arrange {order : List Nat} (h : IsOrder width order) :
    Aligned ordered width a (a.map (arrange order)) := ⟨order, h, .of_eq rfl⟩

theorem of_sameRows (rect : Rectangular width a) (h : SameRows ordered a b) :
    Aligned ordered width a b := by
  refine ⟨List.range width, isOrder_range width, SameRows.trans (.of_eq ?_) h⟩
  conv_rhs => rw [← List.map_id a]
  apply List.map_congr_left
  intro row hrow
  rw [← rect row hrow, arrange_range, id]

theorem symm (rect : Rectangular width a) (h : Aligned ordered width a b) :
    Aligned ordered width b a := by
  obtain ⟨order, isOrder, same⟩ := h
  obtain ⟨back, isBack, undo⟩ := isOrder.inverse
  have returned := (same.map (arrange back)).symm
  rw [map_arrange_back isOrder isBack undo rect] at returned
  exact ⟨back, isBack, returned⟩

theorem trans (h₁ : Aligned ordered width a b) (h₂ : Aligned ordered width b c) :
    Aligned ordered width a c := by
  obtain ⟨first, isFirst, same₁⟩ := h₁
  obtain ⟨second, isSecond, same₂⟩ := h₂
  refine ⟨arrange second first, isFirst.comp isSecond, ?_⟩
  have twice : (a.map (arrange first)).map (arrange second) =
      a.map (arrange (arrange second first)) := by
    rw [List.map_map]
    apply List.map_congr_left
    intro row _
    exact arrange_arrange row fun i hi => isFirst.length.symm ▸ isSecond.lt hi
  rw [← twice]
  exact (same₁.map _).trans same₂

theorem length_eq (h : Aligned ordered width a b) : a.length = b.length := by
  obtain ⟨_, -, same⟩ := h
  simpa using same.perm.length_eq

end Aligned

end Arrangements
