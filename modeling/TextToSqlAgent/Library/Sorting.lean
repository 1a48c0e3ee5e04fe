import Mathlib.Data.List.Count
import Mathlib.Data.List.Perm.Basic

/-!
# Lists in order

A list is sorted by a comparison that may hold different things equal, so it has
many arrangements. They differ only in what is tied: at each place two of them
have things that are equal to the comparison.
-/

namespace Sorting

universe u

variable {α : Type u}

/-- Some order of a list that a comparison allows. -/
structure Arranges (cmp : α → α → Ordering) (sorted l : List α) : Prop where
  perm : sorted.Perm l
  ascends : sorted.Pairwise fun a b => (cmp a b).isLE

section Places

variable {cmp : α → α → Ordering} [Std.TransCmp cmp]

/-- What is not above a thing stands at its place or before, or is tied with it. -/
theorem lt_countP {l : List α} (ascends : l.Pairwise fun a b => (cmp a b).isLE) {i : Nat} {a : α}
    (here : l[i]? = some a) : i < l.countP fun b => (cmp b a).isLE := by
  induction l generalizing i with
  | nil => cases here
  | cons b l ih =>
    obtain ⟨first, ascends⟩ := List.pairwise_cons.mp ascends
    cases i with
    | zero =>
      obtain rfl := Option.some.inj here
      simp [Std.ReflCmp.compare_self]
    | succ i =>
      have later := ih ascends here
      have below := first a (List.mem_of_getElem? here)
      rw [List.countP_cons, if_pos below]
      omega

/-- What is below a thing stands before its place. -/
theorem countP_le {l : List α} (ascends : l.Pairwise fun a b => (cmp a b).isLE) {i : Nat} {a b : α}
    (here : l[i]? = some a) (below : cmp b a = .lt) :
    (l.countP fun c => (cmp c b).isLE) ≤ i := by
  induction l generalizing i with
  | nil => cases here
  | cons c l ih =>
    obtain ⟨first, ascends⟩ := List.pairwise_cons.mp ascends
    cases i with
    | zero =>
      obtain rfl := Option.some.inj here
      rw [Nat.le_zero, List.countP_eq_zero]
      intro d listed small
      have above : (cmp c d).isLE := by
        rcases List.mem_cons.mp listed with rfl | later
        · simp [Std.ReflCmp.compare_self]
        · exact first d later
      have same := Std.TransCmp.isLE_trans above small
      rw [(Std.OrientedCmp.eq_swap : cmp c b = (cmp b c).swap), below] at same
      cases same
    | succ i =>
      have later := ih ascends here
      rw [List.countP_cons]
      split <;> omega

/-- Two arrangements have ties at each place. -/
theorem Arranges.tied {one other l : List α} (first : Arranges cmp one l)
    (second : Arranges cmp other l) {i : Nat} {a b : α} (here : one[i]? = some a)
    (there : other[i]? = some b) : cmp a b = .eq := by
  have same : ∀ p : α → Bool, one.countP p = other.countP p := fun p =>
    (first.perm.trans second.perm.symm).countP_eq p
  cases order : cmp a b with
  | eq => rfl
  | lt =>
    have many := lt_countP first.ascends here
    have few := countP_le second.ascends there order
    rw [same] at many
    omega
  | gt =>
    have many := lt_countP second.ascends there
    have few := countP_le first.ascends here (Std.OrientedCmp.lt_of_gt order)
    rw [same] at few
    omega

/-- Whether two places are tied does not depend on the arrangement. -/
theorem Arranges.tied_iff {one other l : List α} (first : Arranges cmp one l)
    (second : Arranges cmp other l) {i j : Nat} {a b c d : α} (here : one[i]? = some a)
    (next : one[j]? = some b) (there : other[i]? = some c) (beyond : other[j]? = some d) :
    cmp a b = .eq ↔ cmp c d = .eq := by
  have same : cmp a b = cmp c b := Std.TransCmp.congr_left (first.tied second here there)
  have same' : cmp c b = cmp c d := Std.TransCmp.congr_right (first.tied second next beyond)
  rw [same, same']

end Places

/-! ## One comparison after another -/

/-- The first comparison that tells two things apart decides. -/
def lexicographic : List (α → α → Ordering) → α → α → Ordering
  | [] => fun _ _ => .eq
  | cmp :: rest => compareLex cmp (lexicographic rest)

theorem lexicographic_eq_iff {cmps : List (α → α → Ordering)} {a b : α} :
    lexicographic cmps a b = .eq ↔ ∀ cmp ∈ cmps, cmp a b = .eq := by
  induction cmps with
  | nil => exact ⟨fun _ => nofun, fun _ => rfl⟩
  | cons cmp cmps ih =>
    rw [lexicographic, compareLex, Ordering.then_eq_eq, ih, List.forall_mem_cons]

theorem transCmp_lexicographic {cmps : List (α → α → Ordering)}
    (each : ∀ cmp ∈ cmps, Std.TransCmp cmp) : Std.TransCmp (lexicographic cmps) := by
  induction cmps with
  | nil =>
    exact { eq_swap := rfl, isLE_trans := fun _ _ => rfl }
  | cons cmp cmps ih =>
    obtain ⟨first, others⟩ := List.forall_mem_cons.mp each
    have rest := ih others
    rw [lexicographic]
    infer_instance

/-! ## Cuts -/

/-- A cut at this place parts two things that are tied. -/
def SplitsTie (cmp : α → α → Ordering) (l : List α) (n : Nat) : Prop :=
  0 < n ∧ ∃ a b, l[n - 1]? = some a ∧ l[n]? = some b ∧ cmp a b = .eq

section Cuts

variable {cmp : α → α → Ordering} [Std.TransCmp cmp] {one other l : List α} {n : Nat}

/-- Where a cut parts no tie, what stands before it is below what stands behind it. -/
theorem lt_of_mem_take (ascends : l.Pairwise fun a b => (cmp a b).isLE) {b c : α}
    (here : l[n]? = some b) (clear : ¬SplitsTie cmp l n) (before : c ∈ l.take n) :
    cmp c b = .lt := by
  obtain ⟨within, rfl⟩ := List.getElem?_eq_some_iff.mp here
  obtain ⟨i, small, rfl⟩ := List.mem_take_iff_getElem.mp before
  have ordered := List.pairwise_iff_getElem.mp ascends
  have low : (cmp l[n - 1] l[n]).isLE := ordered (n - 1) n (by omega) within (by omega)
  have apart : cmp l[n - 1] l[n] ≠ .eq := by
    intro tie
    exact clear ⟨by omega, _, _, List.getElem?_eq_getElem (by omega), here, tie⟩
  have strict : cmp l[n - 1] l[n] = .lt := by
    cases order : cmp l[n - 1] l[n] with
    | lt => rfl
    | eq => exact absurd order apart
    | gt =>
      rw [order] at low
      cases low
  by_cases last : i = n - 1
  · subst last
    exact strict
  · have earlier := ordered i (n - 1) (by omega) (by omega) (by omega)
    exact Std.TransCmp.lt_of_isLE_of_lt earlier strict

theorem not_lt_of_mem_drop (ascends : l.Pairwise fun a b => (cmp a b).isLE) {b c : α}
    (here : l[n]? = some b) (behind : c ∈ l.drop n) : cmp c b ≠ .lt := by
  obtain ⟨within, rfl⟩ := List.getElem?_eq_some_iff.mp here
  obtain ⟨i, bound, rfl⟩ := List.mem_drop_iff_getElem.mp behind
  have above : (cmp l[n] l[n + i]).isLE := by
    by_cases first : i = 0
    · subst first
      simp [Std.ReflCmp.compare_self]
    · exact List.pairwise_iff_getElem.mp ascends n (n + i) (by omega) (by omega) (by omega)
  intro small
  have swapped := Std.OrientedCmp.gt_of_lt small
  rw [swapped] at above
  cases above

theorem take_eq_filter (ascends : l.Pairwise fun a b => (cmp a b).isLE) {b : α}
    (here : l[n]? = some b) (clear : ¬SplitsTie cmp l n) :
    l.take n = l.filter fun c => cmp c b = .lt := by
  have below : (l.take n).filter (fun c => cmp c b = .lt) = l.take n := by
    rw [List.filter_eq_self]
    intro c before
    exact decide_eq_true (lt_of_mem_take ascends here clear before)
  have above : (l.drop n).filter (fun c => cmp c b = .lt) = [] := by
    rw [List.filter_eq_nil_iff]
    intro c behind
    simpa using not_lt_of_mem_drop ascends here behind
  calc l.take n = (l.take n).filter (fun c => cmp c b = .lt) ++
        (l.drop n).filter (fun c => cmp c b = .lt) := by rw [below, above, List.append_nil]
    _ = l.filter fun c => cmp c b = .lt := by rw [← List.filter_append, List.take_append_drop]

/-- Whether a cut parts a tie does not depend on the arrangement. -/
theorem Arranges.splitsTie_iff (first : Arranges cmp one l) (second : Arranges cmp other l) :
    SplitsTie cmp one n ↔ SplitsTie cmp other n := by
  have each : ∀ {one other : List α}, Arranges cmp one l → Arranges cmp other l →
      SplitsTie cmp one n → SplitsTie cmp other n := by
    rintro one other first second ⟨positive, a, b, last, next, tie⟩
    have length : one.length = other.length := (first.perm.trans second.perm.symm).length_eq
    have within : n < other.length := length ▸ (List.getElem?_eq_some_iff.mp next).1
    have there := List.getElem?_eq_getElem (show n - 1 < other.length by omega)
    have beyond := List.getElem?_eq_getElem within
    exact ⟨positive, _, _, there, beyond, (first.tied_iff second last next there beyond).mp tie⟩
  exact ⟨each first second, each second first⟩

/-- Two arrangements have the same before a cut that parts no tie. -/
theorem Arranges.take_perm (first : Arranges cmp one l) (second : Arranges cmp other l)
    (clear : ¬SplitsTie cmp one n) : (one.take n).Perm (other.take n) := by
  have same : one.Perm other := first.perm.trans second.perm.symm
  by_cases within : n < one.length
  · obtain ⟨b, here⟩ : ∃ b, one[n]? = some b := ⟨_, List.getElem?_eq_getElem within⟩
    obtain ⟨b', there⟩ : ∃ b', other[n]? = some b' :=
      ⟨_, List.getElem?_eq_getElem (same.length_eq ▸ within)⟩
    have tie := first.tied second here there
    have alike : (fun c => decide (cmp c b = .lt)) = fun c => decide (cmp c b' = .lt) := by
      funext c
      rw [Std.TransCmp.congr_right tie]
    have clear' : ¬SplitsTie cmp other n := fun splits =>
      clear ((first.splitsTie_iff second).mpr splits)
    rw [take_eq_filter first.ascends here clear, take_eq_filter second.ascends there clear', alike]
    exact same.filter _
  · have whole := Nat.not_lt.mp within
    rwa [List.take_of_length_le whole, List.take_of_length_le (same.length_eq ▸ whole)]

/-- Two arrangements have the same between two cuts that part no tie. -/
theorem Arranges.window_perm (first : Arranges cmp one l) (second : Arranges cmp other l)
    {skipped kept : Nat} (above : ¬SplitsTie cmp one skipped)
    (below : ¬SplitsTie cmp one (skipped + kept)) :
    ((one.drop skipped).take kept).Perm ((other.drop skipped).take kept) := by
  have start := first.take_perm second above
  have whole := first.take_perm second below
  rw [List.take_add, List.take_add] at whole
  exact (List.perm_append_left_iff _).mp (whole.trans (start.symm.append_right _))

end Cuts

end Sorting
