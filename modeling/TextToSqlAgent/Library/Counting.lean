import Mathlib.Data.List.Perm.Subperm
import Mathlib.Data.List.Sort

/-!
# Counting the entries of a list

The distinct entries of a list with their numbers, in the order in which they
appear, and sorting by a key. Lists with the same entries have the same numbers,
and are equal once they are sorted by a key that tells the entries apart.
-/

namespace Counting

universe u

variable {α : Type u}

section items

variable [DecidableEq α]

/-- The distinct entries, each with how often it occurs. -/
def items (l : List α) : List (α × Nat) := l.eraseDups.map fun a => (a, l.count a)

theorem nodup_eraseDups (l : List α) : l.eraseDups.Nodup := by
  induction h : l.length using Nat.strong_induction_on generalizing l with
  | _ n ih =>
    cases l with
    | nil => simp
    | cons a rest =>
      have shorter : (rest.filter fun b => !b == a).length < n := by
        have := List.length_filter_le (fun b => !b == a) rest
        rw [← h, List.length_cons]
        omega
      rw [List.eraseDups_cons, List.nodup_cons]
      exact ⟨by simp, ih _ shorter _ rfl⟩

theorem nodup_items (l : List α) : (items l).Nodup :=
  (nodup_eraseDups l).map fun _ _ same => (Prod.mk.inj same).1

theorem mem_items {l : List α} {entry : α × Nat} :
    entry ∈ items l ↔ entry.1 ∈ l ∧ entry.2 = l.count entry.1 := by
  simp only [items, List.mem_map, List.mem_eraseDups]
  constructor
  · rintro ⟨a, present, rfl⟩
    exact ⟨present, rfl⟩
  · rintro ⟨present, number⟩
    exact ⟨entry.1, present, by rw [← number]⟩

theorem items_perm {l m : List α} (same : l.Perm m) : (items l).Perm (items m) := by
  refine (List.perm_ext_iff_of_nodup (nodup_items l) (nodup_items m)).mpr fun entry => ?_
  rw [mem_items, mem_items, same.mem_iff, same.count_eq]

end items

/-- An image occurs once exactly when nothing else has it. -/
theorem count_map_eq_one_iff {β : Type*} [BEq β] [LawfulBEq β] {f : α → β} {l : List α}
    (nodup : l.Nodup) {a : α} (listed : a ∈ l) :
    (l.map f).count (f a) = 1 ↔ ∀ b ∈ l, f b = f a → b = a := by
  have number : (l.map f).count (f a) = (l.filter fun b => f b == f a).length := by
    rw [List.count, List.countP_map, List.countP_eq_length_filter]
    rfl
  have member : ∀ b, b ∈ (l.filter fun b => f b == f a) ↔ b ∈ l ∧ f b = f a := by
    simp
  rw [number, List.length_eq_one_iff]
  constructor
  · rintro ⟨c, single⟩ b other same
    have here := (member a).mpr ⟨listed, rfl⟩
    have there := (member b).mpr ⟨other, same⟩
    rw [single, List.mem_singleton] at here there
    rw [there, here]
  · intro alone
    refine ⟨a, List.perm_singleton.mp ?_⟩
    refine (List.perm_ext_iff_of_nodup (nodup.filter _) (List.nodup_singleton a)).mpr fun b => ?_
    rw [member, List.mem_singleton]
    constructor
    · rintro ⟨other, same⟩
      exact alone b other same
    · rintro rfl
      exact ⟨listed, rfl⟩

/-- Stable, by a key. -/
def sortBy {κ : Type} [LinearOrder κ] (key : α → κ) (l : List α) : List α :=
  l.insertionSort fun a b => key a ≤ key b

theorem sortBy_eq_of_perm {κ : Type} [LinearOrder κ] (key : α → κ) {l m : List α}
    (distinct : ∀ a ∈ l, ∀ b ∈ l, key a = key b → a = b) (same : l.Perm m) :
    sortBy key l = sortBy key m := by
  let below : α → α → Prop := fun a b => key a ≤ key b
  have : Std.Total below := ⟨fun a b => le_total (key a) (key b)⟩
  have : IsTrans α below := ⟨fun _ _ _ => le_trans⟩
  have left : (sortBy key l).Perm l := List.perm_insertionSort below l
  have right : (sortBy key m).Perm m := List.perm_insertionSort below m
  have ascending : ∀ n : List α, (sortBy key n).Pairwise below := List.pairwise_insertionSort below
  refine List.Perm.eq_of_pairwise ?_ (ascending l) (ascending m)
    (left.trans (same.trans right.symm))
  intro a b ha hb hab hba
  exact distinct a (left.mem_iff.mp ha) b
    (same.mem_iff.mpr (right.mem_iff.mp hb)) (le_antisymm hab hba)

/-- A list is put together again from its parts by a key. -/
theorem flatMap_filter_perm {K : Type*} [DecidableEq K] (key : α → K) (l : List α) {keys : List K}
    (distinct : keys.Nodup) :
    (keys.flatMap fun k => l.filter fun a => key a = k).Perm (l.filter fun a => key a ∈ keys) := by
  induction keys with
  | nil => simp
  | cons k keys ih =>
    obtain ⟨fresh, distinct⟩ := List.nodup_cons.mp distinct
    have parts := List.filter_append_perm (fun a => key a = k)
      (l.filter fun a => key a ∈ k :: keys)
    rw [List.filter_filter, List.filter_filter] at parts
    have first : (l.filter fun a => decide (key a = k) && decide (key a ∈ k :: keys)) =
        l.filter fun a => key a = k := by
      refine List.filter_congr fun a _ => ?_
      by_cases same : key a = k <;> simp [same]
    have rest : (l.filter fun a => !decide (key a = k) && decide (key a ∈ k :: keys)) =
        l.filter fun a => key a ∈ keys := by
      refine List.filter_congr fun a _ => ?_
      by_cases same : key a = k <;> simp [same, fresh]
    rw [first, rest] at parts
    exact ((ih distinct).append_left _).trans parts

/-- Two conditions, one under the other, hold equally often where they are the same. -/
theorem countP_eq_iff_of_imp {p q : α → Bool} {l : List α}
    (stronger : ∀ a ∈ l, p a = true → q a = true) :
    l.countP p = l.countP q ↔ ∀ a ∈ l, q a = true → p a = true := by
  induction l with
  | nil => simp
  | cons a rest ih =>
    have tail : ∀ b ∈ rest, p b = true → q b = true :=
      fun b later => stronger b (List.mem_cons_of_mem _ later)
    have fewer : rest.countP p ≤ rest.countP q := List.countP_mono_left tail
    have head := stronger a List.mem_cons_self
    rw [List.forall_mem_cons, ← ih tail, List.countP_cons, List.countP_cons]
    cases first : p a with
    | true =>
      rw [head first]
      simp
    | false =>
      cases second : q a with
      | true =>
        simp only [Bool.false_eq_true, if_false, if_true, imp_false, not_true, false_and, iff_false]
        omega
      | false => simp

/-- Distinct places that all hold what is counted are no more than is counted. -/
theorem length_le_countP {p : α → Bool} {l : List α} {places : List Nat} (distinct : places.Nodup)
    (holds : ∀ i ∈ places, ∃ a, l[i]? = some a ∧ p a = true) : places.length ≤ l.countP p := by
  have within : places ⊆ (l.zipIdx.filter fun pair => p pair.1).map Prod.snd := by
    intro i listed
    obtain ⟨a, found, counted⟩ := holds i listed
    exact List.mem_map.mpr ⟨(a, i), List.mem_filter.mpr
      ⟨List.mk_mem_zipIdx_iff_getElem?.mpr found, counted⟩, rfl⟩
  have fewer := (distinct.subperm within).length_le
  rw [List.length_map, ← List.countP_eq_length_filter] at fewer
  calc places.length ≤ l.zipIdx.countP fun pair => p pair.1 := fewer
    _ = (l.zipIdx.map Prod.fst).countP p := by
      rw [List.countP_map]
      rfl
    _ = l.countP p := by rw [List.zipIdx_map_fst]

section keys

variable {β : Type} [DecidableEq β] {key : α → β} {l : List α} {a : α} (p : α → Bool)

/-- Counting after the entry of a key is replaced. -/
theorem countP_replace (distinct : (l.map key).Nodup) (listed : a ∈ l) (a' : α) :
    (l.map fun b => if key b = key a then a' else b).countP p + (if p a then 1 else 0) =
      l.countP p + if p a' then 1 else 0 := by
  induction l with
  | nil => cases listed
  | cons b rest ih =>
    obtain ⟨fresh, distinct⟩ := List.nodup_cons.mp distinct
    rw [List.map_cons, List.countP_cons, List.countP_cons]
    rcases List.mem_cons.mp listed with rfl | later
    · have kept : (rest.map fun b => if key b = key a then a' else b) = rest := by
        rw [List.map_congr_left (g := id), List.map_id]
        intro b below
        have other : key b ≠ key a := fun same => fresh (same ▸ List.mem_map_of_mem below)
        exact if_neg other
      rw [if_pos rfl, kept]
      omega
    · have other : key b ≠ key a := fun same => fresh (same ▸ List.mem_map_of_mem later)
      have tail := ih distinct later
      rw [if_neg other]
      omega

/-- Counting after the entry of a key is left out. -/
theorem countP_leave_out (distinct : (l.map key).Nodup) (listed : a ∈ l) :
    (l.filter fun b => key b ≠ key a).countP p + (if p a then 1 else 0) = l.countP p := by
  induction l with
  | nil => cases listed
  | cons b rest ih =>
    obtain ⟨fresh, distinct⟩ := List.nodup_cons.mp distinct
    rcases List.mem_cons.mp listed with rfl | later
    · have kept : (rest.filter fun b => key b ≠ key a) = rest := by
        rw [List.filter_eq_self]
        intro b below
        have other : key b ≠ key a := fun same => fresh (same ▸ List.mem_map_of_mem below)
        exact decide_eq_true other
      rw [List.filter_cons_of_neg (by simp), kept, List.countP_cons]
    · have other : key b ≠ key a := fun same => fresh (same ▸ List.mem_map_of_mem later)
      have tail := ih distinct later
      rw [List.filter_cons_of_pos (by simpa using other), List.countP_cons, List.countP_cons]
      omega

end keys

end Counting
