import Mathlib.Data.List.Basic

/-!
# Lists joined by a separator

Splitting what was joined gives the pieces of every part in turn, so a part keeps
to one piece exactly when the separator is not in it.
-/

namespace Lines

universe u

variable {α : Type u}

/-- The run at the front of a list that is followed by nothing of it. -/
theorem takeWhile_stops {p : α → Bool} {first rest : List α}
    (all : ∀ c ∈ first, p c = true) (stop : ∀ c ∈ rest.head?, p c = false) :
    (first ++ rest).takeWhile p = first ∧ (first ++ rest).dropWhile p = rest := by
  rw [List.takeWhile_append_of_pos all, List.dropWhile_append_of_pos all]
  cases rest with
  | nil => simp
  | cons c rest =>
    have other : p c = false := stop c rfl
    simp [other]

/-- What is in joined parts is in one of them, or in what joins them. -/
theorem mem_of_mem_intercalate {sep : List α} {parts : List (List α)} {x : α}
    (inside : x ∈ sep.intercalate parts) : x ∈ sep ∨ ∃ part ∈ parts, x ∈ part := by
  induction parts with
  | nil => simp at inside
  | cons part rest ih =>
    cases rest with
    | nil => exact .inr ⟨part, List.mem_cons_self, by simpa using inside⟩
    | cons next more =>
      rw [List.intercalate_cons_cons, List.mem_append, List.mem_append] at inside
      rcases inside with (first | between) | later
      · exact .inr ⟨part, List.mem_cons_self, first⟩
      · exact .inl between
      · rcases ih later with between | ⟨other, listed, found⟩
        · exact .inl between
        · exact .inr ⟨other, List.mem_cons_of_mem _ listed, found⟩

/-- No piece contains what a list is split at. -/
theorem not_of_mem_splitOnP {p : α → Bool} {whole piece : List α}
    (listed : piece ∈ whole.splitOnP p) : ∀ x ∈ piece, p x = false := by
  induction whole generalizing piece with
  | nil =>
    rw [List.splitOnP_nil, List.mem_singleton] at listed
    simp [listed]
  | cons a rest ih =>
    rw [List.splitOnP_cons_eq_if_modifyHead] at listed
    split at listed
    · rcases List.mem_cons.mp listed with rfl | later
      · simp
      · exact ih later
    · rename_i kept
      obtain ⟨head, tail, pieces⟩ := List.exists_cons_of_ne_nil (List.splitOnP_ne_nil p rest)
      rw [pieces, List.modifyHead_cons] at listed
      rcases List.mem_cons.mp listed with rfl | later
      · intro x inside
        rcases List.mem_cons.mp inside with rfl | inside
        · simpa using kept
        · exact ih (pieces ▸ List.mem_cons_self) x inside
      · exact ih (pieces ▸ List.mem_cons_of_mem _ later)

variable [BEq α] [LawfulBEq α]

theorem splitOn_append_cons (sep : α) (part rest : List α) :
    (part ++ sep :: rest).splitOn sep = part.splitOn sep ++ rest.splitOn sep :=
  List.splitOn_append_cons_self part rest

/-- The pieces of joined parts are those of each part in turn. -/
theorem splitOn_intercalate (sep : α) {parts : List (List α)} (some : parts ≠ []) :
    ([sep].intercalate parts).splitOn sep = parts.flatMap fun part => part.splitOn sep := by
  induction parts with
  | nil => exact absurd rfl some
  | cons part rest ih =>
    cases rest with
    | nil => simp
    | cons next more =>
      rw [List.intercalate_cons_cons, List.append_assoc, List.singleton_append,
        splitOn_append_cons, ih (List.cons_ne_nil _ _)]
      rfl

theorem splitOn_eq_singleton_iff {sep : α} {part : List α} :
    part.splitOn sep = [part] ↔ sep ∉ part := by
  refine ⟨fun single inside => ?_, List.splitOn_eq_singleton⟩
  obtain ⟨before, after, rfl⟩ := List.append_of_mem inside
  have pieces := congrArg List.length single
  rw [splitOn_append_cons, List.length_append, List.length_singleton] at pieces
  have first := List.length_pos_of_ne_nil (List.splitOn_ne_nil sep before)
  have second := List.length_pos_of_ne_nil (List.splitOn_ne_nil sep after)
  omega

theorem length_splitOn_eq_one_iff {sep : α} {part : List α} :
    (part.splitOn sep).length = 1 ↔ sep ∉ part := by
  refine ⟨fun one => ?_, fun outside => ?_⟩
  · obtain ⟨piece, single⟩ := List.length_eq_one_iff.mp one
    have joined : [sep].intercalate (part.splitOn sep) = part := List.intercalate_splitOn sep
    rw [single, List.intercalate_singleton] at joined
    exact splitOn_eq_singleton_iff.mp (joined ▸ single)
  · rw [splitOn_eq_singleton_iff.mpr outside]
    rfl

end Lines
