import Mathlib.Data.List.Basic

/-!
# Runs of a labelled step function

A step function may refuse a label. A run is a list of labels none of which is
refused. What a step preserves, a run preserves; a measure that some labels
spend bounds how often those labels occur.
-/

namespace Runs

universe u v

variable {State : Type u} {Label : Type v} {step : State → Label → Option State}

/-- Take the labels in order. One refused label refuses the whole run. -/
def run (step : State → Label → Option State) : State → List Label → Option State
  | s, [] => some s
  | s, a :: rest => (step s a).bind fun t => run step t rest

/-- Every step of the run satisfies `ok` at the state it is taken from. -/
def Along (step : State → Label → Option State) (ok : State → Label → Prop) :
    State → List Label → Prop
  | _, [] => True
  | s, a :: rest => ok s a ∧ ∀ t, step s a = some t → Along step ok t rest

theorem run_cons_some {s u : State} {a : Label} {rest : List Label} :
    run step s (a :: rest) = some u ↔ ∃ t, step s a = some t ∧ run step t rest = some u := by
  simp only [run, Option.bind_eq_some_iff]

theorem run_append_some {s u : State} {first rest : List Label} :
    run step s (first ++ rest) = some u ↔
      ∃ t, run step s first = some t ∧ run step t rest = some u := by
  induction first generalizing s with
  | nil => simp [run]
  | cons a more ih =>
    rw [List.cons_append, run_cons_some]
    constructor
    · rintro ⟨t, ht, hu⟩
      obtain ⟨v, hv, hw⟩ := ih.mp hu
      exact ⟨v, run_cons_some.mpr ⟨t, ht, hv⟩, hw⟩
    · rintro ⟨v, hv, hw⟩
      obtain ⟨t, ht, hu⟩ := run_cons_some.mp hv
      exact ⟨t, ht, ih.mpr ⟨v, hu, hw⟩⟩

/-- What is required along a run is required along what is left of it. -/
theorem along_append {ok : State → Label → Prop} {s t : State} {first rest : List Label}
    (along : Along step ok s (first ++ rest)) (reached : run step s first = some t) :
    Along step ok t rest := by
  induction first generalizing s with
  | nil => exact Option.some.inj reached ▸ along
  | cons a more ih =>
    obtain ⟨v, hv, hw⟩ := run_cons_some.mp reached
    exact ih (along.2 v hv) hw

theorem along_first {ok : State → Label → Prop} {s : State} {first rest : List Label}
    (along : Along step ok s (first ++ rest)) : Along step ok s first := by
  induction first generalizing s with
  | nil => trivial
  | cons a more ih => exact ⟨along.1, fun t ht => ih (along.2 t ht)⟩

theorem along_cons {ok : State → Label → Prop} {s t : State} {a : Label} {rest : List Label}
    (taken : step s a = some t) (first : ok s a) (later : Along step ok t rest) :
    Along step ok s (a :: rest) := by
  refine ⟨first, ?_⟩
  intro v hv
  exact Option.some.inj (taken.symm.trans hv) ▸ later

theorem along_of_forall {ok : Label → Prop} {s : State} {labels : List Label}
    (all : ∀ a ∈ labels, ok a) : Along step (fun _ a => ok a) s labels := by
  induction labels generalizing s with
  | nil => trivial
  | cons a rest ih =>
    refine ⟨all a List.mem_cons_self, ?_⟩
    intro t _
    exact ih fun b hb => all b (List.mem_cons_of_mem _ hb)

/-- The invariant rule, for runs all of whose steps satisfy `ok`. -/
theorem invariant_along {ok : State → Label → Prop} (Inv : State → Prop)
    (preserved : ∀ s a t, Inv s → ok s a → step s a = some t → Inv t)
    {s u : State} {labels : List Label} (start : Inv s)
    (along : Along step ok s labels) (reached : run step s labels = some u) : Inv u := by
  induction labels generalizing s with
  | nil => exact Option.some.inj reached ▸ start
  | cons a rest ih =>
    obtain ⟨t, ht, hu⟩ := run_cons_some.mp reached
    exact ih (preserved s a t start along.1 ht) (along.2 t ht) hu

/-- The invariant rule with no condition on the steps. -/
theorem invariant (Inv : State → Prop)
    (preserved : ∀ s a t, Inv s → step s a = some t → Inv t)
    {s u : State} {labels : List Label} (start : Inv s)
    (reached : run step s labels = some u) : Inv u := by
  induction labels generalizing s with
  | nil => exact Option.some.inj reached ▸ start
  | cons a rest ih =>
    obtain ⟨t, ht, hu⟩ := run_cons_some.mp reached
    exact ih (preserved s a t start ht) hu

/-- A measure that every `paid` label lowers, and that only `earning` labels
raise, bounds the number of paid labels in a run. -/
theorem paid_steps_le (cost : State → Nat) (paid earning : Label → Bool)
    (spends : ∀ s a t, step s a = some t →
      cost t + (if paid a then 1 else 0) ≤ cost s + (if earning a then 1 else 0))
    {s u : State} {labels : List Label} (reached : run step s labels = some u) :
    cost u + labels.countP paid ≤ cost s + labels.countP earning := by
  induction labels generalizing s with
  | nil =>
    cases reached
    simp
  | cons a rest ih =>
    obtain ⟨t, ht, hu⟩ := run_cons_some.mp reached
    have first := spends s a t ht
    have tail := ih hu
    rw [List.countP_cons, List.countP_cons]
    omega

/-- A count that stays under an allowed step and grows under any other has not
grown exactly when every step of the run was allowed. -/
theorem count_eq_iff_along {ok : State → Label → Prop} (Inv : State → Prop)
    (preserved : ∀ s a t, Inv s → step s a = some t → Inv t) (count : State → Nat)
    (stays : ∀ s a t, Inv s → step s a = some t → ok s a → count t = count s)
    (grows : ∀ s a t, Inv s → step s a = some t → ¬ok s a → count s < count t)
    {s u : State} {labels : List Label} (start : Inv s) (reached : run step s labels = some u) :
    count s ≤ count u ∧ (count u = count s ↔ Along step ok s labels) := by
  induction labels generalizing s with
  | nil =>
    cases reached
    simp [Along]
  | cons a rest ih =>
    obtain ⟨t, ht, hu⟩ := run_cons_some.mp reached
    obtain ⟨low, iff⟩ := ih (preserved s a t start ht) hu
    by_cases allowed : ok s a
    · have same := stays s a t start ht allowed
      refine ⟨by omega, ?_⟩
      rw [← same, iff, Along]
      constructor
      · intro along
        refine ⟨allowed, ?_⟩
        intro t' ht'
        exact Option.some.inj (ht.symm.trans ht') ▸ along
      · rintro ⟨-, along⟩
        exact along t ht
    · have more := grows s a t start ht allowed
      refine ⟨by omega, ?_⟩
      constructor
      · intro same
        omega
      · rintro ⟨along, -⟩
        exact absurd along allowed

end Runs
