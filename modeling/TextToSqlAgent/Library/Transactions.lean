import Mathlib.Data.List.Basic

/-!
# Computations with a state that survives failure

A computation that fails leaves the state it had reached. A transaction puts
back the part of it that it covers.
-/

namespace Transactions

universe u

variable {ε σ α β : Type u} {s t : σ}

theorem bind_ok_iff {x : EStateM ε σ α} {f : α → EStateM ε σ β} {b : β} :
    (x >>= f) s = .ok b t ↔ ∃ a u, x s = .ok a u ∧ f a u = .ok b t := by
  change EStateM.bind x f s = _ ↔ _
  rw [EStateM.bind]
  cases x s with
  | ok a u =>
    constructor
    · intro same
      exact ⟨a, u, rfl, same⟩
    · rintro ⟨c, v, reached, same⟩
      obtain ⟨rfl, rfl⟩ := EStateM.Result.ok.inj reached
      exact same
  | error e u => exact ⟨nofun, nofun⟩

theorem bind_error_iff {x : EStateM ε σ α} {f : α → EStateM ε σ β} {e : ε} :
    (x >>= f) s = .error e t ↔
      x s = .error e t ∨ ∃ a u, x s = .ok a u ∧ f a u = .error e t := by
  change EStateM.bind x f s = _ ↔ _
  rw [EStateM.bind]
  cases x s with
  | ok a u =>
    constructor
    · intro same
      exact Or.inr ⟨a, u, rfl, same⟩
    · rintro (same | ⟨c, v, reached, same⟩)
      · cases same
      · obtain ⟨rfl, rfl⟩ := EStateM.Result.ok.inj reached
        exact same
  | error d u =>
    constructor
    · intro same
      obtain ⟨rfl, rfl⟩ := EStateM.Result.error.inj same
      exact Or.inl rfl
    · rintro (same | ⟨c, v, reached, -⟩)
      · obtain ⟨rfl, rfl⟩ := EStateM.Result.error.inj same
        rfl
      · cases reached

/-- A computation that does not touch the state. -/
def lift (x : Except ε α) : EStateM ε σ α := fun s =>
  match x with
  | .ok a => .ok a s
  | .error e => .error e s

theorem lift_ok_iff {x : Except ε α} {a : α} : lift x s = .ok a t ↔ x = .ok a ∧ t = s := by
  cases x with
  | ok b =>
    constructor
    · intro same
      obtain ⟨rfl, rfl⟩ := EStateM.Result.ok.inj same
      exact ⟨rfl, rfl⟩
    · rintro ⟨same, rfl⟩
      rw [Except.ok.inj same]
      rfl
  | error d => exact ⟨nofun, nofun⟩

theorem lift_error_iff {x : Except ε α} {e : ε} : lift x s = .error e t ↔ x = .error e ∧ t = s := by
  cases x with
  | ok b => exact ⟨nofun, nofun⟩
  | error d =>
    constructor
    · intro same
      obtain ⟨rfl, rfl⟩ := EStateM.Result.error.inj same
      exact ⟨rfl, rfl⟩
    · rintro ⟨same, rfl⟩
      rw [Except.error.inj same]
      rfl

/-- The body, and `undo before after` for the state after it has failed. -/
def atomically (undo : σ → σ → σ) (body : EStateM ε σ α) : EStateM ε σ α := fun s =>
  match body s with
  | .ok a t => .ok a t
  | .error e t => .error e (undo s t)

theorem atomically_ok_iff {undo : σ → σ → σ} {body : EStateM ε σ α} {a : α} :
    atomically undo body s = .ok a t ↔ body s = .ok a t := by
  rw [atomically]
  cases body s with
  | ok b u => exact Iff.rfl
  | error e u => exact ⟨nofun, nofun⟩

theorem atomically_error_iff {undo : σ → σ → σ} {body : EStateM ε σ α} {e : ε} :
    atomically undo body s = .error e t ↔ ∃ u, body s = .error e u ∧ t = undo s u := by
  rw [atomically]
  cases body s with
  | ok b u =>
    constructor
    · nofun
    · rintro ⟨v, reached, -⟩
      cases reached
  | error d u =>
    constructor
    · intro same
      obtain ⟨rfl, rfl⟩ := EStateM.Result.error.inj same
      exact ⟨u, rfl, rfl⟩
    · rintro ⟨v, reached, rfl⟩
      obtain ⟨rfl, rfl⟩ := EStateM.Result.error.inj reached
      rfl

/-- The invariant rule of a loop over a list, which relates the entries done and
their results to the state. -/
theorem mapM_invariant {f : α → EStateM ε σ β} (Inv : List α → List β → σ → Prop)
    {l : List α} {bs : List β} (start : Inv [] [] s)
    (preserved : ∀ done results u a b v, (∃ rest, l = done ++ a :: rest) → Inv done results u →
      f a u = .ok b v → Inv (done ++ [a]) (results ++ [b]) v)
    (reached : l.mapM f s = .ok bs t) : Inv l bs t := by
  suffices from_ : ∀ todo done results u, l = done ++ todo → Inv done results u →
      ∀ bs t, todo.mapM f u = .ok bs t → Inv l (results ++ bs) t by
    exact from_ l [] [] s rfl start bs t reached
  intro todo
  induction todo with
  | nil =>
    intro done results u whole holds bs t reached
    obtain ⟨rfl, rfl⟩ := EStateM.Result.ok.inj reached
    rw [whole, List.append_nil]
    simpa using holds
  | cons a rest ih =>
    intro done results u whole holds bs t reached
    rw [List.mapM_cons] at reached
    obtain ⟨b, v, first, reached⟩ := bind_ok_iff.mp reached
    obtain ⟨more, w, later, last⟩ := bind_ok_iff.mp reached
    obtain ⟨rfl, rfl⟩ := EStateM.Result.ok.inj last
    have next := ih (done ++ [a]) (results ++ [b]) v (by rw [whole, List.append_assoc]; rfl)
      (preserved done results u a b v ⟨rest, whole⟩ holds first) more w later
    rwa [List.append_assoc] at next

end Transactions
