import Mathlib.Data.List.Basic

/-!
# Cutting a text that arrives in chunks

A cutter takes the first complete piece off a buffer. It is stable: what it has
cut does not change when more text arrives. Draining a buffer hands every
complete piece to a consumer and keeps the rest. For a stable cutter, draining
chunk by chunk is draining the whole text.
-/

namespace Cutting

universe u v w z

/-- A stable way of taking the first complete piece off a buffer. -/
structure Cutter (α : Type u) where
  cut : List α → Option (List α × List α)
  shrinks : ∀ {b p r}, cut b = some (p, r) → r.length < b.length
  stable : ∀ {b p r}, cut b = some (p, r) → ∀ more, cut (b ++ more) = some (p, r ++ more)

variable {α : Type u} {σ : Type v} {ε : Type w} {β : Type z}

/-- What draining leaves: the uncut rest, the consumer's state and its output. -/
structure Drained (α : Type u) (σ : Type v) (β : Type z) where
  rest : List α
  state : σ
  output : List β

def Drained.after (out : List β) (d : Drained α σ β) : Drained α σ β :=
  { d with output := out ++ d.output }

/-- Hand every complete piece to the consumer, in order, until one is refused. -/
def drain (C : Cutter α) (consume : σ → List α → Except ε (σ × List β)) (b : List α)
    (s : σ) : Except ε (Drained α σ β) :=
  match _h : C.cut b with
  | none => .ok ⟨b, s, []⟩
  | some (p, r) =>
    match consume s p with
    | .error e => .error e
    | .ok (t, out) => (drain C consume r t).map (Drained.after out)
termination_by b.length
decreasing_by exact C.shrinks _h

variable {C : Cutter α} {consume : σ → List α → Except ε (σ × List β)}

theorem drain_none {b : List α} (s : σ) (h : C.cut b = none) :
    drain C consume b s = .ok ⟨b, s, []⟩ := by
  rw [drain]
  split
  · rfl
  · rename_i p r hp
    rw [h] at hp
    cases hp

theorem drain_some {b p r : List α} (s : σ) (h : C.cut b = some (p, r)) :
    drain C consume b s = match consume s p with
      | .error e => .error e
      | .ok (t, out) => (drain C consume r t).map (Drained.after out) := by
  rw [drain]
  split
  · rename_i hn
    rw [h] at hn
    cases hn
  · rename_i p' r' hp
    rw [h] at hp
    cases hp
    rfl

/-- A drained buffer that held a complete piece was drained past that piece. -/
theorem drain_ok_some {b p r : List α} {s : σ} {d : Drained α σ β} (h : C.cut b = some (p, r))
    (drained : drain C consume b s = .ok d) :
    ∃ t out d', consume s p = .ok (t, out) ∧ drain C consume r t = .ok d' ∧
      d = d'.after out := by
  rw [drain_some s h] at drained
  cases ht : consume s p with
  | error e => simp [ht] at drained
  | ok next =>
    obtain ⟨t, out⟩ := next
    cases hr : drain C consume r t with
    | error e => simp [ht, hr, Except.map] at drained
    | ok d' =>
      simp only [ht, hr, Except.map, Except.ok.injEq] at drained
      exact ⟨t, out, d', rfl, hr, drained.symm⟩

/-- Draining a longer buffer is draining the shorter one, then draining what
was left together with what came after. -/
theorem drain_append (b more : List α) (s : σ) :
    drain C consume (b ++ more) s =
      match drain C consume b s with
      | .error e => .error e
      | .ok d => (drain C consume (d.rest ++ more) d.state).map (Drained.after d.output) := by
  induction hn : b.length using Nat.strongRecOn generalizing b s with
  | ind n ih =>
    cases hc : C.cut b with
    | none =>
      simp only [drain_none s hc]
      cases drain C consume (b ++ more) s with
      | error e => rfl
      | ok d => rfl
    | some piece =>
      obtain ⟨p, r⟩ := piece
      rw [drain_some s hc, drain_some s (C.stable hc more)]
      cases ht : consume s p with
      | error e => rfl
      | ok next =>
        obtain ⟨t, out⟩ := next
        have tail := ih r.length (hn ▸ C.shrinks hc) r t rfl
        simp only [tail]
        cases hr : drain C consume r t with
        | error e => rfl
        | ok d =>
          simp only [Except.map, Drained.after]
          cases drain C consume (d.rest ++ more) d.state with
          | error e => rfl
          | ok d' => simp

/-- A text that drains has prefixes that drain. -/
theorem drain_prefix {b more : List α} {s : σ} {d : Drained α σ β}
    (h : drain C consume (b ++ more) s = .ok d) : ∃ d', drain C consume b s = .ok d' := by
  rw [drain_append] at h
  cases hb : drain C consume b s with
  | error e => simp [hb] at h
  | ok d' => exact ⟨d', rfl⟩

/-- What no piece is cut from any more; it does not depend on the consumer. -/
def rest (C : Cutter α) (b : List α) : List α :=
  match _h : C.cut b with
  | none => b
  | some (_, r) => rest C r
termination_by b.length
decreasing_by exact C.shrinks _h

theorem rest_none {b : List α} (h : C.cut b = none) : rest C b = b := by
  rw [rest]
  split
  · rfl
  · rename_i hp
    rw [h] at hp
    cases hp

theorem rest_some {b p r : List α} (h : C.cut b = some (p, r)) : rest C b = rest C r := by
  rw [rest]
  split
  · rename_i hn
    rw [h] at hn
    cases hn
  · rename_i p' r' hp
    rw [h] at hp
    cases hp
    rfl

theorem rest_uncut (b : List α) : C.cut (rest C b) = none := by
  induction hn : b.length using Nat.strongRecOn generalizing b with
  | ind n ih =>
    cases hc : C.cut b with
    | none => rw [rest_none hc, hc]
    | some piece =>
      obtain ⟨p, r⟩ := piece
      rw [rest_some hc]
      exact ih r.length (hn ▸ C.shrinks hc) r rfl

theorem rest_append (b more : List α) : rest C (b ++ more) = rest C (rest C b ++ more) := by
  induction hn : b.length using Nat.strongRecOn generalizing b with
  | ind n ih =>
    cases hc : C.cut b with
    | none => rw [rest_none hc]
    | some piece =>
      obtain ⟨p, r⟩ := piece
      rw [rest_some hc, rest_some (C.stable hc more)]
      exact ih r.length (hn ▸ C.shrinks hc) r rfl

theorem drain_rest {b : List α} {s : σ} {d : Drained α σ β}
    (h : drain C consume b s = .ok d) : d.rest = rest C b := by
  induction hn : b.length using Nat.strongRecOn generalizing b s d with
  | ind n ih =>
    cases hc : C.cut b with
    | none =>
      rw [drain_none s hc] at h
      cases h
      exact (rest_none hc).symm
    | some piece =>
      obtain ⟨p, r⟩ := piece
      obtain ⟨t, out, d', -, hr, rfl⟩ := drain_ok_some hc h
      have tail : d'.rest = rest C r := ih r.length (hn ▸ C.shrinks hc) hr rfl
      rw [rest_some hc]
      exact tail

end Cutting
