import Mathlib.Algebra.BigOperators.Group.List.Basic
import Mathlib.Algebra.GroupWithZero.Nat

/-!
# Breadth-first walks of finite trees

A tree is given by the children of a node and a size that bounds the children's
sizes together. The walk keeps a queue; given as much fuel as the queue's
nodes weigh, it visits exactly the nodes that occur below the queue.
-/

namespace Walk

universe u

/-- A finitely branching tree whose nodes weigh more than their children. -/
structure Tree (N : Type u) where
  children : N → List N
  size : N → Nat
  smaller : ∀ n, ((children n).map size).sum < size n

variable {N : Type u} (T : Tree N)

/-- `m` is the root of the tree at `n`, or occurs below one of its children. -/
inductive Occurs (m : N) : N → Prop
  | here : Occurs m m
  | under {n c : N} : c ∈ T.children n → Occurs m c → Occurs m n

/-- `m` occurs in the tree at `n`, strictly below its root. -/
def Inside (m n : N) : Prop := ∃ c ∈ T.children n, Occurs T m c

def bfs : Nat → List N → List N
  | 0, _ => []
  | _ + 1, [] => []
  | fuel + 1, n :: queue => n :: bfs fuel (queue ++ T.children n)

def walk (n : N) : List N := bfs T (T.size n) [n]

theorem occurs_iff {m n : N} : Occurs T m n ↔ m = n ∨ Inside T m n := by
  constructor
  · intro h
    cases h with
    | here => exact Or.inl rfl
    | under hc ho => exact Or.inr ⟨_, hc, ho⟩
  · rintro (rfl | ⟨c, hc, ho⟩)
    · exact .here
    · exact .under hc ho

variable {T} in
theorem Occurs.trans {m k n : N} (lower : Occurs T m k) (upper : Occurs T k n) : Occurs T m n := by
  induction upper with
  | here => exact lower
  | under child _ ih => exact .under child ih

theorem mem_bfs (fuel : Nat) (queue : List N) (enough : (queue.map T.size).sum ≤ fuel) (m : N) :
    m ∈ bfs T fuel queue ↔ ∃ n ∈ queue, Occurs T m n := by
  induction fuel generalizing queue with
  | zero =>
    cases queue with
    | nil => simp [bfs]
    | cons n queue =>
      have := T.smaller n
      simp only [List.map_cons, List.sum_cons] at enough
      omega
  | succ fuel ih =>
    cases queue with
    | nil => simp [bfs]
    | cons n queue =>
      have weight := T.smaller n
      have lighter : ((queue ++ T.children n).map T.size).sum ≤ fuel := by
        simp only [List.map_cons, List.sum_cons, List.map_append, List.sum_append] at enough ⊢
        omega
      simp only [bfs, List.mem_cons, ih _ lighter, List.mem_append, exists_eq_or_imp,
        occurs_iff T (n := n)]
      constructor
      · rintro (rfl | ⟨c, hc | hc, ho⟩)
        · exact Or.inl (Or.inl rfl)
        · exact Or.inr ⟨c, hc, ho⟩
        · exact Or.inl (Or.inr ⟨c, hc, ho⟩)
      · rintro ((rfl | ⟨c, hc, ho⟩) | ⟨c, hc, ho⟩)
        · exact Or.inl rfl
        · exact Or.inr ⟨c, Or.inr hc, ho⟩
        · exact Or.inr ⟨c, Or.inl hc, ho⟩

theorem mem_walk {m n : N} : m ∈ walk T n ↔ Occurs T m n := by
  rw [walk, mem_bfs T _ _ (by simp)]
  simp

end Walk
