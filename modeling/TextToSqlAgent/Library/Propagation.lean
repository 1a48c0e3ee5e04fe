import Mathlib.Order.Basic

/-!
# One pass of propagation over links

Every vertex has a level, and a link raises the lower of its two sides to the
level of the other where the side fits it. A pass takes each link once, in some
order. It reaches the same levels in every order, and leaves no link anything to
raise, exactly when every vertex ends with its own first level or one that a
neighbour had at first.
-/

namespace Propagation

universe u v

variable {K : Type u} {T : Type v} [PartialOrder T]

open Classical in
/-- The level of a side after a link with a vertex of another level. -/
noncomputable def raise (fits : K → T → Prop) (k : K) (own other : T) : T :=
  if own < other ∧ fits k other then other else own

open Classical in
/-- One link, taken. -/
noncomputable def step (fits : K → T → Prop) (level : K → T) (link : K × K) : K → T := fun k =>
  if k = link.1 then raise fits k (level k) (level link.2)
  else if k = link.2 then raise fits k (level k) (level link.1)
  else level k

/-- Every link, taken in turn. -/
noncomputable def pass (fits : K → T → Prop) (level : K → T) (links : List (K × K)) : K → T :=
  links.foldl (step fits) level

/-- No link has anything left to raise. -/
def Stable (fits : K → T → Prop) (links : List (K × K)) (level : K → T) : Prop :=
  ∀ link ∈ links, step fits level link = level

def Linked (links : List (K × K)) (a b : K) : Prop := (a, b) ∈ links ∨ (b, a) ∈ links

/-- What one round of raising against the first levels makes, with nothing left
to raise. -/
structure OneRound (fits : K → T → Prop) (first : K → T) (links : List (K × K))
    (last : K → T) : Prop where
  stable : Stable fits links last
  near : ∀ k, last k = first k ∨ ∃ other, Linked links k other ∧
    last k = raise fits k (first k) (first other)

/-- Levels above one level are comparable, and a vertex that fits a level above
another fits every higher one. -/
structure Lawful (fits : K → T → Prop) : Prop where
  chain : ∀ x y z : T, x ≤ y → x ≤ z → y ≤ z ∨ z ≤ y
  upward : ∀ k x y z, x < y → y ≤ z → fits k y → fits k z

variable {fits : K → T → Prop} {links : List (K × K)}

/-! ## One link -/

theorem le_raise (k : K) (x y : T) : x ≤ raise fits k x y := by
  rw [raise]
  split
  · rename_i raised
    exact raised.1.le
  · exact le_rfl

theorem raise_self (k : K) (x : T) : raise fits k x x = x := if_neg fun raised => raised.1.ne rfl

theorem raise_eq_or (fits : K → T → Prop) (k : K) (x y : T) : raise fits k x y = x ∨
    x < y ∧ fits k y ∧ raise fits k x y = y := by
  rw [raise]
  split
  · rename_i raised
    exact Or.inr ⟨raised.1, raised.2, rfl⟩
  · exact Or.inl rfl

theorem raise_mono (lawful : Lawful fits) {k : K} {x x' y y' : T} (own : x ≤ x')
    (other : y ≤ y') : raise fits k x y ≤ raise fits k x' y' := by
  rcases raise_eq_or fits k x y with same | ⟨below, fit, same⟩
  · rw [same]
    exact own.trans (le_raise k x' y')
  · rw [same]
    rcases lawful.chain x x' y' own (below.le.trans other) with least | most
    · rcases least.lt_or_eq with higher | equal
      · rw [raise, if_pos ⟨higher, lawful.upward k x y y' below other fit⟩]
        exact other
      · rw [← equal, raise_self, equal]
        exact other
    · exact (other.trans most).trans (le_raise k x' y')

theorem le_step (fits : K → T → Prop) (level : K → T) (link : K × K) :
    level ≤ step fits level link := by
  intro k
  rw [step]
  split_ifs
  · exact le_raise k _ _
  · exact le_raise k _ _
  · exact le_rfl

theorem step_mono (lawful : Lawful fits) {level level' : K → T} (below : level ≤ level')
    (link : K × K) : step fits level link ≤ step fits level' link := by
  intro k
  rw [step, step]
  split_ifs
  · exact raise_mono lawful (below k) (below link.2)
  · exact raise_mono lawful (below k) (below link.1)
  · exact below k

/-- What a link brings to either side. -/
theorem raise_le_step {level : K → T} {link : K × K} {k other : K}
    (linked : link = (k, other) ∨ link = (other, k)) :
    raise fits k (level k) (level other) ≤ step fits level link k := by
  rcases linked with rfl | rfl
  · rw [step, if_pos rfl]
  · by_cases same : k = other
    · subst same
      rw [step, if_pos rfl]
    · rw [step, if_neg same, if_pos rfl]

/-! ## A pass -/

theorem pass_cons (level : K → T) (link : K × K) (rest : List (K × K)) :
    pass fits level (link :: rest) = pass fits (step fits level link) rest := rfl

theorem pass_append (level : K → T) (links rest : List (K × K)) :
    pass fits level (links ++ rest) = pass fits (pass fits level links) rest :=
  List.foldl_append

theorem le_pass (fits : K → T → Prop) (level : K → T) (links : List (K × K)) :
    level ≤ pass fits level links := by
  induction links generalizing level with
  | nil => exact le_rfl
  | cons link rest ih => exact (le_step fits level link).trans (ih _)

/-- A pass stays below what has nothing left to raise. -/
theorem pass_le_of_stable (lawful : Lawful fits) {level bound : K → T}
    (stable : Stable fits links bound) (below : level ≤ bound) :
    pass fits level links ≤ bound := by
  induction links generalizing level with
  | nil => exact below
  | cons link rest ih =>
    refine ih (fun other later => stable other (List.mem_cons_of_mem _ later)) ?_
    have next := step_mono lawful below link
    rw [stable link List.mem_cons_self] at next
    exact next

/-- A pass brings every vertex what its neighbours had at first. -/
theorem raise_le_pass (lawful : Lawful fits) {level : K → T} {k other : K}
    (linked : Linked links k other) :
    raise fits k (level k) (level other) ≤ pass fits level links k := by
  obtain ⟨link, listed, sides⟩ :
      ∃ link ∈ links, link = (k, other) ∨ link = (other, k) := by
    rcases linked with there | there
    · exact ⟨_, there, Or.inl rfl⟩
    · exact ⟨_, there, Or.inr rfl⟩
  obtain ⟨before, after, rfl⟩ := List.append_of_mem listed
  have start := le_pass fits level before
  rw [pass_append, pass_cons]
  calc raise fits k (level k) (level other)
      ≤ raise fits k (pass fits level before k) (pass fits level before other) :=
        raise_mono lawful (start k) (start other)
    _ ≤ step fits (pass fits level before) link k := raise_le_step sides
    _ ≤ pass fits (step fits (pass fits level before) link) after k := le_pass fits _ _ k

theorem pass_eq_of_stable {level : K → T} (stable : Stable fits links level) :
    pass fits level links = level := by
  induction links with
  | nil => rfl
  | cons link rest ih =>
    rw [pass_cons, stable link List.mem_cons_self]
    exact ih fun other later => stable other (List.mem_cons_of_mem _ later)

/-- A pass that changes nothing has nothing to raise at any of its links. -/
theorem stable_of_pass_eq {level : K → T} (same : pass fits level links = level) :
    Stable fits links level := by
  induction links with
  | nil => exact fun link listed => absurd listed List.not_mem_nil
  | cons link rest ih =>
    rw [pass_cons] at same
    have kept : step fits level link = level :=
      le_antisymm ((le_pass fits _ rest).trans same.le) (le_step fits level link)
    rw [kept] at same
    exact List.forall_mem_cons.mpr ⟨kept, ih same⟩

/-- Where one round is enough, a pass in any order ends with it. -/
theorem OneRound.pass_eq {first last : K → T} (lawful : Lawful fits)
    (round : OneRound fits first links last) {order : List (K × K)} (perm : order.Perm links) :
    pass fits first order = last := by
  have above : first ≤ last := by
    intro k
    rcases round.near k with same | ⟨other, -, same⟩
    · exact same.ge
    · exact same ▸ le_raise k _ _
  apply le_antisymm
  · exact pass_le_of_stable lawful (fun link listed =>
      round.stable link (perm.mem_iff.mp listed)) above
  · intro k
    rcases round.near k with same | ⟨other, linked, same⟩
    · exact same ▸ le_pass fits first order k
    · rw [same]
      refine raise_le_pass lawful ?_
      exact linked.imp perm.mem_iff.mpr perm.mem_iff.mpr

/-! ## Where one round is not enough -/

/-- What a vertex can have by its own links: its first level, or one that a
neighbour had at first; and no neighbour has got above it. -/
structure Beside (fits : K → T → Prop) (first : K → T) (links : List (K × K)) (k : K)
    (level : K → T) : Prop where
  above : first k ≤ level k
  near : level k = first k ∨ ∃ other, Linked links k other ∧
    level k = raise fits k (first k) (first other)
  behind : ∀ other, level other = first other ∨ level other ≤ level k

theorem Beside.step {first level : K → T} {k : K} (beside : Beside fits first links k level)
    {link : K × K} (listed : link ∈ links) (own : link.1 = k ∨ link.2 = k) :
    Beside fits first links k (step fits level link) := by
  obtain ⟨other, sides⟩ : ∃ other, link = (k, other) ∨ link = (other, k) := by
    rcases own with rfl | rfl
    · exact ⟨link.2, Or.inl rfl⟩
    · exact ⟨link.1, Or.inr rfl⟩
  have linked : Linked links k other := by
    rcases sides with rfl | rfl
    · exact Or.inl listed
    · exact Or.inr listed
  have here : Propagation.step fits level link k = raise fits k (level k) (level other) := by
    rcases sides with rfl | rfl
    · exact if_pos rfl
    · by_cases same : k = other
      · subst same
        exact if_pos rfl
      · rw [Propagation.step, if_neg same, if_pos rfl]
  have there (vertex : K) (apart : vertex ≠ k) : Propagation.step fits level link vertex =
      level vertex ∨ Propagation.step fits level link vertex = level k := by
    have pulled := raise_eq_or fits vertex (level vertex) (level k)
    rcases sides with rfl | rfl <;> rw [Propagation.step]
    · rw [if_neg apart]
      split_ifs
      · exact pulled.imp id fun raised => raised.2.2
      · exact Or.inl rfl
    · split_ifs
      · exact pulled.imp id fun raised => raised.2.2
      · exact Or.inl rfl
  have grown := le_step fits level link k
  refine ⟨beside.above.trans grown, ?_, fun vertex => ?_⟩
  · rw [here]
    rcases raise_eq_or fits k (level k) (level other) with same | ⟨below, fit, same⟩
    · rw [same]
      exact beside.near
    · refine Or.inr ⟨other, linked, ?_⟩
      have untouched : level other = first other := by
        rcases beside.behind other with same | behind
        · exact same
        · exact absurd below behind.not_gt
      have lower : first k < first other := untouched ▸ beside.above.trans_lt below
      rw [same, untouched, raise, if_pos ⟨lower, untouched ▸ fit⟩]
  · by_cases apart : vertex = k
    · exact Or.inr (apart ▸ le_rfl)
    · rcases there vertex apart with same | same
      · rw [same]
        exact (beside.behind vertex).imp id fun behind => behind.trans grown
      · rw [same]
        exact Or.inr grown

theorem Beside.pass {first level : K → T} {k : K} (beside : Beside fits first links k level)
    {part : List (K × K)} (listed : ∀ link ∈ part, link ∈ links)
    (own : ∀ link ∈ part, link.1 = k ∨ link.2 = k) :
    Beside fits first links k (pass fits level part) := by
  induction part generalizing level with
  | nil => exact beside
  | cons link rest ih =>
    refine ih (beside.step (listed link List.mem_cons_self) (own link List.mem_cons_self)) ?_ ?_
    · exact fun other later => listed other (List.mem_cons_of_mem _ later)
    · exact fun other later => own other (List.mem_cons_of_mem _ later)

theorem pass_apply_of_away {level : K → T} {k : K} {part : List (K × K)}
    (away : ∀ link ∈ part, ¬(link.1 = k ∨ link.2 = k)) : pass fits level part k = level k := by
  induction part generalizing level with
  | nil => rfl
  | cons link rest ih =>
    obtain ⟨one, other⟩ := not_or.mp (away link List.mem_cons_self)
    rw [pass_cons, ih fun later there => away later (List.mem_cons_of_mem _ there), step,
      if_neg fun same => one same.symm, if_neg fun same => other same.symm]

open Classical in
/-- Where a pass leaves nothing to raise in any order, one round is enough. -/
theorem oneRound_of_stable (lawful : Lawful fits) {first : K → T}
    (stable : ∀ order, order.Perm links → Stable fits links (pass fits first order)) :
    OneRound fits first links (pass fits first links) := by
  refine ⟨stable links (.refl links), fun k => ?_⟩
  let mine := fun link : K × K => decide (link.1 = k ∨ link.2 = k)
  have perm : (links.filter mine ++ links.filter fun link => !mine link).Perm links :=
    List.filter_append_perm mine links
  have same : pass fits first links =
      pass fits first (links.filter mine ++ links.filter fun link => !mine link) := by
    apply le_antisymm
    · exact pass_le_of_stable lawful (stable _ perm) (le_pass fits _ _)
    · refine pass_le_of_stable lawful (fun link listed => ?_) (le_pass fits _ _)
      exact stable links (.refl links) link (perm.mem_iff.mp listed)
  have start : Beside fits first links k first :=
    ⟨le_rfl, Or.inl rfl, fun other => Or.inl rfl⟩
  have beside : Beside fits first links k (pass fits first (links.filter mine)) :=
    start.pass (fun link listed => (List.mem_filter.mp listed).1)
      fun link listed => of_decide_eq_true (List.mem_filter.mp listed).2
  rw [same, pass_append, pass_apply_of_away]
  · exact beside.near
  · intro link listed
    have apart := (List.mem_filter.mp listed).2
    simpa [mine] using apart

end Propagation
