import Mathlib.Data.List.Forall2

/-!
# Fallible computations over lists

A computation that may fail, applied to every entry of a list, succeeds exactly
when it succeeds on each of them, and then gives the results in order.
-/

namespace Fallible

universe u v

variable {ε : Type u} {α β : Type v}

theorem bind_ok_iff {x : Except ε α} {f : α → Except ε β} {b : β} :
    (x >>= f) = .ok b ↔ ∃ a, x = .ok a ∧ f a = .ok b := by
  cases x with
  | error e => exact ⟨nofun, nofun⟩
  | ok a =>
    constructor
    · intro same
      exact ⟨a, rfl, same⟩
    · rintro ⟨c, found, same⟩
      rw [Except.ok.inj found]
      exact same

theorem bind_error_iff {x : Except ε α} {f : α → Except ε β} {e : ε} :
    (x >>= f) = .error e ↔ x = .error e ∨ ∃ a, x = .ok a ∧ f a = .error e := by
  cases x with
  | error d =>
    constructor
    · intro same
      exact Or.inl (congrArg Except.error (Except.error.inj same))
    · rintro (same | ⟨a, found, -⟩)
      · exact congrArg Except.error (Except.error.inj same)
      · cases found
  | ok a =>
    constructor
    · intro same
      exact Or.inr ⟨a, rfl, same⟩
    · rintro (same | ⟨c, found, same⟩)
      · cases same
      · rw [Except.ok.inj found]
        exact same

theorem mapM_cons_ok_iff {f : α → Except ε β} {a : α} {rest : List α} {m : List β} :
    (a :: rest).mapM f = .ok m ↔ ∃ b bs, f a = .ok b ∧ rest.mapM f = .ok bs ∧ m = b :: bs := by
  rw [List.mapM_cons, bind_ok_iff]
  constructor
  · rintro ⟨b, head, tail⟩
    obtain ⟨bs, mapped, same⟩ := bind_ok_iff.mp tail
    exact ⟨b, bs, head, mapped, (Except.ok.inj same).symm⟩
  · rintro ⟨b, bs, head, mapped, rfl⟩
    exact ⟨b, head, bind_ok_iff.mpr ⟨bs, mapped, rfl⟩⟩

theorem mapM_ok {f : α → Except ε β} {g : α → β} {l : List α}
    (each : ∀ a ∈ l, f a = .ok (g a)) : l.mapM f = .ok (l.map g) := by
  induction l with
  | nil => rfl
  | cons a rest ih =>
    refine mapM_cons_ok_iff.mpr ⟨g a, rest.map g, each a List.mem_cons_self, ?_, rfl⟩
    exact ih fun b hb => each b (List.mem_cons_of_mem _ hb)

theorem toOption_eq_some_iff {x : Except ε α} {a : α} : x.toOption = some a ↔ x = .ok a := by
  cases x with
  | error e => exact ⟨nofun, nofun⟩
  | ok b => exact ⟨fun same => congrArg Except.ok (Option.some.inj same),
      fun same => congrArg some (Except.ok.inj same)⟩

theorem mapM_eq_some_iff {f : α → Option β} {l : List α} {m : List β} :
    l.mapM f = some m ↔ List.Forall₂ (fun a b => f a = some b) l m := by
  induction l generalizing m with
  | nil =>
    rw [List.mapM_nil, List.forall₂_nil_left_iff]
    exact ⟨fun same => (Option.some.inj same).symm, fun same => congrArg some same.symm⟩
  | cons a l ih =>
    rw [List.mapM_cons, List.forall₂_cons_left_iff]
    constructor
    · intro mapped
      obtain ⟨b, one, mapped⟩ := Option.bind_eq_some_iff.mp mapped
      obtain ⟨bs, others, same⟩ := Option.bind_eq_some_iff.mp mapped
      exact ⟨b, bs, one, ih.mp others, (Option.some.inj same).symm⟩
    · rintro ⟨b, bs, one, others, rfl⟩
      refine Option.bind_eq_some_iff.mpr ⟨b, one, Option.bind_eq_some_iff.mpr ⟨bs, ?_, rfl⟩⟩
      exact ih.mpr others

theorem exists_of_mapM_some {f : α → Option β} {l : List α} {m : List β}
    (mapped : l.mapM f = some m) {a : α} (listed : a ∈ l) : ∃ b ∈ m, f a = some b := by
  have each := mapM_eq_some_iff.mp mapped
  clear mapped
  induction each with
  | nil => cases listed
  | cons found _ ih =>
    rcases List.mem_cons.mp listed with rfl | later
    · exact ⟨_, List.mem_cons_self, found⟩
    · obtain ⟨b, member, same⟩ := ih later
      exact ⟨b, List.mem_cons_of_mem _ member, same⟩

/-- The results are those of the entries, in order. -/
theorem filterMap_of_mapM {f : α → Except ε β} {l : List α} {m : List β}
    (mapped : l.mapM f = .ok m) : (l.filterMap fun a => (f a).toOption) = m := by
  induction l generalizing m with
  | nil => exact Except.ok.inj mapped
  | cons a rest ih =>
    obtain ⟨b, bs, head, tail, rfl⟩ := mapM_cons_ok_iff.mp mapped
    simp only [List.filterMap_cons, toOption_eq_some_iff.mpr head, ih tail]

theorem mem_of_mapM {f : α → Except ε β} {l : List α} {m : List β} (mapped : l.mapM f = .ok m)
    {b : β} : b ∈ m ↔ ∃ a ∈ l, f a = .ok b := by
  rw [← filterMap_of_mapM mapped, List.mem_filterMap]
  simp only [toOption_eq_some_iff]

theorem ok_of_mapM {f : α → Except ε β} {l : List α} {m : List β} (mapped : l.mapM f = .ok m) :
    ∀ a ∈ l, ∃ b, f a = .ok b := by
  induction l generalizing m with
  | nil => exact fun a ha => absurd ha List.not_mem_nil
  | cons a rest ih =>
    obtain ⟨b, bs, head, tail, -⟩ := mapM_cons_ok_iff.mp mapped
    intro c hc
    rcases List.mem_cons.mp hc with rfl | later
    · exact ⟨b, head⟩
    · exact ih tail c later

theorem mapM_isOk_iff {f : α → Except ε β} {l : List α} :
    (∃ m, l.mapM f = .ok m) ↔ ∀ a ∈ l, ∃ b, f a = .ok b := by
  constructor
  · rintro ⟨m, mapped⟩
    exact ok_of_mapM mapped
  · intro each
    induction l with
    | nil => exact ⟨[], rfl⟩
    | cons a rest ih =>
      obtain ⟨b, head⟩ := each a List.mem_cons_self
      obtain ⟨bs, tail⟩ := ih fun c hc => each c (List.mem_cons_of_mem _ hc)
      exact ⟨b :: bs, mapM_cons_ok_iff.mpr ⟨b, bs, head, tail, rfl⟩⟩

/-- What is read off each result can be read off its entry. -/
theorem map_of_mapM {γ : Type v} {f : α → Except ε β} {g : β → γ} {h : α → γ} {l : List α}
    {m : List β} (mapped : l.mapM f = .ok m) (each : ∀ a b, f a = .ok b → g b = h a) :
    m.map g = l.map h := by
  induction l generalizing m with
  | nil =>
    cases mapped
    rfl
  | cons a rest ih =>
    obtain ⟨b, bs, head, tail, rfl⟩ := mapM_cons_ok_iff.mp mapped
    rw [List.map_cons, List.map_cons, each a b head, ih tail]

theorem length_of_mapM {f : α → Except ε β} {l : List α} {m : List β} (mapped : l.mapM f = .ok m) :
    m.length = l.length := by
  induction l generalizing m with
  | nil =>
    cases mapped
    rfl
  | cons a rest ih =>
    obtain ⟨b, bs, -, tail, rfl⟩ := mapM_cons_ok_iff.mp mapped
    rw [List.length_cons, List.length_cons, ih tail]

/-- What fails over a list fails at an entry. -/
theorem error_of_mapM {f : α → Except ε β} {l : List α} {e : ε}
    (failed : l.mapM f = .error e) : ∃ a ∈ l, f a = .error e := by
  induction l with
  | nil => cases failed
  | cons a rest ih =>
    rw [List.mapM_cons] at failed
    rcases bind_error_iff.mp failed with head | ⟨b, -, failed⟩
    · exact ⟨a, List.mem_cons_self, head⟩
    · rcases bind_error_iff.mp failed with tail | ⟨bs, -, done⟩
      · obtain ⟨c, listed, fails⟩ := ih tail
        exact ⟨c, List.mem_cons_of_mem _ listed, fails⟩
      · cases done

/-- What every step keeps, a run keeps. -/
theorem invariant_of_foldlM {f : β → α → Except ε β} (I : β → Prop) {l : List α}
    (kept : ∀ b, I b → ∀ a ∈ l, ∀ c, f b a = .ok c → I c) {b c : β} (holds : I b)
    (folded : l.foldlM f b = .ok c) : I c := by
  induction l generalizing b with
  | nil => exact Except.ok.inj folded ▸ holds
  | cons a rest ih =>
    rw [List.foldlM_cons] at folded
    obtain ⟨middle, first, folded⟩ := bind_ok_iff.mp folded
    refine ih (fun b holds a later => kept b holds a (List.mem_cons_of_mem _ later)) ?_ folded
    exact kept b holds a List.mem_cons_self middle first

/-- A run follows another, pure one where each of its steps does. -/
theorem follows_foldlM {γ : Type v} (R : β → γ → Prop) {f : β → α → Except ε β} {g : γ → α → γ}
    {l : List α} (each : ∀ a ∈ l, ∀ b s, R b s → ∃ c, f b a = .ok c ∧ R c (g s a)) {b : β} {s : γ}
    (start : R b s) : ∃ c, l.foldlM f b = .ok c ∧ R c (l.foldl g s) := by
  induction l generalizing b s with
  | nil => exact ⟨b, rfl, start⟩
  | cons a rest ih =>
    obtain ⟨middle, first, holds⟩ := each a List.mem_cons_self b s start
    obtain ⟨c, folded, last⟩ := ih (fun a later => each a (List.mem_cons_of_mem _ later)) holds
    refine ⟨c, ?_, last⟩
    rw [List.foldlM_cons, bind_ok_iff]
    exact ⟨middle, first, folded⟩

theorem foldlM_flatMap {γ : Type v} {f : β → γ → Except ε β} {g : α → List γ} {l : List α} {b : β} :
    (l.flatMap g).foldlM f b = l.foldlM (fun b a => (g a).foldlM f b) b := by
  induction l generalizing b with
  | nil => rfl
  | cons a rest ih =>
    rw [List.flatMap_cons, List.foldlM_append, List.foldlM_cons]
    exact bind_congr fun c => ih

theorem foldlM_congr_of_mem {f g : β → α → Except ε β} {l : List α} {b : β}
    (same : ∀ a ∈ l, ∀ b, f b a = g b a) : l.foldlM f b = l.foldlM g b := by
  induction l generalizing b with
  | nil => rfl
  | cons a rest ih =>
    rw [List.foldlM_cons, List.foldlM_cons, same a List.mem_cons_self]
    exact bind_congr fun c => ih fun a later => same a (List.mem_cons_of_mem _ later)

/-! ## Kinds of errors -/

/-- The computation fails, if it does, with an error that `P` allows. -/
def FailsWith (P : ε → Prop) (x : Except ε α) : Prop := ∀ e, x = .error e → P e

variable {P : ε → Prop}

@[simp] theorem failsWith_ok (a : α) : FailsWith P (.ok a : Except ε α) := nofun

@[simp] theorem failsWith_error {e : ε} : FailsWith P (.error e : Except ε α) ↔ P e := by
  constructor
  · exact fun fails => fails e rfl
  · rintro allowed d same
    exact Except.error.inj same ▸ allowed

theorem failsWith_bind_iff {x : Except ε α} {f : α → Except ε β} :
    FailsWith P (x >>= f) ↔ FailsWith P x ∧ ∀ a, x = .ok a → FailsWith P (f a) := by
  constructor
  · intro fails
    refine ⟨fun e same => fails e (bind_error_iff.mpr (.inl same)), ?_⟩
    intro a found e same
    exact fails e (bind_error_iff.mpr (.inr ⟨a, found, same⟩))
  · rintro ⟨first, later⟩ e same
    rcases bind_error_iff.mp same with same | ⟨a, found, same⟩
    · exact first e same
    · exact later a found e same

theorem failsWith_bind_ok_iff {x : Except ε α} {g : α → β} :
    FailsWith P (x >>= fun a => .ok (g a)) ↔ FailsWith P x := by
  rw [failsWith_bind_iff]
  exact ⟨fun fails => fails.1, fun fails => ⟨fails, fun a _ => failsWith_ok (g a)⟩⟩

/-- Over a list the entries before the first that fails do not matter. -/
theorem failsWith_mapM_cons_iff {f : α → Except ε β} {a : α} {rest : List α} :
    FailsWith P ((a :: rest).mapM f) ↔
      FailsWith P (f a) ∧ ∀ b, f a = .ok b → FailsWith P (rest.mapM f) := by
  rw [List.mapM_cons, failsWith_bind_iff]
  exact and_congr Iff.rfl (forall_congr' fun b => imp_congr Iff.rfl failsWith_bind_ok_iff)

end Fallible
