import Mathlib.Data.List.Induction
import Mathlib.Data.List.Nodup
import Mathlib.Logic.Function.Iterate

/-!
# Ordered dictionaries

Entries in the order in which their keys were first set, no key twice. Setting a
key that is there already changes its value and keeps its place.
-/

universe u v

structure Dictionary (K : Type u) (V : Type v) where
  entries : List (K × V)
  distinct : (entries.map Prod.fst).Nodup

namespace Dictionary

variable {K : Type u} {V : Type v} [DecidableEq K]

def empty : Dictionary K V := ⟨[], List.nodup_nil⟩

def get? (d : Dictionary K V) (k : K) : Option V :=
  (d.entries.find? fun entry => entry.1 = k).map Prod.snd

def setEntry (k : K) (v : V) : List (K × V) → List (K × V)
  | [] => [(k, v)]
  | (j, w) :: rest => if j = k then (j, v) :: rest else (j, w) :: setEntry k v rest

theorem map_fst_setEntry (k : K) (v : V) (entries : List (K × V)) :
    (setEntry k v entries).map Prod.fst =
      if k ∈ entries.map Prod.fst then entries.map Prod.fst else entries.map Prod.fst ++ [k] := by
  induction entries with
  | nil => rfl
  | cons entry rest ih =>
    obtain ⟨j, w⟩ := entry
    rw [setEntry]
    by_cases same : j = k
    · subst same
      simp
    · have other : k ≠ j := fun equal => same equal.symm
      rw [if_neg same, List.map_cons, ih]
      by_cases known : k ∈ rest.map Prod.fst
      · simp [known]
      · rw [if_neg known, if_neg (by simpa [other] using known), List.map_cons, List.cons_append]

theorem nodup_setEntry {k : K} {v : V} {entries : List (K × V)}
    (distinct : (entries.map Prod.fst).Nodup) : ((setEntry k v entries).map Prod.fst).Nodup := by
  rw [map_fst_setEntry]
  split
  · exact distinct
  · rename_i fresh
    refine List.nodup_append'.mpr ⟨distinct, List.nodup_singleton k, ?_⟩
    exact List.disjoint_singleton.mpr fresh

/-- `d[k] = v`. -/
def set (d : Dictionary K V) (k : K) (v : V) : Dictionary K V :=
  ⟨setEntry k v d.entries, nodup_setEntry d.distinct⟩

/-- `del d[k]`; a key that is not there leaves it as it is. -/
def erase (d : Dictionary K V) (k : K) : Dictionary K V :=
  ⟨d.entries.filter fun entry => entry.1 ≠ k, d.distinct.sublist (List.filter_sublist.map _)⟩

/-- Every pair in turn set in an empty dictionary. -/
def ofList (pairs : List (K × V)) : Dictionary K V :=
  pairs.foldl (fun d pair => d.set pair.1 pair.2) empty

/-- The first so many entries. -/
def take (n : Nat) (d : Dictionary K V) : Dictionary K V :=
  ⟨d.entries.take n, d.distinct.sublist ((List.take_sublist n d.entries).map _)⟩

/-- The value of one key changed, if the key is there. -/
def modify (d : Dictionary K V) (k : K) (f : V → V) : Dictionary K V :=
  ⟨d.entries.map fun entry => if entry.1 = k then (entry.1, f entry.2) else entry, by
    have keys : (d.entries.map fun entry =>
        if entry.1 = k then (entry.1, f entry.2) else entry).map Prod.fst =
          d.entries.map Prod.fst := by
      rw [List.map_map]
      refine List.map_congr_left fun entry _ => ?_
      rw [Function.comp_apply]
      split <;> rfl
    rw [keys]
    exact d.distinct⟩

/-- `d.setdefault(k, v)`. -/
def setDefault (d : Dictionary K V) (k : K) (v : V) : Dictionary K V :=
  match d.get? k with
  | some _ => d
  | none => d.set k v

theorem get?_empty (k : K) : (empty : Dictionary K V).get? k = none := rfl

theorem mem_entries_iff {d : Dictionary K V} {k : K} {v : V} :
    (k, v) ∈ d.entries ↔ d.get? k = some v := by
  constructor
  · intro listed
    obtain ⟨entry, found⟩ := Option.isSome_iff_exists.mp
      (List.find?_isSome (p := fun entry => decide (entry.1 = k)).mpr ⟨_, listed, by simp⟩)
    have key : entry.1 = k := by simpa using List.find?_some found
    have same := List.inj_on_of_nodup_map d.distinct (List.mem_of_find?_eq_some found) listed key
    rw [get?, found, same]
    rfl
  · intro found
    obtain ⟨entry, first, rfl⟩ := Option.map_eq_some_iff.mp found
    have key : entry.1 = k := by simpa using List.find?_some first
    exact key ▸ List.mem_of_find?_eq_some first

theorem find?_setEntry (k j : K) (v : V) (entries : List (K × V)) :
    ((setEntry k v entries).find? fun entry => entry.1 = j).map Prod.snd =
      if j = k then some v else (entries.find? fun entry => entry.1 = j).map Prod.snd := by
  induction entries with
  | nil =>
    by_cases same : j = k
    · simp [setEntry, same]
    · have other : k ≠ j := fun equal => same equal.symm
      simp [setEntry, same, other]
  | cons entry rest ih =>
    obtain ⟨i, w⟩ := entry
    rw [setEntry]
    by_cases here : i = k
    · subst here
      by_cases same : j = i
      · simp [same]
      · have other : i ≠ j := fun equal => same equal.symm
        simp [same, other]
    · rw [if_neg here]
      by_cases same : i = j
      · subst same
        simp [here]
      · simp only [List.find?_cons, same, decide_false]
        exact ih

theorem get?_set (d : Dictionary K V) (k j : K) (v : V) :
    (d.set k v).get? j = if j = k then some v else d.get? j :=
  find?_setEntry k j v d.entries

theorem get?_set_self (d : Dictionary K V) (k : K) (v : V) : (d.set k v).get? k = some v := by
  rw [get?_set, if_pos rfl]

theorem get?_set_ne (d : Dictionary K V) {k j : K} (other : j ≠ k) (v : V) :
    (d.set k v).get? j = d.get? j := by
  rw [get?_set, if_neg other]

theorem get?_erase (d : Dictionary K V) (k j : K) :
    (d.erase k).get? j = if j = k then none else d.get? j := by
  rw [get?, get?, erase, List.find?_filter]
  by_cases same : j = k
  · subst same
    simp
  · rw [if_neg same]
    congr 2
    funext entry
    by_cases key : entry.1 = j
    · subst key
      simp [same]
    · simp [key]

theorem get?_modify (d : Dictionary K V) (k j : K) (f : V → V) :
    (d.modify k f).get? j = if j = k then (d.get? k).map f else d.get? j := by
  have sameKey : ∀ entry : K × V,
      (if entry.1 = k then (entry.1, f entry.2) else entry).1 = entry.1 := by
    intro entry
    split <;> rfl
  rw [get?, modify, List.find?_map]
  have search : ((fun entry : K × V => decide (entry.1 = j)) ∘
      fun entry => if entry.1 = k then (entry.1, f entry.2) else entry) =
      fun entry => decide (entry.1 = j) := by
    funext entry
    rw [Function.comp_apply, sameKey]
  rw [search, get?, get?]
  by_cases same : j = k
  · subst same
    rw [if_pos rfl, Option.map_map, Option.map_map]
    refine Option.map_congr fun entry found => ?_
    have key : entry.1 = j := by simpa using List.find?_some (Option.mem_def.mp found)
    rw [Function.comp_apply, if_pos key]
    rfl
  · rw [if_neg same, Option.map_map]
    refine Option.map_congr fun entry found => ?_
    have key : entry.1 = j := by simpa using List.find?_some (Option.mem_def.mp found)
    rw [Function.comp_apply, if_neg fun other => same (key.symm.trans other)]

/-- The first value set by `setdefault` stays. -/
theorem get?_setDefault (d : Dictionary K V) (k j : K) (v : V) :
    (d.setDefault k v).get? j = if j = k then some ((d.get? k).getD v) else d.get? j := by
  rw [setDefault]
  cases found : d.get? k with
  | none =>
    rw [get?_set]
    rfl
  | some w =>
    by_cases same : j = k
    · rw [if_pos same, same, found]
      rfl
    · rw [if_neg same]

theorem setEntry_of_fresh {k : K} (v : V) {entries : List (K × V)}
    (fresh : ∀ entry ∈ entries, entry.1 ≠ k) : setEntry k v entries = entries ++ [(k, v)] := by
  induction entries with
  | nil => rfl
  | cons entry rest ih =>
    obtain ⟨j, w⟩ := entry
    have other : j ≠ k := fresh (j, w) List.mem_cons_self
    rw [setEntry, if_neg other, ih fun e he => fresh e (List.mem_cons_of_mem _ he),
      List.cons_append]

/-- A new key goes to the end. -/
theorem entries_set_of_fresh {d : Dictionary K V} {k : K} (fresh : d.get? k = none) (v : V) :
    (d.set k v).entries = d.entries ++ [(k, v)] := by
  refine setEntry_of_fresh v fun entry listed same => ?_
  have found := mem_entries_iff.mp (same ▸ listed : (k, entry.2) ∈ d.entries)
  rw [fresh] at found
  cases found

/-- Pairs with distinct keys are the entries. -/
theorem entries_ofList {pairs : List (K × V)} (distinct : (pairs.map Prod.fst).Nodup) :
    (ofList pairs).entries = pairs := by
  suffices from_ : ∀ d : Dictionary K V, (∀ pair ∈ pairs, d.get? pair.1 = none) →
      (pairs.foldl (fun d pair => d.set pair.1 pair.2) d).entries = d.entries ++ pairs by
    exact from_ empty fun _ _ => rfl
  induction pairs with
  | nil => intro d _; rw [List.foldl_nil, List.append_nil]
  | cons pair rest ih =>
    intro d fresh
    rw [List.map_cons, List.nodup_cons] at distinct
    rw [List.foldl_cons, ih distinct.2,
      entries_set_of_fresh (fresh pair List.mem_cons_self), List.append_assoc]
    · rfl
    · intro other listed
      have apart : other.1 ≠ pair.1 := fun same =>
        distinct.1 (same ▸ List.mem_map_of_mem listed)
      rw [get?_set_ne _ apart, fresh other (List.mem_cons_of_mem _ listed)]

theorem ofList_append_singleton (pairs : List (K × V)) (pair : K × V) :
    ofList (pairs ++ [pair]) = (ofList pairs).set pair.1 pair.2 := by
  rw [ofList, List.foldl_append]
  rfl

theorem mem_of_get?_ofList {pairs : List (K × V)} {k : K} {v : V}
    (found : (ofList pairs).get? k = some v) : (k, v) ∈ pairs := by
  induction pairs using List.reverseRecOn with
  | nil => cases found
  | append_singleton pairs pair ih =>
    rw [ofList_append_singleton, get?_set] at found
    rw [List.mem_append]
    split at found
    · rename_i same
      subst same
      exact Or.inr (Option.some.inj found ▸ List.mem_singleton_self pair)
    · exact Or.inl (ih found)

/-- The last value that was set under a key is found there. -/
theorem get?_ofList (pairs : List (K × V)) (k : K) :
    (ofList pairs).get? k = (pairs.reverse.find? fun pair => pair.1 = k).map Prod.snd := by
  induction pairs using List.reverseRecOn with
  | nil => rfl
  | append_singleton pairs pair ih =>
    rw [ofList_append_singleton, get?_set, ih, List.reverse_append, List.reverse_singleton,
      List.singleton_append, List.find?_cons]
    by_cases same : pair.1 = k
    · simp [same]
    · have other : k ≠ pair.1 := fun equal => same equal.symm
      simp [same, other]

theorem exists_get?_ofList {pairs : List (K × V)} {k : K} (listed : k ∈ pairs.map Prod.fst) :
    ∃ v, (ofList pairs).get? k = some v := by
  induction pairs using List.reverseRecOn with
  | nil => exact absurd listed List.not_mem_nil
  | append_singleton pairs pair ih =>
    rw [List.map_append, List.mem_append] at listed
    rw [ofList_append_singleton, get?_set]
    split
    · exact ⟨pair.2, rfl⟩
    · rename_i other
      rcases listed with earlier | last
      · exact ih earlier
      · exact absurd (List.mem_singleton.mp last) other

/-! ## Counting in a dictionary -/

/-- The entries are these numbers, without the zeros. -/
def Tallies (d : Dictionary K Nat) (f : K → Nat) : Prop :=
  ∀ k, d.get? k = if f k = 0 then none else some (f k)

theorem tallies_empty : Tallies (empty : Dictionary K Nat) fun _ => 0 := fun _ => rfl

theorem Tallies.getD {d : Dictionary K Nat} {f : K → Nat} (tallies : Tallies d f) (k : K) :
    (d.get? k).getD 0 = f k := by
  rw [tallies k]
  split
  · rename_i zero
    exact zero.symm
  · rfl

/-- `d[k] = d.get(k, 0) + 1`. -/
theorem Tallies.count {d : Dictionary K Nat} {f : K → Nat} (tallies : Tallies d f) (k : K) :
    Tallies (d.set k ((d.get? k).getD 0 + 1)) fun j => f j + if k = j then 1 else 0 := by
  intro j
  rw [get?_set, tallies.getD k]
  by_cases same : j = k
  · subst same
    simp
  · have other : k ≠ j := fun equal => same equal.symm
    simp [same, other, tallies j]

/-! ## Groups -/

theorem get?_eq_none_iff {d : Dictionary K V} {k : K} :
    d.get? k = none ↔ k ∉ d.entries.map Prod.fst := by
  simp only [get?, Option.map_eq_none_iff, List.find?_eq_none, decide_eq_true_eq, List.mem_map,
    not_exists, not_and]

/-- Every item appended to the list under its key. -/
def groupBy (key : V → K) (items : List V) : Dictionary K (List V) :=
  items.foldl (fun d a => (d.setDefault (key a) []).modify (key a) (· ++ [a])) empty

/-- Keys stand in the order of their first items, each with its items in order. -/
theorem entries_groupBy (key : V → K) (items : List V) :
    (groupBy key items).entries =
      (items.map key).eraseDups.map fun k => (k, items.filter fun a => key a = k) := by
  induction items using List.reverseRecOn with
  | nil => rfl
  | append_singleton items a ih =>
    have step : groupBy key (items ++ [a]) =
        ((groupBy key items).setDefault (key a) []).modify (key a) (· ++ [a]) := by
      rw [groupBy, List.foldl_append]
      rfl
    have keys : (groupBy key items).entries.map Prod.fst = (items.map key).eraseDups := by
      rw [ih, List.map_map]
      exact List.map_id _
    rw [step, List.map_append, List.map_singleton, List.eraseDups_append]
    by_cases known : key a ∈ items.map key
    · have found : (groupBy key items).get? (key a) ≠ none := by
        rw [ne_eq, get?_eq_none_iff, keys, List.mem_eraseDups]
        exact not_not_intro known
      obtain ⟨group, there⟩ := Option.ne_none_iff_exists'.mp found
      have old : [key a].removeAll (items.map key) = [] := by
        simpa [List.removeAll] using known
      simp only [setDefault, there, modify, ih, old, List.eraseDups_nil, List.append_nil,
        List.map_map]
      apply List.map_congr_left
      intro k _
      by_cases same : k = key a
      · simp [same, List.filter_append]
      · have other : ¬ key a = k := fun equal => same equal.symm
        simp [same, other, List.filter_append]
    · have fresh : (groupBy key items).get? (key a) = none := by
        rw [get?_eq_none_iff, keys, List.mem_eraseDups]
        exact known
      have new : [key a].removeAll (items.map key) = [key a] := by
        simpa [List.removeAll] using known
      have none : items.filter (fun b => key b = key a) = [] := by
        rw [List.filter_eq_nil_iff]
        intro b listed same
        exact known (List.mem_map.mpr ⟨b, listed, of_decide_eq_true same⟩)
      have single : [key a].eraseDups = [key a] := by simp [List.eraseDups_cons]
      rw [setDefault, fresh]
      simp only [modify, entries_set_of_fresh fresh, ih, new, single, List.map_append,
        List.map_map, List.map_singleton, if_true, List.filter_append, none]
      congr 1
      · apply List.map_congr_left
        intro k listed
        have other : ¬ k = key a := fun equal =>
          known (equal ▸ List.mem_eraseDups.mp listed)
        have apart : ¬ key a = k := fun equal => other equal.symm
        simp [other, apart]
      · simp

/-- The items under a key, none where the key has no group. -/
theorem getD_groupBy (key : V → K) (items : List V) (k : K) :
    ((groupBy key items).get? k).getD [] = items.filter fun a => key a = k := by
  cases found : (groupBy key items).get? k with
  | none =>
    rw [get?_eq_none_iff, entries_groupBy, List.map_map] at found
    refine (List.filter_eq_nil_iff.mpr fun a listed same => found ?_).symm
    refine List.mem_map.mpr ⟨k, List.mem_eraseDups.mpr (List.mem_map.mpr ⟨a, listed, ?_⟩), rfl⟩
    exact of_decide_eq_true same
  | some group =>
    have listed := mem_entries_iff.mpr found
    rw [entries_groupBy, List.mem_map] at listed
    obtain ⟨own, -, same⟩ := listed
    obtain ⟨rfl, rfl⟩ := Prod.mk.inj same
    rfl

/-! ## Loops over a dictionary -/

theorem get?_foldl_set (f : K → V) (keys : List K)
    (d : Dictionary K V) (k : K) :
    (keys.foldl (fun d key => d.set key (f key)) d).get? k =
      if k ∈ keys then some (f k) else d.get? k := by
  induction keys generalizing d with
  | nil => simp
  | cons key keys ih =>
    rw [List.foldl_cons, ih, get?_set]
    by_cases later : k ∈ keys
    · rw [if_pos later, if_pos (List.mem_cons_of_mem _ later)]
    · by_cases same : k = key
      · subst same
        rw [if_neg later, if_pos rfl, if_pos List.mem_cons_self]
      · rw [if_neg later, if_neg same, if_neg (by simp [same, later])]

theorem foldl_set_eq_ofList (f : K → V) (keys : List K) :
    keys.foldl (fun d key => d.set key (f key)) .empty =
      ofList (keys.map fun key => (key, f key)) := by
  rw [ofList, List.foldl_map]

/-- Counters that entries add to, each under its key. -/
theorem get?_foldl_modify {α : Type*} (key : α → Option K) (f : V → V)
    (l : List α) (d : Dictionary K V) (k : K) :
    (l.foldl (fun d a => match key a with
      | some own => d.modify own f
      | none => d) d).get? k =
      (d.get? k).map f^[l.countP fun a => key a = some k] := by
  induction l generalizing d with
  | nil => simp
  | cons a l ih =>
    rw [List.foldl_cons, ih, List.countP_cons]
    cases own : key a with
    | none => simp
    | some j =>
      rw [get?_modify]
      by_cases same : k = j
      · subst same
        simp [Function.iterate_succ]
      · simp [same, Ne.symm same]

end Dictionary
