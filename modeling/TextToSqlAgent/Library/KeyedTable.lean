import Mathlib.Data.List.Nodup
import Mathlib.Data.List.Perm.Basic
import Mathlib.Data.List.Perm.Subperm

/-!
# Tables with an id and a unique key

Rows no two of which share an id and no two of which share a key. A row is found
by its key, so a table is a partial function of the keys; two tables that are the
same function hold the same rows in some order.
-/

universe u v w

structure KeyedTable {R : Type u} {I : Type v} {K : Type w} (idOf : R → I) (keyOf : R → K) where
  rows : List R
  ids : (rows.map idOf).Nodup
  keys : (rows.map keyOf).Nodup

namespace KeyedTable

variable {R : Type u} {I : Type v} {K : Type w} [DecidableEq K] {idOf : R → I} {keyOf : R → K}

def empty : KeyedTable idOf keyOf := ⟨[], List.nodup_nil, List.nodup_nil⟩

def get? (t : KeyedTable idOf keyOf) (k : K) : Option R :=
  t.rows.find? fun row => keyOf row = k

/-- `INSERT`, refused when the id or the key is taken. -/
def insert [DecidableEq I] (t : KeyedTable idOf keyOf) (row : R) : Option (KeyedTable idOf keyOf) :=
  if fresh : idOf row ∉ t.rows.map idOf ∧ keyOf row ∉ t.rows.map keyOf then
    some ⟨t.rows ++ [row],
      by simpa using t.ids.append (List.nodup_singleton (idOf row)) (by simpa using fresh.1),
      by simpa using t.keys.append (List.nodup_singleton (keyOf row)) (by simpa using fresh.2)⟩
  else none

theorem map_replace {B : Type*} (g : R → B) {f : R → R} (keeps : ∀ row, g (f row) = g row) (k : K)
    (rows : List R) :
    (rows.map fun row => if keyOf row = k then f row else row).map g = rows.map g := by
  rw [List.map_map]
  refine List.map_congr_left fun row _ => ?_
  rw [Function.comp_apply]
  split
  · exact keeps row
  · rfl

/-- `UPDATE` of the row with one key; its id and its key stay. -/
def update (t : KeyedTable idOf keyOf) (k : K) (f : R → R)
    (keeps : ∀ row, idOf (f row) = idOf row ∧ keyOf (f row) = keyOf row) :
    KeyedTable idOf keyOf :=
  ⟨t.rows.map fun row => if keyOf row = k then f row else row,
    by rw [map_replace idOf fun row => (keeps row).1]; exact t.ids,
    by rw [map_replace keyOf fun row => (keeps row).2]; exact t.keys⟩

/-- `INSERT … ON CONFLICT (key) DO UPDATE … RETURNING id`. -/
def upsert [DecidableEq I] (t : KeyedTable idOf keyOf) (row : R) (f : R → R)
    (keeps : ∀ row, idOf (f row) = idOf row ∧ keyOf (f row) = keyOf row) :
    Option (I × KeyedTable idOf keyOf) :=
  match t.get? (keyOf row) with
  | some old => some (idOf old, t.update (keyOf row) f keeps)
  | none => (t.insert row).map fun next => (idOf row, next)

/-- `DELETE … WHERE`. -/
def deleteWhere (t : KeyedTable idOf keyOf) (p : R → Bool) : KeyedTable idOf keyOf :=
  ⟨t.rows.filter fun row => !p row, t.ids.sublist (List.filter_sublist.map _),
    t.keys.sublist (List.filter_sublist.map _)⟩

section lookup

variable {t s : KeyedTable idOf keyOf} {k : K} {row : R}

theorem get?_eq_some_iff : t.get? k = some row ↔ row ∈ t.rows ∧ keyOf row = k := by
  constructor
  · intro found
    exact ⟨List.mem_of_find?_eq_some found, by simpa using List.find?_some found⟩
  · rintro ⟨listed, rfl⟩
    obtain ⟨other, found⟩ := Option.isSome_iff_exists.mp
      (List.find?_isSome (p := fun row' => decide (keyOf row' = keyOf row)).mpr
        ⟨row, listed, by simp⟩)
    have key : keyOf other = keyOf row := by simpa using List.find?_some found
    have same := List.inj_on_of_nodup_map t.keys (List.mem_of_find?_eq_some found) listed key
    exact same ▸ found

theorem get?_keyOf (listed : row ∈ t.rows) : t.get? (keyOf row) = some row :=
  get?_eq_some_iff.mpr ⟨listed, rfl⟩

theorem keyOf_of_get? (found : t.get? k = some row) : keyOf row = k :=
  (get?_eq_some_iff.mp found).2

theorem get?_eq_none_iff : t.get? k = none ↔ k ∉ t.rows.map keyOf := by
  simp [get?, List.find?_eq_none]

/-- Rows with one id are one row, under one key. -/
theorem key_eq_of_id_eq {j : K} {other : R} (found : t.get? k = some row)
    (second : t.get? j = some other) (same : idOf row = idOf other) : k = j := by
  have equal := List.inj_on_of_nodup_map t.ids (get?_eq_some_iff.mp found).1
    (get?_eq_some_iff.mp second).1 same
  rw [← keyOf_of_get? found, ← keyOf_of_get? second, equal]

theorem insert_eq_some_iff [DecidableEq I] {next : KeyedTable idOf keyOf} :
    t.insert row = some next ↔
      idOf row ∉ t.rows.map idOf ∧ t.get? (keyOf row) = none ∧
        next.rows = t.rows ++ [row] := by
  rw [insert, get?_eq_none_iff]
  obtain ⟨rows, ids, keys⟩ := next
  constructor
  · intro done
    split at done
    · rename_i fresh
      exact ⟨fresh.1, fresh.2, (congrArg KeyedTable.rows (Option.some.inj done)).symm⟩
    · cases done
  · rintro ⟨newId, newKey, same⟩
    subst same
    rw [dif_pos ⟨newId, newKey⟩]

theorem get?_insert [DecidableEq I] {next : KeyedTable idOf keyOf}
    (done : t.insert row = some next) (j : K) :
    next.get? j = if j = keyOf row then some row else t.get? j := by
  obtain ⟨-, fresh, rows⟩ := insert_eq_some_iff.mp done
  rw [get?, rows, List.find?_append]
  by_cases same : j = keyOf row
  · subst same
    rw [if_pos rfl]
    change (t.get? (keyOf row)).or _ = _
    rw [fresh]
    simp
  · have other : keyOf row ≠ j := fun equal => same equal.symm
    rw [if_neg same]
    change (t.get? j).or _ = _
    simp [other]

theorem get?_update {f : R → R}
    (keeps : ∀ row, idOf (f row) = idOf row ∧ keyOf (f row) = keyOf row) (j : K) :
    (t.update k f keeps).get? j = if j = k then (t.get? k).map f else t.get? j := by
  have sameKey : ∀ row, keyOf (if keyOf row = k then f row else row) = keyOf row := by
    intro row
    split
    · exact (keeps row).2
    · rfl
  change List.find? _ (t.rows.map _) = _
  rw [List.find?_map]
  have search : ((fun row => decide (keyOf row = j)) ∘
      fun row => if keyOf row = k then f row else row) = fun row => decide (keyOf row = j) := by
    funext row
    rw [Function.comp_apply, sameKey]
  rw [search]
  change (t.get? j).map _ = _
  by_cases same : j = k
  · subst same
    rw [if_pos rfl]
    refine Option.map_congr fun row found => ?_
    rw [if_pos (keyOf_of_get? (Option.mem_def.mp found))]
  · rw [if_neg same]
    refine (Option.map_congr fun row found => ?_).trans Option.map_id'
    rw [if_neg fun key => same ((keyOf_of_get? (Option.mem_def.mp found)).symm.trans key)]

/-- What an upsert writes: the changed row under its old id, or the new row. -/
theorem upsert_spec [DecidableEq I] {f : R → R}
    (keeps : ∀ row, idOf (f row) = idOf row ∧ keyOf (f row) = keyOf row) {id : I}
    {next : KeyedTable idOf keyOf} (done : t.upsert row f keeps = some (id, next)) :
    ∃ written, next.get? (keyOf row) = some written ∧ idOf written = id ∧
      (∀ old, t.get? (keyOf row) = some old → written = f old) ∧
      (t.get? (keyOf row) = none → written = row) ∧
      ∀ j, j ≠ keyOf row → next.get? j = t.get? j := by
  rw [upsert] at done
  cases found : t.get? (keyOf row) with
  | some old =>
    rw [found] at done
    obtain ⟨rfl, rfl⟩ := Prod.mk.inj (Option.some.inj done)
    refine ⟨f old, ?_, (keeps old).1, ?_, nofun, ?_⟩
    · rw [get?_update, if_pos rfl, found]
      rfl
    · rintro other same
      exact congrArg f (Option.some.inj same)
    · intro j other
      rw [get?_update, if_neg other]
  | none =>
    rw [found] at done
    obtain ⟨added, inserted, same⟩ := Option.map_eq_some_iff.mp done
    obtain ⟨rfl, rfl⟩ := Prod.mk.inj same
    refine ⟨row, ?_, rfl, nofun, fun _ => rfl, ?_⟩
    · rw [get?_insert inserted, if_pos rfl]
    · intro j other
      rw [get?_insert inserted, if_neg other]

theorem get?_deleteWhere (p : R → Bool) (k : K) :
    (t.deleteWhere p).get? k = (t.get? k).filter fun row => !p row := by
  cases found : (t.deleteWhere p).get? k with
  | some row =>
    obtain ⟨listed, key⟩ := get?_eq_some_iff.mp found
    obtain ⟨member, kept⟩ := List.mem_filter.mp listed
    rw [get?_eq_some_iff.mpr ⟨member, key⟩, Option.filter_some, if_pos kept]
  | none =>
    symm
    rw [Option.filter_eq_none_iff]
    intro row before kept
    obtain ⟨listed, key⟩ := get?_eq_some_iff.mp before
    refine absurd ?_ (get?_eq_none_iff.mp found)
    exact key ▸ List.mem_map_of_mem (List.mem_filter.mpr ⟨listed, kept⟩)

end lookup

/-! ## Tables as functions of the keys -/

section contents

variable {t s : KeyedTable idOf keyOf} {B : Type*} {f : R → B}

theorem mem_rows_iff_of_get?_eq {row : R} (same : t.get? (keyOf row) = s.get? (keyOf row)) :
    row ∈ t.rows ↔ row ∈ s.rows := by
  constructor
  · intro listed
    exact (get?_eq_some_iff.mp (same.symm.trans (get?_keyOf listed))).1
  · intro listed
    exact (get?_eq_some_iff.mp (same.trans (get?_keyOf listed))).1

omit [DecidableEq K] in
theorem nodup_rows : t.rows.Nodup := List.Nodup.of_map keyOf t.keys

omit [DecidableEq K] in
/-- What tells rows of different keys apart is different on all rows. -/
theorem nodup_map {p : R → Bool} (apart : ∀ row other, p row = true → p other = true →
    f row = f other → keyOf row = keyOf other) : ((t.rows.filter p).map f).Nodup := by
  refine List.Nodup.map_on ?_ (t.nodup_rows.sublist List.filter_sublist)
  intro row listed other member same
  obtain ⟨here, holds⟩ := List.mem_filter.mp listed
  obtain ⟨there, too⟩ := List.mem_filter.mp member
  exact List.inj_on_of_nodup_map t.keys here there (apart row other holds too same)

theorem mem_map_rows_iff {b : B} : b ∈ t.rows.map f ↔ ∃ k, (t.get? k).map f = some b := by
  rw [List.mem_map]
  constructor
  · rintro ⟨row, listed, rfl⟩
    refine ⟨keyOf row, ?_⟩
    rw [get?_keyOf listed]
    rfl
  · rintro ⟨k, same⟩
    obtain ⟨row, found, equal⟩ := Option.map_eq_some_iff.mp same
    exact ⟨row, (get?_eq_some_iff.mp found).1, equal⟩

/-- Tables that say the same under every key hold the same in some order. -/
theorem perm_map_rows (apart : ∀ row other, f row = f other → keyOf row = keyOf other)
    (same : ∀ k, (t.get? k).map f = (s.get? k).map f) :
    (t.rows.map f).Perm (s.rows.map f) := by
  have distinct : ∀ u : KeyedTable idOf keyOf, (u.rows.map f).Nodup := by
    intro u
    have all := u.nodup_map (p := fun _ => true) fun row other _ _ => apart row other
    rwa [List.filter_true] at all
  refine (List.perm_ext_iff_of_nodup (distinct t) (distinct s)).mpr fun b => ?_
  rw [mem_map_rows_iff, mem_map_rows_iff]
  simp only [same]

end contents

end KeyedTable
