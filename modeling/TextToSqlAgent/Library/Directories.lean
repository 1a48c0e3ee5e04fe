import Mathlib.Data.List.Basic
import TextToSqlAgent.Library.Runs

/-!
# Trees of directories

What is at each path, the operations that write, any of which may be refused, and
how symbolic links are followed. An operation touches no path but its own, and
leaves there nothing but a plain file, a directory or what was there before.
-/

namespace Directories

open Runs

universe u

variable {Name : Type u}

inductive Node (Name : Type u)
  | directory
  | file (content : List UInt8)
  /-- A device, a pipe or a socket. -/
  | special
  | link (absolute : Bool) (target : List Name)

/-- What is at each path from the root. -/
abbrev FileTree (Name : Type u) := List Name → Option (Node Name)

inductive Op (Name : Type u)
  /-- A directory that is there already is no error. -/
  | mkdir (path : List Name)
  /-- Open for writing: a new file, or an old one made empty. -/
  | create (path : List Name)
  | write (path : List Name) (bytes : List UInt8)
  /-- Nothing there is no error. -/
  | unlink (path : List Name)

def Op.path : Op Name → List Name
  | .mkdir path => path
  | .create path => path
  | .write path _ => path
  | .unlink path => path

/-- How many bytes the operation writes. -/
def Op.bytes : Op Name → Nat
  | .write _ bytes => bytes.length
  | _ => 0

def Node.isLink : Node Name → Bool
  | .link _ _ => true
  | _ => false

/-- A plain file or a directory. -/
def Node.plain : Node Name → Bool
  | .directory => true
  | .file _ => true
  | _ => false

variable [DecidableEq Name]

def put (t : FileTree Name) (path : List Name) (node : Option (Node Name)) : FileTree Name :=
  fun q => if q = path then node else t q

/-- A new entry has its place in a directory; the root has none above it. -/
def hasPlace (t : FileTree Name) (path : List Name) : Bool :=
  match t path.dropLast with
  | some .directory => true
  | _ => path.length ≤ 1

/-- An operation on a path on which no link lies. -/
def apply (t : FileTree Name) : Op Name → Option (FileTree Name)
  | .mkdir path =>
    match t path with
    | none => if hasPlace t path then some (put t path (some .directory)) else none
    | some .directory => some t
    | _ => none
  | .create path =>
    match t path with
    | none => if hasPlace t path then some (put t path (some (.file []))) else none
    | some (.file _) => some (put t path (some (.file [])))
    | some .special => some t
    | _ => none
  | .write path bytes =>
    match t path with
    | some (.file content) => some (put t path (some (.file (content ++ bytes))))
    | some .special => some t
    | _ => none
  | .unlink path =>
    match t path with
    | none => some t
    | some .directory => none
    | _ => some (put t path none)

/-- Follow the links of the path `rest` from `done` on; `up` is the name of the
directory above. A chain of links too long for the steps allowed is not followed on. -/
def resolve (t : FileTree Name) (up : Name) : Nat → List Name → List Name → List Name
  | 0, done, rest => done ++ rest
  | _ + 1, done, [] => done
  | steps + 1, done, name :: rest =>
    if name = up then resolve t up steps done.dropLast rest
    else
      match t (done ++ [name]) with
      | some (.link true target) => resolve t up steps [] (target ++ rest)
      | some (.link false target) => resolve t up steps done (target ++ rest)
      | _ => resolve t up steps (done ++ [name]) rest

/-- No link is at a path or below it. -/
def NoLinks (t : FileTree Name) (root : List Name) : Prop :=
  ∀ below node, t (root ++ below) = some node → node.isLink = false

variable {t t' : FileTree Name}

/-- All that an operation can do. -/
theorem apply_cases {op : Op Name} (h : apply t op = some t') :
    t' = t ∨ t' = put t op.path none ∨
      ∃ node : Node Name, node.plain = true ∧ t' = put t op.path (some node) := by
  cases op with
  | mkdir path =>
    rw [apply] at h
    split at h
    · split at h
      · exact .inr (.inr ⟨.directory, rfl, (Option.some.inj h).symm⟩)
      · cases h
    · exact .inl (Option.some.inj h).symm
    · cases h
  | create path =>
    rw [apply] at h
    split at h
    · split at h
      · exact .inr (.inr ⟨.file [], rfl, (Option.some.inj h).symm⟩)
      · cases h
    · exact .inr (.inr ⟨.file [], rfl, (Option.some.inj h).symm⟩)
    · exact .inl (Option.some.inj h).symm
    · cases h
  | write path bytes =>
    rw [apply] at h
    split at h
    · exact .inr (.inr ⟨_, rfl, (Option.some.inj h).symm⟩)
    · exact .inl (Option.some.inj h).symm
    · cases h
  | unlink path =>
    rw [apply] at h
    split at h
    · exact .inl (Option.some.inj h).symm
    · cases h
    · exact .inr (.inl (Option.some.inj h).symm)

/-- What differs from before is gone, or a plain file or directory. -/
def Kept (t t' : FileTree Name) : Prop :=
  ∀ path, t' path = t path ∨ ∀ node, t' path = some node → node.plain = true

theorem kept_apply {op : Op Name} {s : FileTree Name} (kept : Kept s t) (h : apply t op = some t') :
    Kept s t' := by
  intro path
  rcases apply_cases h with rfl | rfl | ⟨node, plain, rfl⟩
  · exact kept path
  · by_cases here : path = op.path
    · refine .inr fun node found => ?_
      rw [put, if_pos here] at found
      cases found
    · rw [put, if_neg here]
      exact kept path
  · by_cases here : path = op.path
    · refine .inr fun other found => ?_
      rw [put, if_pos here] at found
      exact Option.some.inj found ▸ plain
    · rw [put, if_neg here]
      exact kept path

theorem kept_run {ops : List (Op Name)} (reached : run apply t ops = some t') : Kept t t' :=
  invariant (Kept t) (fun _ _ _ kept h => kept_apply kept h) (fun _ => .inl rfl) reached

/-- No operation makes a link. -/
theorem noLinks_run {root : List Name} {ops : List (Op Name)} (none : NoLinks t root)
    (reached : run apply t ops = some t') : NoLinks t' root := by
  intro below node found
  rcases kept_run reached (root ++ below) with same | plain
  · exact none below node (same ▸ found)
  · have own := plain node found
    cases node with
    | link absolute target => cases own
    | _ => rfl

/-- Where no link is, and no name leads up, a path leads where it says. -/
theorem resolve_of_noLinks {up : Name} (steps : Nat) {root rest : List Name}
    (none : NoLinks t root) (down : up ∉ rest) : resolve t up steps root rest = root ++ rest := by
  induction steps generalizing root rest with
  | zero => rfl
  | succ steps ih =>
    cases rest with
    | nil => rw [resolve, List.append_nil]
    | cons name rest =>
      have below : NoLinks t (root ++ [name]) := by
        intro path node found
        exact none (name :: path) node (by simpa using found)
      have other : name ≠ up := fun same => down (same ▸ List.mem_cons_self)
      have further : resolve t up steps (root ++ [name]) rest = root ++ name :: rest := by
        rw [ih below fun listed => down (List.mem_cons_of_mem _ listed)]
        simp
      rw [resolve, if_neg other]
      split
      · rename_i found
        cases none [name] _ found
      · rename_i found
        cases none [name] _ found
      · exact further

/-! ## Files that are made -/

/-- What no operation is on stays as it was. -/
theorem run_frame {ops : List (Op Name)} {path : List Name}
    (others : ∀ op ∈ ops, op.path ≠ path) (reached : run apply t ops = some t') :
    t' path = t path := by
  induction ops generalizing t with
  | nil => rw [← Option.some.inj reached]
  | cons op rest ih =>
    obtain ⟨s, first, later⟩ := run_cons_some.mp reached
    have apart : path ≠ op.path := fun same => others op List.mem_cons_self same.symm
    rw [ih (fun o listed => others o (List.mem_cons_of_mem op listed)) later]
    rcases apply_cases first with rfl | rfl | ⟨node, -, rfl⟩
    · rfl
    · exact if_neg apart
    · exact if_neg apart

/-- A file stays a file until it is removed. -/
theorem file_apply {op : Op Name} {path : List Name} {content : List UInt8}
    (kept : op ≠ .unlink path) (here : t path = some (.file content))
    (h : apply t op = some t') : ∃ content, t' path = some (.file content) := by
  by_cases same : op.path = path
  · subst same
    cases op with
    | mkdir path =>
      rw [Op.path] at here
      rw [apply, here] at h
      cases h
    | create path =>
      rw [Op.path] at here ⊢
      rw [apply, here] at h
      obtain rfl := Option.some.inj h
      exact ⟨[], if_pos rfl⟩
    | write path bytes =>
      rw [Op.path] at here ⊢
      rw [apply, here] at h
      obtain rfl := Option.some.inj h
      exact ⟨_, if_pos rfl⟩
    | unlink path => exact absurd rfl kept
  · have apart : path ≠ op.path := fun equal => same equal.symm
    rcases apply_cases h with rfl | rfl | ⟨node, -, rfl⟩
    · exact ⟨content, here⟩
    · exact ⟨content, (if_neg apart).trans here⟩
    · exact ⟨content, (if_neg apart).trans here⟩

theorem file_run {ops : List (Op Name)} {path : List Name} {content : List UInt8}
    (kept : .unlink path ∉ ops) (here : t path = some (.file content))
    (reached : run apply t ops = some t') : ∃ content, t' path = some (.file content) := by
  induction ops generalizing t content with
  | nil => exact ⟨content, Option.some.inj reached ▸ here⟩
  | cons op rest ih =>
    obtain ⟨s, first, later⟩ := run_cons_some.mp reached
    have other : op ≠ .unlink path := fun same => kept (same ▸ List.mem_cons_self)
    obtain ⟨content, found⟩ := file_apply other here first
    exact ih (fun listed => kept (List.mem_cons_of_mem op listed)) found later

/-- What is made where nothing was, and not removed, is there at the end. -/
theorem file_of_create {ops : List (Op Name)} {path : List Name}
    (plain : ∀ node, t path = some node → node.plain = true) (made : .create path ∈ ops)
    (kept : .unlink path ∉ ops) (reached : run apply t ops = some t') :
    ∃ content, t' path = some (.file content) := by
  induction ops generalizing t with
  | nil => cases made
  | cons op rest ih =>
    obtain ⟨s, first, later⟩ := run_cons_some.mp reached
    have after : .unlink path ∉ rest := fun listed => kept (List.mem_cons_of_mem op listed)
    rcases List.mem_cons.mp made with rfl | inside
    · have own : s path = some (.file []) := by
        rw [apply] at first
        split at first
        · split at first
          · exact Option.some.inj first ▸ if_pos rfl
          · cases first
        · exact Option.some.inj first ▸ if_pos rfl
        · rename_i found
          cases plain _ found
        · cases first
      exact file_run after own later
    · refine ih (fun node found => ?_) inside after later
      rcases apply_cases first with rfl | rfl | ⟨made, own, rfl⟩
      · exact plain node found
      · by_cases here : path = op.path
        · rw [put, if_pos here] at found
          cases found
        · rw [put, if_neg here] at found
          exact plain node found
      · by_cases here : path = op.path
        · rw [put, if_pos here] at found
          exact Option.some.inj found ▸ own
        · rw [put, if_neg here] at found
          exact plain node found

/-- Only files that are opened for writing can be there at the end. -/
theorem opened_of_file {ops : List (Op Name)} {path : List Name}
    (none : ∀ content, t path ≠ some (.file content)) {content : List UInt8}
    (here : t' path = some (.file content)) (reached : run apply t ops = some t') :
    .create path ∈ ops := by
  induction ops generalizing t with
  | nil => exact absurd (Option.some.inj reached ▸ here) (none content)
  | cons op rest ih =>
    obtain ⟨s, first, later⟩ := run_cons_some.mp reached
    by_cases opened : op = .create path
    · exact opened ▸ List.mem_cons_self
    · refine List.mem_cons_of_mem op (ih (fun content found => ?_) later)
      by_cases own : path = op.path
      · subst own
        cases op with
        | mkdir path =>
          rw [Op.path] at found none
          rw [apply] at first
          split at first
          · split at first
            · obtain rfl := Option.some.inj first
              rw [put, if_pos rfl] at found
              cases found
            · cases first
          · exact none content (Option.some.inj first ▸ found)
          · cases first
        | create path => exact opened rfl
        | write path bytes =>
          rw [Op.path] at found none
          rw [apply] at first
          split at first
          · rename_i old there
            exact none old there
          · exact none content (Option.some.inj first ▸ found)
          · cases first
        | unlink path =>
          rw [Op.path] at found none
          rw [apply] at first
          split at first
          · exact none content (Option.some.inj first ▸ found)
          · cases first
          · obtain rfl := Option.some.inj first
            rw [put, if_pos rfl] at found
            cases found
      · rcases apply_cases first with rfl | rfl | ⟨node, -, rfl⟩
        · exact none content found
        · exact none content ((if_neg own).symm.trans found)
        · exact none content ((if_neg own).symm.trans found)

/-- What is removed last is gone. -/
theorem none_of_unlink {ops : List (Op Name)} {path : List Name}
    (reached : run apply t (ops ++ [.unlink path]) = some t') : t' path = none := by
  obtain ⟨s, -, last⟩ := run_append_some.mp reached
  obtain ⟨u, removed, ended⟩ := run_cons_some.mp last
  obtain rfl := Option.some.inj ended
  rw [apply] at removed
  split at removed
  · rename_i gone
    exact Option.some.inj removed ▸ gone
  · cases removed
  · exact Option.some.inj removed ▸ if_pos rfl

end Directories
