import Mathlib.Algebra.GroupWithZero.Nat
import Mathlib.Algebra.Order.BigOperators.Group.List
import Mathlib.Algebra.Order.Group.Nat
import TextToSqlAgent.Core.Exceptions
import TextToSqlAgent.Library.Directories
import TextToSqlAgent.Library.Fallible

/-!
# Unpacking an archive

`extract`: every member is looked at first, then they are written one after the
other. A run is given as the operations it performs, in order; whatever refuses
one of them ends it there.
-/

namespace Acquire

open Directories Exceptions Runs

/-- What reading a member gives: the chunks of one `read` each, and then the end or
an exception. -/
structure Stream where
  chunks : List (List UInt8)
  ending : Option Raised

/-- An entry of the archive's directory, and what opening the member gives. -/
structure ZipInfo where
  filename : String
  externalAttr : Nat
  fileSize : Nat
  opens : Except Raised Stream

structure BenchmarkSettings where
  maxArchiveMembers : Nat
  maxMemberBytes : Nat
  maxArchiveBytes : Nat

/-- What is used of Python's texts and of the platform: `repr`, `str.lower`, whether
`os.name` is `nt`, and how many links a path may lead over. -/
structure Platform where
  repr : String → String
  lower : String → String
  nt : Bool
  steps : Nat

/-- An operation and the number of the member it is for, if it is for one. -/
structure Effect where
  member : Option Nat
  op : Op String

structure Extraction where
  written : List (List String)
  skipped : List (String × String)
  totalBytes : Nat

def unsafeArchive (message : String) : Raised := .domain ⟨.unsafeArchiveError, message, none, none⟩

/-! ## Names -/

/-- What stands between the slashes of a text. -/
def splitSlash : List Char → List (List Char)
  | [] => [[]]
  | c :: rest =>
    if c = '/' then [] :: splitSlash rest
    else
      match splitSlash rest with
      | first :: others => (c :: first) :: others
      | [] => [[c]]

/-- `name.replace("\\", "/").split("/")`. -/
def pieces (name : String) : List String :=
  (splitSlash (name.toList.map fun c => if c = '\\' then '/' else c)).map String.ofList

/-- The parts of a relative `PurePosixPath`, which keeps no empty one and no `.`. -/
def partsOf (name : String) : List String := (pieces name).filter fun part => part ≠ "" ∧ part ≠ "."

/-- `_DRIVE.match`. -/
def isDrive (part : String) : Bool :=
  match part.toList with
  | c :: ':' :: _ => ('A' ≤ c && c ≤ 'Z') || ('a' ≤ c && c ≤ 'z')
  | _ => false

def databaseSuffixes : List String := [".sqlite", ".sqlite3", ".db"]

/-- `_WINDOWS_ILLEGAL`, in order. -/
def windowsIllegal : List Char := ['"', '*', ':', '<', '>', '?', '|']

/-- What Windows has against one part of a name. -/
def partReason (part : String) : Option String :=
  if part = "" ∨ part = "." ∨ part = ".." then none
  else
    let illegal := windowsIllegal.filter fun c => c ∈ part.toList
    if illegal ≠ [] then
      some ("contains '" ++ String.ofList illegal ++ "', which Windows filenames cannot hold")
    else if part.toList.getLast? = some ' ' ∨ part.toList.getLast? = some '.' then
      some "ends in a space or dot, which Windows silently strips"
    else none

def unrepresentableReason (p : Platform) (name : String) : Option String :=
  if p.nt then (pieces name).findSome? partReason else none

/-- `resolve_member`, for a destination that resolves to `root`. -/
def resolveMember (p : Platform) (t : FileTree String) (root : List String) (name : String) :
    Except Raised (List String) :=
  if name = "" ∨ name.toList.head? = some '/' ∨ name.toList.head? = some '\\' then
    .error (unsafeArchive s!"archive member {p.repr name} is an absolute path")
  else
    let parts := partsOf name
    if ".." ∈ parts then
      .error (unsafeArchive s!"archive member {p.repr name} escapes the destination with '..'")
    else if parts.any isDrive then
      .error (unsafeArchive s!"archive member {p.repr name} contains a drive reference")
    else if parts = [] then
      .error (unsafeArchive s!"archive member {p.repr name} has no usable path")
    else if '\x00' ∈ name.toList then
      -- `resolve` raises for such a path.
      .error (.unexpected "ValueError: embedded null byte")
    else
      let resolved := resolve t ".." p.steps root parts
      if root <+: resolved then .ok resolved
      else .error (unsafeArchive (s!"archive member {p.repr name} resolves to /"
        ++ "/".intercalate resolved ++ s!", outside /" ++ "/".intercalate root))

/-- `_is_link`: the file type of the Unix mode, where one is given. -/
def isLink (info : ZipInfo) : Bool :=
  let fileType := (info.externalAttr >>> 16) &&& 0o170000
  if fileType = 0 then false else fileType ≠ 0o100000 ∧ fileType ≠ 0o040000

def ZipInfo.isDir (info : ZipInfo) : Bool := info.filename.toList.getLast? = some '/'

/-! ## Writing -/

/-- `mkdir(parents=True, exist_ok=True)` of a path below `root`, which is there. -/
def mkdirs (root : List String) : List String → List (Op String)
  | [] => []
  | name :: rest => .mkdir (root ++ [name]) :: mkdirs (root ++ [name]) rest

/-- The loop of `_copy_member`, with what is written so far. -/
def copyChunks (p : Platform) (info : ZipInfo) (target : List String) (budget : Int)
    (ending : Option Raised) : Nat → List (List UInt8) → List (Op String) × Except Raised Nat
  | written, [] =>
    match ending with
    | none => ([], .ok written)
    | some exc => ([], .error exc)
  | written, chunk :: rest =>
    if chunk = [] then ([], .ok written)
    else if budget < (written + chunk.length : Nat) then
      ([.unlink target], .error (unsafeArchive (s!"archive member {p.repr info.filename} expanded "
        ++ s!"past its {budget}-byte budget; refusing to continue (declared size was "
        ++ s!"{info.fileSize})")))
    else
      let (ops, result) := copyChunks p info target budget ending (written + chunk.length) rest
      (.write target chunk :: ops, result)

/-- `_copy_member`. -/
def copyMember (p : Platform) (info : ZipInfo) (target : List String) (budget : Int) :
    List (Op String) × Except Raised Nat :=
  match info.opens with
  | .error exc => ([], .error exc)
  | .ok stream =>
    let (ops, result) := copyChunks p info target budget stream.ending 0 stream.chunks
    (.create target :: ops, result)

/-- A member that is to be written: its number, its entry, and its path below the
destination. -/
structure Target where
  member : Nat
  info : ZipInfo
  parts : List String

def tagged (target : Target) (ops : List (Op String)) : List Effect :=
  ops.map fun op => ⟨some target.member, op⟩

/-- The second loop of `extract`, with the total so far. -/
def writeTargets (p : Platform) (settings : BenchmarkSettings) (root : List String) :
    Nat → List Target → List Effect × Except Raised (List (List String) × Nat)
  | total, [] => ([], .ok ([], total))
  | total, target :: rest =>
    if target.info.isDir then
      let (effects, result) := writeTargets p settings root total rest
      (tagged target (mkdirs root target.parts) ++ effects, result)
    else
      let budget := min (settings.maxMemberBytes : Int) (settings.maxArchiveBytes - total)
      let (ops, copied) := copyMember p target.info (root ++ target.parts) budget
      let made := tagged target (mkdirs root target.parts.dropLast ++ ops)
      match copied with
      | .error exc => (made, .error exc)
      | .ok bytes =>
        let (effects, result) := writeTargets p settings root (total + bytes) rest
        (made ++ effects, result.map fun entry => ((root ++ target.parts) :: entry.1, entry.2))

/-- The first loop of `extract`: what is to be written and what is skipped. -/
def validate (p : Platform) (t : FileTree String) (root : List String) :
    Nat → List ZipInfo → Except Raised (List Target × List (String × String))
  | _, [] => .ok ([], [])
  | i, info :: rest => do
    if isLink info then
      throw (unsafeArchive s!"archive member {p.repr info.filename} is a symlink or special file")
    let target ← resolveMember p t root info.filename
    match unrepresentableReason p info.filename with
    | some reason =>
      if databaseSuffixes.any fun suffix => (p.lower info.filename).endsWith suffix then
        throw (unsafeArchive (s!"database file {p.repr info.filename} {reason}. Skipping it would "
          ++ "silently drop a database from the corpus, so the archive is refused instead. "
          ++ "Extract it on a filesystem that can hold the name."))
      let (targets, skipped) ← validate p t root (i + 1) rest
      return (targets, (info.filename, reason) :: skipped)
    | none =>
      let (targets, skipped) ← validate p t root (i + 1) rest
      return (⟨i, info, target.drop root.length⟩ :: targets, skipped)

/-- `extract`, for a destination that resolves to `root`. -/
def extract (p : Platform) (settings : BenchmarkSettings) (archive : String) (t : FileTree String)
    (root : List String) (infos : List ZipInfo) : List Effect × Except Raised Extraction :=
  let made : List Effect := (mkdirs [] root).map fun op => ⟨none, op⟩
  match run apply t (mkdirs [] root) with
  | none => (made, .error (.unexpected "OSError"))
  | some t' =>
    if settings.maxArchiveMembers < infos.length then
      (made, .error (unsafeArchive (s!"{archive} declares {infos.length} members, over the "
        ++ s!"{settings.maxArchiveMembers} limit")))
    else
      match validate p t' root 0 infos with
      | .error exc => (made, .error exc)
      | .ok (targets, skipped) =>
        let (effects, result) := writeTargets p settings root 0 targets
        (made ++ effects, result.map fun entry => ⟨entry.1, skipped, entry.2⟩)

/-! ## What is asked -/

/-- A name that is one step down and no more, on any system. -/
structure Component (part : String) : Prop where
  nonempty : part ≠ ""
  here : part ≠ "."
  up : part ≠ ".."
  slash : '/' ∉ part.toList
  backslash : '\\' ∉ part.toList
  drive : isDrive part = false

/-- Strictly inside the destination, by such steps. -/
def Inside (root path : List String) : Prop :=
  ∃ parts, parts ≠ [] ∧ path = root ++ parts ∧ ∀ part ∈ parts, Component part

/-- The operation makes the destination or one of its parents, or is for a member and
strictly inside the destination. -/
def Safe (root : List String) (e : Effect) : Prop :=
  match e.member with
  | none => ∃ path, e.op = .mkdir path ∧ path <+: root
  | some _ => Inside root e.op.path

def bytesOf (effects : List Effect) : Nat := (effects.map fun e => e.op.bytes).sum

/-- How many bytes are written for member `i`. -/
def writtenFor (i : Nat) (effects : List Effect) : Nat :=
  bytesOf (effects.filter fun e => e.member = some i)

/-! ## Names that are accepted -/

theorem mem_splitSlash {text piece : List Char} (listed : piece ∈ splitSlash text) :
    ∀ c ∈ piece, c ∈ text ∧ c ≠ '/' := by
  induction text generalizing piece with
  | nil =>
    rw [splitSlash, List.mem_singleton] at listed
    subst listed
    exact nofun
  | cons a rest ih =>
    rw [splitSlash] at listed
    have later : ∀ other ∈ splitSlash rest, ∀ c ∈ other, c ∈ a :: rest ∧ c ≠ '/' := by
      intro other present c inside
      obtain ⟨below, apart⟩ := ih present c inside
      exact ⟨List.mem_cons_of_mem _ below, apart⟩
    split at listed
    · rcases List.mem_cons.mp listed with rfl | present
      · exact nofun
      · exact later piece present
    · rename_i apart
      split at listed
      · rename_i first others split_rest
        rcases List.mem_cons.mp listed with rfl | present
        · intro c inside
          rcases List.mem_cons.mp inside with rfl | below
          · exact ⟨List.mem_cons_self, apart⟩
          · exact later first (split_rest ▸ List.mem_cons_self) c below
        · exact later piece (split_rest ▸ List.mem_cons_of_mem _ present)
      · rw [List.mem_singleton] at listed
        subst listed
        intro c inside
        rw [List.mem_singleton] at inside
        subst inside
        exact ⟨List.mem_cons_self, apart⟩

theorem component_of_mem_partsOf {name part : String} (listed : part ∈ partsOf name)
    (up : ".." ∉ partsOf name) (drives : (partsOf name).any isDrive = false) : Component part := by
  obtain ⟨piece, kept⟩ := List.mem_filter.mp listed
  obtain ⟨nonempty, here⟩ := of_decide_eq_true kept
  obtain ⟨chars, split, rfl⟩ := List.mem_map.mp piece
  have inside := mem_splitSlash split
  constructor
  · exact nonempty
  · exact here
  · intro same
    exact up (same ▸ listed)
  · intro present
    rw [String.toList_ofList] at present
    exact (inside _ present).2 rfl
  · intro present
    rw [String.toList_ofList] at present
    -- Every backslash has become a slash.
    obtain ⟨c, -, same⟩ := List.mem_map.mp (inside _ present).1
    split at same
    · cases same
    · exact absurd same ‹_›
  · exact List.any_eq_false.mp drives _ listed |> Bool.eq_false_iff.mpr

variable {p : Platform} {settings : BenchmarkSettings} {t : FileTree String} {root : List String}

theorem inside_of_resolveMember (none : NoLinks t root) {name : String} {path : List String}
    (resolved : resolveMember p t root name = .ok path) :
    ∃ parts, parts ≠ [] ∧ path = root ++ parts ∧ ∀ part ∈ parts, Component part := by
  rw [resolveMember] at resolved
  split at resolved
  · cases resolved
  dsimp only at resolved
  split at resolved
  · cases resolved
  rename_i up
  split at resolved
  · cases resolved
  rename_i drives
  split at resolved
  · cases resolved
  rename_i nonempty
  split at resolved
  · cases resolved
  rw [resolve_of_noLinks p.steps none up, if_pos (List.prefix_append _ _)] at resolved
  cases resolved
  refine ⟨partsOf name, nonempty, rfl, fun part listed => ?_⟩
  exact component_of_mem_partsOf listed up (Bool.eq_false_iff.mpr drives)

/-- What is to be written is strictly inside, each member once and in order. -/
structure Planned (first : Nat) (targets : List Target) : Prop where
  inside : ∀ target ∈ targets, target.parts ≠ [] ∧ ∀ part ∈ target.parts, Component part
  later : ∀ target ∈ targets, first ≤ target.member
  distinct : targets.Pairwise fun a b => a.member ≠ b.member

theorem planned_nil (first : Nat) : Planned first [] := ⟨nofun, nofun, .nil⟩

theorem Planned.tail {first : Nat} {target : Target} {rest : List Target}
    (planned : Planned first (target :: rest)) : Planned first rest where
  inside other listed := planned.inside other (List.mem_cons_of_mem _ listed)
  later other listed := planned.later other (List.mem_cons_of_mem _ listed)
  distinct := (List.pairwise_cons.mp planned.distinct).2

theorem planned_of_validate (none : NoLinks t root) {infos : List ZipInfo} {first : Nat}
    {targets : List Target} {skipped : List (String × String)}
    (valid : validate p t root first infos = .ok (targets, skipped)) : Planned first targets := by
  induction infos generalizing first targets skipped with
  | nil =>
    cases valid
    exact planned_nil first
  | cons info rest ih =>
    rw [validate] at valid
    split at valid
    · cases valid
    obtain ⟨path, resolved, valid⟩ := Fallible.bind_ok_iff.mp valid
    obtain ⟨parts, nonempty, rfl, components⟩ := inside_of_resolveMember none resolved
    split at valid
    · split at valid
      · cases valid
      obtain ⟨⟨others, more⟩, found, valid⟩ := Fallible.bind_ok_iff.mp valid
      cases valid
      have planned := ih found
      exact ⟨planned.inside, fun target listed => Nat.le_of_succ_le (planned.later target listed),
        planned.distinct⟩
    · obtain ⟨⟨others, more⟩, found, valid⟩ := Fallible.bind_ok_iff.mp valid
      rw [List.drop_left] at valid
      cases valid
      have planned := ih found
      constructor
      · intro target listed
        rcases List.mem_cons.mp listed with rfl | present
        · exact ⟨nonempty, components⟩
        · exact planned.inside target present
      · intro target listed
        rcases List.mem_cons.mp listed with rfl | present
        · exact Nat.le_refl _
        · exact Nat.le_of_succ_le (planned.later target present)
      · refine List.pairwise_cons.mpr ⟨?_, planned.distinct⟩
        intro target present same
        have after := planned.later target present
        simp only at same
        omega

/-! ## What is written -/

theorem bytesOf_append (a b : List Effect) : bytesOf (a ++ b) = bytesOf a + bytesOf b := by
  rw [bytesOf, List.map_append, List.sum_append]
  rfl

theorem bytesOf_tagged (target : Target) (ops : List (Op String)) :
    bytesOf (tagged target ops) = (ops.map Op.bytes).sum := by
  rw [bytesOf, tagged, List.map_map]
  rfl

theorem mkdirs_bytes (root parts : List String) : ((mkdirs root parts).map Op.bytes).sum = 0 := by
  induction parts generalizing root with
  | nil => rfl
  | cons name rest ih =>
    rw [mkdirs, List.map_cons, List.sum_cons, ih]
    rfl

/-- The directories made lie between the one and the other. -/
theorem mem_mkdirs {root parts : List String} {op : Op String} (listed : op ∈ mkdirs root parts) :
    ∃ between, between ≠ [] ∧ between <+: parts ∧ op = .mkdir (root ++ between) := by
  induction parts generalizing root with
  | nil => cases listed
  | cons name rest ih =>
    rcases List.mem_cons.mp listed with rfl | below
    · exact ⟨[name], by simp, ⟨rest, rfl⟩, rfl⟩
    · obtain ⟨between, -, ⟨more, rfl⟩, rfl⟩ := ih below
      exact ⟨name :: between, by simp, ⟨more, rfl⟩, by simp⟩

variable {info : ZipInfo} {target : List String} {budget : Int}

theorem path_of_mem_copyChunks {ending : Option Raised} {chunks : List (List UInt8)}
    {written : Nat} :
    ∀ op ∈ (copyChunks p info target budget ending written chunks).1, op.path = target := by
  induction chunks generalizing written with
  | nil =>
    cases ending with
    | none => exact nofun
    | some exc => exact nofun
  | cons chunk rest ih =>
    rw [copyChunks]
    split
    · exact nofun
    split
    · intro op listed
      rw [List.mem_singleton.mp listed]
      rfl
    · intro op listed
      rcases List.mem_cons.mp listed with rfl | later
      · rfl
      · exact ih op later

/-- The copy stays within its budget, and reports what it has written. -/
theorem bytes_copyChunks {ending : Option Raised} {chunks : List (List UInt8)} {written : Nat}
    (within : (written : Int) ≤ budget) :
    ((written +
        ((copyChunks p info target budget ending written chunks).1.map Op.bytes).sum : Nat) : Int) ≤
          budget ∧
      ∀ n, (copyChunks p info target budget ending written chunks).2 = .ok n →
        n = written + ((copyChunks p info target budget ending written chunks).1.map Op.bytes).sum
    := by
  induction chunks generalizing written with
  | nil =>
    cases ending with
    | none => exact ⟨within, fun n same => (Except.ok.inj same).symm⟩
    | some exc => exact ⟨within, nofun⟩
  | cons chunk rest ih =>
    rw [copyChunks]
    split
    · exact ⟨within, fun n same => (Except.ok.inj same).symm⟩
    split
    · exact ⟨within, nofun⟩
    · rename_i fits
      have within' : ((written + chunk.length : Nat) : Int) ≤ budget := by omega
      obtain ⟨bound, reported⟩ := ih within'
      have more : (Op.bytes (.write target chunk : Op String)) = chunk.length := rfl
      simp only [List.map_cons, List.sum_cons, more]
      refine ⟨by omega, fun n same => ?_⟩
      have told := reported n same
      omega

theorem path_of_mem_copyMember :
    ∀ op ∈ (copyMember p info target budget).1, op.path = target := by
  rw [copyMember]
  cases info.opens with
  | error exc => exact nofun
  | ok stream =>
    intro op listed
    rcases List.mem_cons.mp listed with rfl | later
    · rfl
    · exact path_of_mem_copyChunks op later

theorem bytes_copyMember (nonneg : 0 ≤ budget) :
    ((((copyMember p info target budget).1.map Op.bytes).sum : Nat) : Int) ≤ budget ∧
      ∀ n, (copyMember p info target budget).2 = .ok n →
        n = ((copyMember p info target budget).1.map Op.bytes).sum := by
  rw [copyMember]
  cases info.opens with
  | error exc => exact ⟨nonneg, nofun⟩
  | ok stream =>
    have opened : (Op.bytes (.create target : Op String)) = 0 := rfl
    have copied := @bytes_copyChunks p info target budget stream.ending stream.chunks 0 nonneg
    simpa only [List.map_cons, List.sum_cons, opened, Nat.zero_add] using copied

/-- An effect is for one of the targets and at or above its path, below the destination. -/
def For (root : List String) (target : Target) (e : Effect) : Prop :=
  e.member = some target.member ∧
    ∃ between, between ≠ [] ∧ between <+: target.parts ∧ e.op.path = root ++ between

theorem for_of_mem_tagged {target : Target} {ops : List (Op String)} {e : Effect}
    (listed : e ∈ tagged target ops)
    (paths : ∀ op ∈ ops, ∃ between, between ≠ [] ∧ between <+: target.parts ∧
      op.path = root ++ between) : For root target e := by
  obtain ⟨op, present, rfl⟩ := List.mem_map.mp listed
  exact ⟨rfl, paths op present⟩

theorem for_of_mem_writeTargets {targets : List Target} {total first : Nat}
    (planned : Planned first targets) :
    ∀ e ∈ (writeTargets p settings root total targets).1,
      ∃ target ∈ targets, For root target e := by
  induction targets generalizing total with
  | nil => exact nofun
  | cons target rest ih =>
    have later : ∀ {total : Nat} {e : Effect}, e ∈ (writeTargets p settings root total rest).1 →
        ∃ other ∈ target :: rest, For root other e := by
      intro total e listed
      obtain ⟨other, present, own⟩ := ih planned.tail e listed
      exact ⟨other, List.mem_cons_of_mem _ present, own⟩
    have nonempty := (planned.inside target List.mem_cons_self).1
    have directories : ∀ {parts : List String}, parts <+: target.parts →
        ∀ op ∈ mkdirs root parts, ∃ between, between ≠ [] ∧ between <+: target.parts ∧
          op.path = root ++ between := by
      intro parts below op listed
      obtain ⟨between, some_part, part, rfl⟩ := mem_mkdirs listed
      exact ⟨between, some_part, part.trans below, rfl⟩
    rw [writeTargets]
    split
    · intro e listed
      rcases List.mem_append.mp listed with own | listed
      · exact ⟨target, List.mem_cons_self,
          for_of_mem_tagged own (directories (List.prefix_refl _))⟩
      · exact later listed
    · have own : ∀ e ∈ tagged target (mkdirs root target.parts.dropLast ++
          (copyMember p target.info (root ++ target.parts)
            (min (settings.maxMemberBytes : Int) (settings.maxArchiveBytes - total))).1),
          For root target e := by
        intro e listed
        refine for_of_mem_tagged listed ?_
        intro op present
        rcases List.mem_append.mp present with directory | copied
        · exact directories (List.dropLast_prefix _) op directory
        · exact ⟨target.parts, nonempty, List.prefix_refl _, path_of_mem_copyMember op copied⟩
      dsimp only
      split
      · intro e listed
        exact ⟨target, List.mem_cons_self, own e listed⟩
      · intro e listed
        rcases List.mem_append.mp listed with mine | listed
        · exact ⟨target, List.mem_cons_self, own e mine⟩
        · exact later listed

/-- What one member writes, within its budget. -/
theorem bytes_member {total : Nat} (within : total ≤ settings.maxArchiveBytes) (target : Target) :
    let copied := copyMember p target.info (root ++ target.parts)
      (min (settings.maxMemberBytes : Int) (settings.maxArchiveBytes - total))
    let own := bytesOf (tagged target (mkdirs root target.parts.dropLast ++ copied.1))
    total + own ≤ settings.maxArchiveBytes ∧ own ≤ settings.maxMemberBytes ∧
      ∀ n, copied.2 = .ok n → n = own := by
  intro copied own
  have nonneg : 0 ≤ min (settings.maxMemberBytes : Int) (settings.maxArchiveBytes - total) := by
    omega
  obtain ⟨bound, reported⟩ : (((copied.1.map Op.bytes).sum : Nat) : Int) ≤
        min (settings.maxMemberBytes : Int) (settings.maxArchiveBytes - total) ∧
      ∀ n, copied.2 = .ok n → n = (copied.1.map Op.bytes).sum := bytes_copyMember nonneg
  have same : own = (copied.1.map Op.bytes).sum := by
    simp only [own]
    rw [bytesOf_tagged, List.map_append, List.sum_append, mkdirs_bytes, Nat.zero_add]
  rw [same]
  exact ⟨by omega, by omega, reported⟩

theorem bytes_writeTargets {targets : List Target} {total : Nat}
    (within : total ≤ settings.maxArchiveBytes) :
    total + bytesOf (writeTargets p settings root total targets).1 ≤ settings.maxArchiveBytes := by
  induction targets generalizing total with
  | nil => exact within
  | cons target rest ih =>
    rw [writeTargets]
    split
    · rw [bytesOf_append, bytesOf_tagged, mkdirs_bytes, Nat.zero_add]
      exact ih within
    · obtain ⟨bound, -, reported⟩ := @bytes_member p settings root total within target
      dsimp only
      split
      · exact bound
      · rename_i bytes copied
        have own := reported bytes copied
        rw [bytesOf_append]
        have later := ih (own ▸ bound : total + bytes ≤ settings.maxArchiveBytes)
        omega

theorem writtenFor_append (i : Nat) (a b : List Effect) :
    writtenFor i (a ++ b) = writtenFor i a + writtenFor i b := by
  rw [writtenFor, List.filter_append, bytesOf_append]
  rfl

theorem writtenFor_le (i : Nat) (effects : List Effect) : writtenFor i effects ≤ bytesOf effects :=
  (List.filter_sublist.map _).sum_le_sum fun _ _ => Nat.zero_le _

theorem writtenFor_eq_zero {i : Nat} {effects : List Effect}
    (others : ∀ e ∈ effects, e.member ≠ some i) : writtenFor i effects = 0 := by
  have nothing : effects.filter (fun e => e.member = some i) = [] :=
    List.filter_eq_nil_iff.mpr fun e listed => by simpa using others e listed
  rw [writtenFor, nothing]
  rfl

theorem writtenFor_writeTargets {targets : List Target} {total first : Nat}
    (planned : Planned first targets) (within : total ≤ settings.maxArchiveBytes) (i : Nat) :
    writtenFor i (writeTargets p settings root total targets).1 ≤ settings.maxMemberBytes := by
  induction targets generalizing total with
  | nil => exact Nat.zero_le _
  | cons target rest ih =>
    -- The rest of the targets are other members.
    have apart : ∀ {total : Nat}, target.member = i →
        writtenFor i (writeTargets p settings root total rest).1 = 0 := by
      intro total same
      refine writtenFor_eq_zero fun e listed mine => ?_
      obtain ⟨other, present, own, -⟩ := for_of_mem_writeTargets planned.tail e listed
      rw [own, Option.some.injEq, ← same] at mine
      exact (List.pairwise_cons.mp planned.distinct).1 other present mine.symm
    have others : ∀ {ops : List (Op String)}, target.member ≠ i →
        writtenFor i (tagged target ops) = 0 := by
      intro ops other
      refine writtenFor_eq_zero fun e listed mine => ?_
      obtain ⟨op, -, rfl⟩ := List.mem_map.mp listed
      exact other (Option.some.inj mine)
    rw [writeTargets]
    split
    · rw [writtenFor_append]
      have own := writtenFor_le i (tagged target (mkdirs root target.parts))
      rw [bytesOf_tagged, mkdirs_bytes] at own
      have later := ih planned.tail within
      omega
    · obtain ⟨bound, small, reported⟩ := @bytes_member p settings root total within target
      have own := writtenFor_le i (tagged target (mkdirs root target.parts.dropLast ++
        (copyMember p target.info (root ++ target.parts)
          (min (settings.maxMemberBytes : Int) (settings.maxArchiveBytes - total))).1))
      dsimp only
      split
      · exact Nat.le_trans own small
      · rename_i bytes copied
        have told := reported bytes copied
        rw [writtenFor_append]
        by_cases same : target.member = i
        · rw [apart same]
          exact Nat.le_trans own small
        · rw [others same, Nat.zero_add]
          exact ih planned.tail (told ▸ bound)

/-! ## Every run -/

/-- The effects of a whole run are those on the destination and those of the members. -/
theorem extract_effects (archive : String) (infos : List ZipInfo) (none : NoLinks t root) :
    (∃ made : List Effect, (∀ e ∈ made, e.member = .none ∧ ∃ path, e.op = .mkdir path ∧
        path <+: root) ∧
      ∃ (targets : List Target), Planned 0 targets ∧
        ((extract p settings archive t root infos).1 = made ∨
          (extract p settings archive t root infos).1 =
            made ++ (writeTargets p settings root 0 targets).1)) := by
  refine ⟨(mkdirs [] root).map fun op => ⟨.none, op⟩, ?_, ?_⟩
  · intro e listed
    obtain ⟨op, present, rfl⟩ := List.mem_map.mp listed
    obtain ⟨between, -, above, rfl⟩ := mem_mkdirs present
    exact ⟨rfl, _, rfl, by simpa using above⟩
  · rw [extract]
    split
    · exact ⟨[], planned_nil 0, .inl rfl⟩
    · rename_i t' reached
      split
      · exact ⟨[], planned_nil 0, .inl rfl⟩
      · split
        · exact ⟨[], planned_nil 0, .inl rfl⟩
        · rename_i targets skipped valid
          exact ⟨targets, planned_of_validate (noLinks_run none reached) valid, .inr rfl⟩

theorem bytesOf_mono {done effects : List Effect} (part : done <+: effects) :
    bytesOf done ≤ bytesOf effects := by
  obtain ⟨rest, rfl⟩ := part
  rw [bytesOf_append]
  exact Nat.le_add_right _ _

theorem writtenFor_mono (i : Nat) {done effects : List Effect} (part : done <+: effects) :
    writtenFor i done ≤ writtenFor i effects := by
  obtain ⟨rest, rfl⟩ := part
  rw [writtenFor_append]
  exact Nat.le_add_right _ _

theorem safe_of_for {target : Target} {e : Effect} (own : For root target e)
    (components : ∀ part ∈ target.parts, Component part) : Safe root e := by
  obtain ⟨member, between, nonempty, part, path⟩ := own
  rw [Safe, member]
  exact ⟨between, nonempty, path, fun name listed => components name (part.subset listed)⟩

/-- However far the extraction comes: but for the destination and its parents, which
it makes first, it touches paths strictly inside only; what it leaves there is a plain
file, a directory or what was there before; and it writes no more than allowed, for
one member and for all. -/
theorem extract_safe {archive : String} {infos : List ZipInfo} {done : List Effect}
    {t' : FileTree String} (none : NoLinks t root)
    (part : done <+: (extract p settings archive t root infos).1)
    (reached : run apply t (done.map Effect.op) = some t') :
    (∀ e ∈ done, Safe root e) ∧ Kept t t' ∧
      (∀ i, writtenFor i done ≤ settings.maxMemberBytes) ∧
      bytesOf done ≤ settings.maxArchiveBytes := by
  obtain ⟨made, directories, targets, planned, effects⟩ :=
    @extract_effects p settings t root archive infos none
  have quiet : bytesOf made = 0 ∧ ∀ i, writtenFor i made = 0 := by
    refine ⟨?_, fun i => writtenFor_eq_zero fun e listed mine => ?_⟩
    · rw [bytesOf]
      refine List.sum_eq_zero fun n listed => ?_
      obtain ⟨e, present, rfl⟩ := List.mem_map.mp listed
      obtain ⟨-, path, op, -⟩ := directories e present
      rw [op]
      rfl
    · rw [(directories e listed).1] at mine
      cases mine
  have first : ∀ e ∈ made, Safe root e := by
    intro e listed
    obtain ⟨member, path, op, above⟩ := directories e listed
    rw [Safe, member]
    exact ⟨path, op, above⟩
  have later : ∀ e ∈ (writeTargets p settings root 0 targets).1, Safe root e := by
    intro e listed
    obtain ⟨target, present, own⟩ := for_of_mem_writeTargets planned e listed
    exact safe_of_for own (planned.inside target present).2
  refine ⟨?_, kept_run reached, ?_, ?_⟩
  · intro e listed
    have whole := part.subset listed
    rcases effects with stopped | finished
    · exact first e (stopped ▸ whole)
    · rw [finished] at whole
      rcases List.mem_append.mp whole with destination | member
      · exact first e destination
      · exact later e member
  · intro i
    refine Nat.le_trans (writtenFor_mono i part) ?_
    rcases effects with stopped | finished
    · rw [stopped, quiet.2 i]
      exact Nat.zero_le _
    · rw [finished, writtenFor_append, quiet.2 i, Nat.zero_add]
      exact writtenFor_writeTargets planned (Nat.zero_le _) i
  · refine Nat.le_trans (bytesOf_mono part) ?_
    rcases effects with stopped | finished
    · rw [stopped, quiet.1]
      exact Nat.zero_le _
    · rw [finished, bytesOf_append, quiet.1]
      exact bytes_writeTargets (Nat.zero_le _)

/-! ## A small archive -/

def posix : Platform := ⟨fun s => "'" ++ s ++ "'", fun s => s, false, 40⟩

def limits : BenchmarkSettings := ⟨10, 1024, 2048⟩

/-- Some nodes, each in its place. -/
def treeOf (nodes : List (List String × Node String)) : FileTree String := fun path =>
  (nodes.find? fun entry => entry.1 = path).map Prod.snd

def member (name : String) (bytes : List UInt8) : ZipInfo := ⟨name, 0, 0, .ok ⟨[bytes], none⟩⟩

def twoFiles : List ZipInfo := [member "db\\a.csv" [1, 2], member "./db//b.csv" [3]]

theorem extract_safe_twoFiles :
    bytesOf (extract posix limits "spider.zip" (treeOf [([], .directory)]) ["data"] twoFiles).1 ≤
      2048 := by
  have none : NoLinks (treeOf [([], .directory)]) ["data"] := by
    intro below node found
    cases found
  exact (extract_safe none (List.prefix_refl _) rfl).2.2.2

/-- A destination that is missing is made, which is not strictly inside itself; and a
pipe that is there already is written to and stays one. -/
theorem destination_made :
    (∃ e ∈ (extract posix limits "spider.zip" (treeOf [([], .directory)]) ["data"] []).1,
        e.op = .mkdir ["data"] ∧ ¬Inside ["data"] e.op.path) ∧
      ∃ t', run apply (treeOf [([], .directory), (["data"], .directory), (["data", "a"], .special)])
          ((extract posix limits "spider.zip" (treeOf [([], .directory), (["data"], .directory),
            (["data", "a"], .special)]) ["data"] [member "a" [1]]).1.map Effect.op) = some t' ∧
        t' ["data", "a"] = some .special := by
  constructor
  · have only : (extract posix limits "spider.zip" (treeOf [([], .directory)]) ["data"] []).1 =
        [⟨none, .mkdir ["data"]⟩] := by rfl
    refine ⟨⟨none, .mkdir ["data"]⟩, only ▸ List.mem_cons_self, rfl, ?_⟩
    rintro ⟨parts, nonempty, same, -⟩
    exact nonempty (List.append_right_eq_self.mp same.symm)
  · exact ⟨_, rfl, rfl⟩

end Acquire
