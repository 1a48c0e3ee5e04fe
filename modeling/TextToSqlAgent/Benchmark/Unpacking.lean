import TextToSqlAgent.Benchmark.Acquire

/-!
# What a refused archive leaves behind

The names of all members are looked at before anything is written, so an archive
that is refused for one of them leaves no file. A cap is only met while a member
is copied, and then that member's file is removed and no other.
-/

namespace Unpacking

open Directories Exceptions Runs Acquire

/-! ## What is accepted -/

/-- The part of `resolve_member` that looks at the name alone. -/
def NameAccepted (name : String) : Prop :=
  ¬(name = "" ∨ name.toList.head? = some '/' ∨ name.toList.head? = some '\\') ∧
    ".." ∉ partsOf name ∧ (partsOf name).any isDrive = false ∧ partsOf name ≠ [] ∧
    '\x00' ∉ name.toList

/-- Whether the file system can hold the member's name. -/
def representable (p : Platform) (info : ZipInfo) : Bool :=
  (unrepresentableReason p info.filename).isNone

/-- A member the first loop lets pass: no link, a name that stays inside, and no
database that the file system cannot hold. -/
structure Accepted (p : Platform) (info : ZipInfo) : Prop where
  noLink : isLink info = false
  name : NameAccepted info.filename
  kept : representable p info = false →
    (databaseSuffixes.any fun suffix => (p.lower info.filename).endsWith suffix) = false

/-- The members that are written, with the numbers they have from `first` on. -/
def targetsOf (p : Platform) : Nat → List ZipInfo → List Target
  | _, [] => []
  | first, info :: rest =>
    if representable p info then
      ⟨first, info, partsOf info.filename⟩ :: targetsOf p (first + 1) rest
    else targetsOf p (first + 1) rest

section validation

variable {p : Platform} {t : FileTree String} {root : List String}

/-- Where no link is, only the name decides. -/
theorem resolveMember_ok_iff (none : NoLinks t root) {name : String} {path : List String} :
    resolveMember p t root name = .ok path ↔ NameAccepted name ∧ path = root ++ partsOf name := by
  rw [resolveMember, NameAccepted]
  split
  · rename_i outside
    simp [outside]
  rename_i relative
  dsimp only
  split
  · rename_i up
    simp [up]
  rename_i up
  split
  · rename_i drive
    simp [drive]
  rename_i drive
  split
  · rename_i empty
    simp [empty]
  rename_i nonempty
  split
  · rename_i null
    simp [null]
  rename_i null
  rw [resolve_of_noLinks p.steps none up, if_pos (List.prefix_append _ _), Except.ok.injEq]
  constructor
  · intro same
    exact ⟨⟨relative, up, Bool.eq_false_iff.mpr drive, nonempty, null⟩, same.symm⟩
  · exact fun both => both.2.symm

/-- What the first loop hands on is what it accepts. -/
theorem targets_of_validate (none : NoLinks t root) {infos : List ZipInfo} {first : Nat}
    {targets : List Target} {skipped : List (String × String)}
    (valid : validate p t root first infos = .ok (targets, skipped)) :
    (∀ info ∈ infos, Accepted p info) ∧ targets = targetsOf p first infos := by
  induction infos generalizing first targets skipped with
  | nil =>
    cases valid
    exact ⟨nofun, rfl⟩
  | cons info rest hyp =>
    rw [validate] at valid
    split at valid
    · cases valid
    rename_i link
    obtain ⟨path, resolved, valid⟩ := Fallible.bind_ok_iff.mp valid
    obtain ⟨name, rfl⟩ := (resolveMember_ok_iff none).mp resolved
    split at valid
    · rename_i reason unnamed
      split at valid
      · cases valid
      rename_i database
      obtain ⟨⟨others, more⟩, found, valid⟩ := Fallible.bind_ok_iff.mp valid
      cases valid
      obtain ⟨accepted, rfl⟩ := hyp found
      have skip : representable p info = false := by rw [representable, unnamed]; rfl
      refine ⟨List.forall_mem_cons.mpr ⟨⟨Bool.eq_false_iff.mpr link, name, fun _ => ?_⟩,
        accepted⟩, ?_⟩
      · exact Bool.eq_false_iff.mpr database
      · rw [targetsOf, if_neg (by simp [skip])]
    · rename_i named
      obtain ⟨⟨others, more⟩, found, valid⟩ := Fallible.bind_ok_iff.mp valid
      rw [List.drop_left] at valid
      cases valid
      obtain ⟨accepted, rfl⟩ := hyp found
      have kept : representable p info = true := by rw [representable, named]; rfl
      refine ⟨List.forall_mem_cons.mpr ⟨⟨Bool.eq_false_iff.mpr link, name, fun other => ?_⟩,
        accepted⟩, ?_⟩
      · rw [kept] at other
        cases other
      · rw [targetsOf, if_pos kept]

/-- An archive whose members are all accepted passes. -/
theorem validate_of_accepted (none : NoLinks t root) {infos : List ZipInfo} (first : Nat)
    (accepted : ∀ info ∈ infos, Accepted p info) :
    ∃ targets skipped, validate p t root first infos = .ok (targets, skipped) := by
  induction infos generalizing first with
  | nil => exact ⟨[], [], rfl⟩
  | cons info rest hyp =>
    obtain ⟨targets, skipped, valid⟩ := hyp (first + 1)
      fun other listed => accepted other (List.mem_cons_of_mem info listed)
    have own := accepted info List.mem_cons_self
    have resolved := (resolveMember_ok_iff (p := p) none).mpr ⟨own.name, rfl⟩
    rw [validate, if_neg (by simp [own.noLink]), resolved, valid]
    cases named : unrepresentableReason p info.filename with
    | none => exact ⟨_, _, rfl⟩
    | some reason =>
      have database := own.kept (by rw [representable, named]; rfl)
      refine ⟨targets, (info.filename, reason) :: skipped, ?_⟩
      simp only [bind, Except.bind, database]
      rfl

end validation

/-! ## How copying a member ends -/

/-- The bytes that reading gives before it ends. -/
def bytesRead (chunks : List (List UInt8)) : Nat :=
  ((chunks.takeWhile fun chunk => chunk ≠ []).map List.length).sum

inductive Fate
  | copied (bytes : Nat)
  | overruns
  | fails

/-- Whether a member has more bytes than its budget, or is copied whole, or cannot
be read to its end. -/
def fate (budget : Int) (info : ZipInfo) : Fate :=
  match info.opens with
  | .error _ => .fails
  | .ok stream =>
    if budget < bytesRead stream.chunks then .overruns
    else if [] ∈ stream.chunks ∨ stream.ending.isNone then .copied (bytesRead stream.chunks)
    else .fails

/-- What a member may have after so many bytes of the archive. -/
def budgetAt (settings : BenchmarkSettings) (total : Nat) : Int :=
  min (settings.maxMemberBytes : Int) (settings.maxArchiveBytes - total)

/-- The bytes written when all of these members are copied, if they are. -/
def copiedBytes (settings : BenchmarkSettings) : Nat → List ZipInfo → Option Nat
  | total, [] => some total
  | total, info :: rest =>
    if info.isDir then copiedBytes settings total rest
    else
      match fate (budgetAt settings total) info with
      | .copied bytes => copiedBytes settings (total + bytes) rest
      | _ => none

/-- Reading a member raises none of this package's own exceptions. -/
def Foreign (info : ZipInfo) : Prop :=
  match info.opens with
  | .error exc => ∀ e, exc ≠ .domain e
  | .ok stream => ∀ e, stream.ending ≠ some (.domain e)

section copying

variable {p : Platform} {info : ZipInfo} {target : List String} {budget : Int}

variable (p info target) in
/-- What one read after the other writes, and how it ends. -/
theorem copyChunks_cases (ending : Option Raised) (chunks : List (List UInt8)) (written : Nat)
    (within : (written : Int) ≤ budget) :
    ∃ ops : List (Op String), (∀ op ∈ ops, ∃ bytes, op = .write target bytes) ∧
      if budget < (written + bytesRead chunks : Nat) then
        ∃ message, copyChunks p info target budget ending written chunks =
          (ops ++ [.unlink target], .error (unsafeArchive message))
      else
        copyChunks p info target budget ending written chunks =
          (ops, match ending with
            | some exc => if [] ∈ chunks then .ok (written + bytesRead chunks) else .error exc
            | none => .ok (written + bytesRead chunks)) := by
  induction chunks generalizing written with
  | nil =>
    have nothing : bytesRead [] = 0 := rfl
    refine ⟨[], nofun, ?_⟩
    rw [nothing, if_neg (by omega)]
    cases ending <;> rfl
  | cons chunk rest hyp =>
    by_cases ended : chunk = []
    · subst ended
      have nothing : bytesRead ([] :: rest) = 0 := rfl
      refine ⟨[], nofun, ?_⟩
      rw [nothing, if_neg (by omega), copyChunks, if_pos rfl]
      cases ending <;> simp
    · have counted : bytesRead (chunk :: rest) = chunk.length + bytesRead rest := by
        rw [bytesRead, List.takeWhile_cons_of_pos (by simpa using ended), List.map_cons,
          List.sum_cons]
        rfl
      rw [copyChunks, if_neg ended]
      by_cases past : budget < (written + chunk.length : Nat)
      · refine ⟨[], nofun, ?_⟩
        rw [if_pos (by omega), if_pos past]
        exact ⟨_, rfl⟩
      · obtain ⟨ops, writes, more⟩ := hyp (written + chunk.length) (by omega)
        rw [if_neg past]
        have total : written + bytesRead (chunk :: rest) =
            written + chunk.length + bytesRead rest := by
          omega
        have inside : [] ∈ chunk :: rest ↔ [] ∈ rest := by
          rw [List.mem_cons]
          exact or_iff_right fun same => ended same.symm
        refine ⟨.write target chunk :: ops, ?_, ?_⟩
        · intro op listed
          rcases List.mem_cons.mp listed with rfl | later
          · exact ⟨chunk, rfl⟩
          · exact writes op later
        · rw [total]
          split at more
          · rename_i exceeds
            obtain ⟨message, copied⟩ := more
            rw [if_pos exceeds, copied]
            exact ⟨message, rfl⟩
          · rename_i fits
            rw [if_neg fits, more]
            simp only [inside]

variable (p target) in
/-- A member beyond its budget is removed again. -/
theorem copyMember_overruns (nonneg : 0 ≤ budget) (exceeds : fate budget info = .overruns) :
    ∃ ops message, (∀ op ∈ ops, ∃ bytes, op = .write target bytes) ∧
      copyMember p info target budget =
        (.create target :: ops ++ [.unlink target], .error (unsafeArchive message)) := by
  rw [fate] at exceeds
  split at exceeds
  · cases exceeds
  rename_i stream opened
  obtain ⟨ops, writes, copied⟩ := copyChunks_cases p info target stream.ending stream.chunks 0 nonneg
  split at exceeds
  · rename_i past
    rw [Nat.zero_add, if_pos past] at copied
    obtain ⟨message, copied⟩ := copied
    refine ⟨ops, message, writes, ?_⟩
    rw [copyMember, opened]
    simp only [copied]
    rfl
  · split at exceeds <;> cases exceeds

variable (p target) in
theorem copyMember_copied (nonneg : 0 ≤ budget) {bytes : Nat}
    (whole : fate budget info = .copied bytes) :
    ∃ ops, (∀ op ∈ ops, ∃ bytes, op = .write target bytes) ∧
      copyMember p info target budget = (.create target :: ops, .ok bytes) := by
  rw [fate] at whole
  split at whole
  · cases whole
  rename_i stream opened
  obtain ⟨ops, writes, copied⟩ := copyChunks_cases p info target stream.ending stream.chunks 0 nonneg
  split at whole
  · cases whole
  rename_i fits
  rw [Nat.zero_add, if_neg fits] at copied
  split at whole
  · rename_i ended
    obtain rfl := Fate.copied.inj whole
    refine ⟨ops, writes, ?_⟩
    rw [copyMember, opened]
    simp only [copied]
    cases last : stream.ending with
    | none => rfl
    | some exc =>
      rw [last] at ended
      have listed := ended.resolve_right (by simp)
      simp [listed]
  · cases whole

variable (p target) in
theorem copyMember_fails (nonneg : 0 ≤ budget) (foreign : Foreign info)
    (failed : fate budget info = .fails) :
    ∃ exc, (copyMember p info target budget).2 = .error exc ∧ ∀ e, exc ≠ .domain e := by
  rw [fate] at failed
  rw [Foreign] at foreign
  rw [copyMember]
  cases opened : info.opens with
  | error exc =>
    rw [opened] at foreign
    exact ⟨exc, rfl, foreign⟩
  | ok stream =>
    rw [opened] at foreign failed
    obtain ⟨ops, -, copied⟩ := copyChunks_cases p info target stream.ending stream.chunks 0 nonneg
    simp only at failed
    split at failed
    · cases failed
    rename_i fits
    rw [Nat.zero_add, if_neg fits] at copied
    split at failed
    · cases failed
    rename_i open_
    cases last : stream.ending with
    | none => exact absurd (Or.inr (by simp [last])) open_
    | some exc =>
      refine ⟨exc, ?_, fun e same => foreign e (by rw [last, same])⟩
      have unlisted : [] ∉ stream.chunks := fun listed => open_ (Or.inl listed)
      rw [last] at copied
      simp [last, copied, unlisted]

end copying

/-! ## The second loop -/

section writing

variable {p : Platform} {settings : BenchmarkSettings} {root : List String}

def opsOf (effects : List Effect) : List (Op String) := effects.map Effect.op

theorem opsOf_append (a b : List Effect) : opsOf (a ++ b) = opsOf a ++ opsOf b := List.map_append

theorem opsOf_tagged (target : Target) (ops : List (Op String)) :
    opsOf (tagged target ops) = ops := by
  rw [opsOf, tagged, List.map_map]
  exact List.map_id ops

/-- The operations up to a cap: files are opened for exactly these members, and
the only one removed is the last. -/
structure CutAt (root : List String) (before : List Target) (target : Target)
    (ops : List (Op String)) : Prop where
  opened : ∀ path, .create path ∈ ops ↔ path = root ++ target.parts ∨
    ∃ earlier ∈ before, earlier.info.isDir = false ∧ path = root ++ earlier.parts
  kept : ∀ path, .unlink path ∉ ops

theorem mkdirs_only {parts : List String} {op : Op String} (listed : op ∈ mkdirs root parts) :
    ∃ path, op = .mkdir path := by
  obtain ⟨between, -, -, rfl⟩ := mem_mkdirs listed
  exact ⟨_, rfl⟩

/-- What is added in front of the operations up to a cap. -/
theorem CutAt.append {before : List Target} {target first : Target}
    {ops earlier : List (Op String)} (cut : CutAt root before target ops)
    (opened : ∀ path, .create path ∈ earlier ↔
      first.info.isDir = false ∧ path = root ++ first.parts)
    (kept : ∀ path, .unlink path ∉ earlier) : CutAt root (first :: before) target (earlier ++ ops) where
  opened path := by
    rw [List.mem_append, opened, cut.opened]
    constructor
    · rintro (own | same | ⟨other, listed, file, same⟩)
      · exact Or.inr ⟨first, List.mem_cons_self, own⟩
      · exact Or.inl same
      · exact Or.inr ⟨other, List.mem_cons_of_mem first listed, file, same⟩
    · rintro (same | ⟨other, listed, file, same⟩)
      · exact Or.inr (Or.inl same)
      · rcases List.mem_cons.mp listed with rfl | later
        · exact Or.inl ⟨file, same⟩
        · exact Or.inr (Or.inr ⟨other, later, file, same⟩)
  kept path listed := by
    rcases List.mem_append.mp listed with own | later
    · exact kept path own
    · exact cut.kept path later

/-- For a file that is copied, only that file is opened, and nothing is removed. -/
theorem copied_opens (root parts : List String) {target : List String} {written : List (Op String)}
    (writes : ∀ op ∈ written, ∃ bytes, op = .write target bytes) :
    (∀ path, .create path ∈ mkdirs root parts ++ .create target :: written ↔ path = target) ∧
      ∀ path, .unlink path ∉ mkdirs root parts ++ .create target :: written := by
  constructor
  · intro path
    rw [List.mem_append, List.mem_cons]
    constructor
    · rintro (made | same | later)
      · obtain ⟨_, other⟩ := mkdirs_only made
        cases other
      · exact Op.create.inj same
      · obtain ⟨_, other⟩ := writes _ later
        cases other
    · rintro rfl
      exact Or.inr (Or.inl rfl)
  · intro path listed
    rcases List.mem_append.mp listed with made | later
    · obtain ⟨_, other⟩ := mkdirs_only made
      cases other
    · rcases List.mem_cons.mp later with same | written
      · cases same
      · obtain ⟨_, other⟩ := writes _ written
        cases other

theorem budgetAt_nonneg {total : Nat} (within : total ≤ settings.maxArchiveBytes) :
    0 ≤ budgetAt settings total := by
  rw [budgetAt]
  omega

/-- A member of known fate does not take the archive past its cap. -/
theorem within_copied {total bytes : Nat} {info : ZipInfo}
    (whole : fate (budgetAt settings total) info = .copied bytes) : total + bytes ≤ settings.maxArchiveBytes := by
  rw [fate] at whole
  split at whole
  · cases whole
  split at whole
  · cases whole
  rename_i fits
  split at whole
  · obtain rfl := Fate.copied.inj whole
    rw [budgetAt] at fits
    omega
  · cases whole

variable (p root) in
/-- The loop meets a cap at a member all before which are copied. -/
theorem writeTargets_overrun (after : List Target) {before : List Target} {target : Target} {total reached : Nat}
    (within : total ≤ settings.maxArchiveBytes) (file : target.info.isDir = false)
    (copied : copiedBytes settings total (before.map Target.info) = some reached)
    (exceeds : fate (budgetAt settings reached) target.info = .overruns) :
    ∃ ops message, CutAt root before target ops ∧
      opsOf (writeTargets p settings root total (before ++ target :: after)).1 =
        ops ++ [.unlink (root ++ target.parts)] ∧
      (writeTargets p settings root total (before ++ target :: after)).2 =
        .error (unsafeArchive message) := by
  induction before generalizing total with
  | nil =>
    obtain rfl := Option.some.inj copied
    obtain ⟨ops, message, writes, copy⟩ := copyMember_overruns p (root ++ target.parts)
      (budgetAt_nonneg within) exceeds
    obtain ⟨opened, kept⟩ := copied_opens root target.parts.dropLast writes
    refine ⟨mkdirs root target.parts.dropLast ++ .create (root ++ target.parts) :: ops, message,
      ⟨fun path => ?_, kept⟩, ?_, ?_⟩
    · rw [opened]
      simp
    · rw [List.nil_append, writeTargets, if_neg (by simp [file])]
      rw [budgetAt] at copy
      simp only [copy, opsOf_tagged]
      simp
    · rw [List.nil_append, writeTargets, if_neg (by simp [file])]
      rw [budgetAt] at copy
      simp only [copy]
  | cons first rest hyp =>
    rw [List.map_cons, copiedBytes] at copied
    rw [List.cons_append, writeTargets]
    split at copied
    · rename_i directory
      obtain ⟨ops, message, cut, done, raised⟩ := hyp within copied
      refine ⟨mkdirs root first.parts ++ ops, message, cut.append ?_ ?_, ?_, ?_⟩
      · intro path
        constructor
        · intro listed
          obtain ⟨_, other⟩ := mkdirs_only listed
          cases other
        · rintro ⟨plain, -⟩
          rw [directory] at plain
          cases plain
      · intro path listed
        obtain ⟨_, other⟩ := mkdirs_only listed
        cases other
      · rw [if_pos directory]
        simp only [opsOf_append, opsOf_tagged, done, List.append_assoc]
      · rw [if_pos directory]
        exact raised
    · rename_i plain
      split at copied
      · rename_i bytes whole
        obtain ⟨written, writes, copy⟩ := copyMember_copied p (root ++ first.parts)
          (budgetAt_nonneg within) whole
        obtain ⟨opened, kept⟩ := copied_opens root first.parts.dropLast writes
        obtain ⟨ops, message, cut, done, raised⟩ := hyp (within_copied whole) copied
        refine ⟨mkdirs root first.parts.dropLast ++ .create (root ++ first.parts) :: written ++ ops,
          message, cut.append ?_ ?_, ?_, ?_⟩
        · intro path
          rw [opened path]
          simp [plain]
        · exact kept
        · rw [if_neg plain]
          rw [budgetAt] at copy
          simp only [copy, opsOf_append, opsOf_tagged, done]
          simp
        · rw [if_neg plain]
          rw [budgetAt] at copy
          simp only [copy, raised]
          rfl
      · cases copied

/-- A cap is met at such a member only. -/
theorem exists_overrun {targets : List Target} {total : Nat}
    (within : total ≤ settings.maxArchiveBytes)
    (foreign : ∀ target ∈ targets, Foreign target.info) {e : DomainError}
    (raised : (writeTargets p settings root total targets).2 = .error (.domain e)) :
    ∃ before target after reached, targets = before ++ target :: after ∧
      target.info.isDir = false ∧
      copiedBytes settings total (before.map Target.info) = some reached ∧
      fate (budgetAt settings reached) target.info = .overruns := by
  induction targets generalizing total with
  | nil => cases raised
  | cons first rest hyp =>
    have others := fun target listed => foreign target (List.mem_cons_of_mem first listed)
    rw [writeTargets] at raised
    by_cases directory : first.info.isDir = true
    · rw [if_pos directory] at raised
      obtain ⟨before, target, after, reached, rfl, file, copied, exceeds⟩ := hyp within others raised
      refine ⟨first :: before, target, after, reached, rfl, file, ?_, exceeds⟩
      rw [List.map_cons, copiedBytes, if_pos directory]
      exact copied
    · rw [if_neg directory] at raised
      have file := Bool.eq_false_iff.mpr directory
      cases ended : fate (budgetAt settings total) first.info with
      | overruns => exact ⟨[], first, rest, total, rfl, file, rfl, ended⟩
      | copied bytes =>
        obtain ⟨written, -, copy⟩ := copyMember_copied p (root ++ first.parts)
          (budgetAt_nonneg within) ended
        rw [budgetAt] at copy
        simp only [copy] at raised
        have later : (writeTargets p settings root (total + bytes) rest).2 = .error (.domain e) := by
          cases result : (writeTargets p settings root (total + bytes) rest).2 with
          | ok entry =>
            rw [result] at raised
            cases raised
          | error exc =>
            rw [result] at raised
            exact congrArg _ (Except.error.inj raised)
        obtain ⟨before, target, after, reached, rfl, file, copied, exceeds⟩ :=
          hyp (within_copied ended) others later
        refine ⟨first :: before, target, after, reached, rfl, file, ?_, exceeds⟩
        rw [List.map_cons, copiedBytes, if_neg directory, ended]
        exact copied
      | fails =>
        obtain ⟨exc, failed, apart⟩ := copyMember_fails p (root ++ first.parts)
          (budgetAt_nonneg within) (foreign first List.mem_cons_self) ended
        rw [budgetAt] at failed
        simp only [failed] at raised
        exact absurd (Except.error.inj raised) (apart e)

end writing

/-! ## What is left -/

/-- The destination is missing, or is a directory with nothing in it. -/
structure Vacant (t : FileTree String) (root : List String) : Prop where
  here : ∀ node, t root = some node → node = .directory
  below : ∀ rest ≠ [], t (root ++ rest) = none

/-- No file is strictly below the destination. -/
def LeavesNothing (t : FileTree String) (root : List String) : Prop :=
  ∀ rest ≠ [], ∀ content, t (root ++ rest) ≠ some (.file content)

/-- The members whose names the file system can hold. -/
def named (p : Platform) (infos : List ZipInfo) : List ZipInfo := infos.filter (representable p)

/-- A cap is met at a member: the archive is accepted, what can be written before
the member is copied, and the member has more bytes than are left for it. -/
structure Overrun (p : Platform) (settings : BenchmarkSettings) (infos before : List ZipInfo)
    (info : ZipInfo) : Prop where
  few : infos.length ≤ settings.maxArchiveMembers
  accepted : ∀ each ∈ infos, Accepted p each
  order : ∃ after, named p infos = before ++ info :: after
  file : info.isDir = false
  exceeds : ∃ total, copiedBytes settings 0 before = some total ∧
    fate (budgetAt settings total) info = .overruns

theorem map_targetsOf (p : Platform) (first : Nat) (infos : List ZipInfo) :
    (targetsOf p first infos).map Target.info = named p infos := by
  induction infos generalizing first with
  | nil => rfl
  | cons info rest hyp =>
    by_cases kept : representable p info = true
    · rw [targetsOf, if_pos kept, named, List.filter_cons_of_pos kept, List.map_cons, hyp]
      rfl
    · rw [targetsOf, if_neg kept, named, List.filter_cons_of_neg kept, hyp]
      rfl

theorem parts_of_mem_targetsOf {p : Platform} {first : Nat} {infos : List ZipInfo} {target : Target}
    (listed : target ∈ targetsOf p first infos) :
    target.parts = partsOf target.info.filename ∧ target.info ∈ infos := by
  induction infos generalizing first with
  | nil => cases listed
  | cons info rest hyp =>
    rw [targetsOf] at listed
    split at listed
    · rcases List.mem_cons.mp listed with rfl | later
      · exact ⟨rfl, List.mem_cons_self⟩
      · exact ⟨(hyp later).1, List.mem_cons_of_mem info (hyp later).2⟩
    · exact ⟨(hyp listed).1, List.mem_cons_of_mem info (hyp listed).2⟩

section leaving

variable {p : Platform} {settings : BenchmarkSettings} {t t' : FileTree String}
  {root : List String} {infos : List ZipInfo}

theorem Vacant.noLinks (vacant : Vacant t root) : NoLinks t root := by
  intro below node found
  cases below with
  | nil =>
    rw [List.append_nil] at found
    rw [vacant.here node found]
    rfl
  | cons name rest =>
    rw [vacant.below _ (List.cons_ne_nil _ _)] at found
    cases found

/-- Making the destination puts nothing in it. -/
theorem Vacant.made (vacant : Vacant t root) (reached : run apply t (mkdirs [] root) = some t')
    {rest : List String} (inside : rest ≠ []) : t' (root ++ rest) = none := by
  rw [run_frame ?_ reached, vacant.below rest inside]
  intro op listed same
  obtain ⟨between, -, part, rfl⟩ := mem_mkdirs listed
  rw [Op.path, List.nil_append] at same
  have longer := part.length_le
  rw [same, List.length_append] at longer
  exact inside (List.length_eq_zero_iff.mp (by omega))

/-- What the run of an accepted archive does after making its destination. -/
theorem extract_of_accepted (archive : String) {made : FileTree String} (vacant : Vacant t root)
    (reached : run apply t (mkdirs [] root) = some made)
    (few : infos.length ≤ settings.maxArchiveMembers)
    (accepted : ∀ info ∈ infos, Accepted p info) :
    opsOf (extract p settings archive t root infos).1 = mkdirs [] root ++
        opsOf (writeTargets p settings root 0 (targetsOf p 0 infos)).1 ∧
      ∀ exc, (extract p settings archive t root infos).2 = .error exc ↔
        (writeTargets p settings root 0 (targetsOf p 0 infos)).2 = .error exc := by
  obtain ⟨targets, skipped, valid⟩ :=
    validate_of_accepted (noLinks_run vacant.noLinks reached) 0 accepted
  obtain ⟨-, rfl⟩ := targets_of_validate (noLinks_run vacant.noLinks reached) valid
  have own : opsOf ((mkdirs [] root).map fun op => (⟨none, op⟩ : Effect)) = mkdirs [] root := by
    rw [opsOf, List.map_map]
    exact List.map_id _
  rw [extract, reached]
  simp only [if_neg (Nat.not_lt.mpr few), valid, opsOf_append, own]
  refine ⟨trivial, fun exc => ?_⟩
  cases (writeTargets p settings root 0 (targetsOf p 0 infos)).2 with
  | ok entry => simp [Except.map]
  | error other => simp [Except.map]

/-- An archive that is refused before it is written only made its destination. -/
theorem extract_cases (archive : String) (vacant : Vacant t root)
    (reached : run apply t (opsOf (extract p settings archive t root infos).1) = some t') :
    ∃ made, run apply t (mkdirs [] root) = some made ∧
      (t' = made ∨ infos.length ≤ settings.maxArchiveMembers ∧ ∀ info ∈ infos, Accepted p info) := by
  have own : opsOf ((mkdirs [] root).map fun op => (⟨none, op⟩ : Effect)) = mkdirs [] root := by
    rw [opsOf, List.map_map]
    exact List.map_id _
  cases first : run apply t (mkdirs [] root) with
  | none =>
    rw [extract, first, own, first] at reached
    cases reached
  | some made =>
    refine ⟨made, rfl, ?_⟩
    rw [extract, first] at reached
    simp only at reached
    split at reached
    · rw [own, first] at reached
      exact Or.inl (Option.some.inj reached).symm
    · rename_i few
      split at reached
      · rw [own, first] at reached
        exact Or.inl (Option.some.inj reached).symm
      · rename_i targets skipped valid
        exact Or.inr ⟨Nat.not_lt.mp few,
          (targets_of_validate (noLinks_run vacant.noLinks first) valid).1⟩

/-- A member that is met by a cap is one of the targets. -/
theorem exists_target {before after : List ZipInfo} {info : ZipInfo}
    (order : named p infos = before ++ info :: after) :
    ∃ front target back, targetsOf p 0 infos = front ++ target :: back ∧
      front.map Target.info = before ∧ target.info = info := by
  rw [← map_targetsOf p 0, List.map_eq_append_iff] at order
  obtain ⟨front, others, split, same, tail⟩ := order
  obtain ⟨target, back, rfl, own, -⟩ := List.map_eq_cons_iff.mp tail
  exact ⟨front, target, back, split, same, own⟩

/-- A cap leaves the files of the members before it, but for those that had the
path of the member it is met at. -/
theorem file_of_overrun (archive : String) (vacant : Vacant t root)
    (reached : run apply t (opsOf (extract p settings archive t root infos).1) = some t')
    {before : List ZipInfo} {info : ZipInfo} (overrun : Overrun p settings infos before info) :
    (∃ message, (extract p settings archive t root infos).2 = .error (unsafeArchive message)) ∧
      ∀ earlier ∈ before, earlier.isDir = false →
        partsOf earlier.filename ≠ partsOf info.filename →
        ∃ content, t' (root ++ partsOf earlier.filename) = some (.file content) := by
  obtain ⟨made, first, -⟩ := extract_cases archive vacant reached
  obtain ⟨after, order⟩ := overrun.order
  obtain ⟨front, target, back, targets, rfl, rfl⟩ := exists_target order
  obtain ⟨total, copied, exceeds⟩ := overrun.exceeds
  obtain ⟨ops, message, cut, done, raised⟩ := writeTargets_overrun p root back
    (Nat.zero_le _) overrun.file copied exceeds
  obtain ⟨effects, result⟩ :=
    extract_of_accepted archive vacant first overrun.few overrun.accepted
  rw [targets] at effects result
  refine ⟨⟨message, (result _).mpr raised⟩, ?_⟩
  intro earlier listed plain apart
  obtain ⟨own, inside, rfl⟩ := List.mem_map.mp listed
  have parts := fun other present =>
    (@parts_of_mem_targetsOf p 0 infos other (targets ▸ present)).1
  have ownParts := parts own (List.mem_append_left _ inside)
  have targetParts := parts target (by simp)
  have member :=
    (@parts_of_mem_targetsOf p 0 infos own (targets ▸ List.mem_append_left _ inside)).2
  have nonempty := (overrun.accepted _ member).name.2.2.2.1
  rw [effects, done, run_append_some] at reached
  obtain ⟨made', again, written⟩ := reached
  obtain rfl := Option.some.inj (first.symm.trans again)
  refine file_of_create (t := made) ?_ (List.mem_append_left _ ((cut.opened _).mpr
    (Or.inr ⟨own, inside, plain, by rw [ownParts]⟩))) ?_ written
  · intro node found
    rw [vacant.made first nonempty] at found
    cases found
  · intro removed
    rcases List.mem_append.mp removed with inner | last
    · exact cut.kept _ inner
    · have same := Op.unlink.inj (List.mem_singleton.mp last)
      rw [targetParts] at same
      exact apart (List.append_cancel_left same)

/-- A refused archive leaves no file exactly when nothing with another path was
copied before the member that a cap is met at. -/
theorem leavesNothing_iff {archive : String} (vacant : Vacant t root)
    (foreign : ∀ info ∈ infos, Foreign info)
    (reached : run apply t (opsOf (extract p settings archive t root infos).1) = some t') :
    (∀ message, (extract p settings archive t root infos).2 = .error (unsafeArchive message) →
        LeavesNothing t' root) ↔
      ∀ before info, Overrun p settings infos before info → ∀ earlier ∈ before,
        earlier.isDir = false → partsOf earlier.filename = partsOf info.filename := by
  constructor
  · intro clean before info overrun earlier listed plain
    by_contra apart
    obtain ⟨⟨message, raised⟩, files⟩ := file_of_overrun archive vacant reached overrun
    obtain ⟨content, found⟩ := files earlier listed plain apart
    have member : earlier ∈ infos := by
      obtain ⟨after, order⟩ := overrun.order
      have inside : earlier ∈ named p infos := order ▸ List.mem_append_left _ listed
      exact (List.mem_filter.mp inside).1
    exact clean message raised _ (overrun.accepted _ member).name.2.2.2.1 content found
  · intro samePath message raised rest inside content found
    obtain ⟨made, first, rfl | ⟨few, accepted⟩⟩ := extract_cases archive vacant reached
    · rw [vacant.made first inside] at found
      cases found
    obtain ⟨effects, result⟩ := extract_of_accepted archive vacant first few accepted
    obtain ⟨front, target, back, total, targets, file, copied, exceeds⟩ :=
      exists_overrun (Nat.zero_le _) (fun target listed =>
        foreign _ (parts_of_mem_targetsOf listed).2) ((result _).mp raised)
    have overrun : Overrun p settings infos (front.map Target.info) target.info := by
      refine ⟨few, accepted, ⟨back.map Target.info, ?_⟩, file, total, copied, exceeds⟩
      rw [← map_targetsOf p 0, targets, List.map_append, List.map_cons]
    obtain ⟨ops, message', cut, done, -⟩ := writeTargets_overrun p root back
      (Nat.zero_le _) file copied exceeds
    rw [targets] at effects
    rw [effects, done, run_append_some] at reached
    obtain ⟨made', again, written⟩ := reached
    obtain rfl := Option.some.inj (first.symm.trans again)
    have parts := fun other present =>
      (@parts_of_mem_targetsOf p 0 infos other (targets ▸ present)).1
    have targetParts := parts target (by simp)
    -- Whatever file is there was opened, and every file opened has the one path.
    have opened := opened_of_file (fun content there => by
      rw [vacant.made first inside] at there
      cases there) found written
    have here : root ++ rest = root ++ target.parts := by
      rcases List.mem_append.mp opened with inner | last
      · rcases (cut.opened _).mp inner with same | ⟨earlier, listed, plain, same⟩
        · exact same
        · have equal := samePath _ _ overrun _ (List.mem_map_of_mem listed) plain
          rw [same, parts earlier (List.mem_append_left _ listed), targetParts, equal]
      · cases List.mem_singleton.mp last
    rw [here, none_of_unlink written] at found
    cases found

end leaving

/-- Room for three bytes. -/
private def small : BenchmarkSettings := ⟨10, 3, 3⟩

/-- A database that fits, and a file that does not. -/
private def bigSecond : List ZipInfo := [member "a.sqlite" [1, 2], member "b.csv" [3, 4]]

private theorem vacant_data : Vacant (treeOf [([], .directory)]) ["data"] where
  here _ found := by cases found
  below rest inside := by
    cases rest with
    | nil => exact absurd rfl inside
    | cons name rest => rfl

theorem leavesNothing_oneFile :
    ∃ t', run apply (treeOf [([], .directory)])
        (opsOf (extract posix small "spider.zip" (treeOf [([], .directory)]) ["data"]
          [member "b.csv" [1, 2, 3, 4]]).1) = some t' ∧
      ((∀ message, (extract posix small "spider.zip" (treeOf [([], .directory)]) ["data"]
          [member "b.csv" [1, 2, 3, 4]]).2 = .error (unsafeArchive message) →
          LeavesNothing t' ["data"]) ↔
        ∀ before info, Overrun posix small [member "b.csv" [1, 2, 3, 4]] before info →
          ∀ earlier ∈ before, earlier.isDir = false →
            partsOf earlier.filename = partsOf info.filename) := by
  refine ⟨_, rfl, leavesNothing_iff vacant_data ?_ rfl⟩
  intro info listed
  rw [List.mem_singleton.mp listed]
  exact nofun

/-- The archive is refused at its second member, and the database that was its
first is still there. -/
theorem database_left :
    ∃ t' message, run apply (treeOf [([], .directory)])
        (opsOf (extract posix small "spider.zip" (treeOf [([], .directory)]) ["data"]
          bigSecond).1) = some t' ∧
      (extract posix small "spider.zip" (treeOf [([], .directory)]) ["data"] bigSecond).2 =
        .error (unsafeArchive message) ∧
      t' ["data", "a.sqlite"] = some (.file [1, 2]) :=
  ⟨_, _, rfl, rfl, rfl⟩

end Unpacking
