import Mathlib.Algebra.Order.Group.Int
import Mathlib.Algebra.Order.Group.Unbundled.Basic
import TextToSqlAgent.Library.Dictionary
import TextToSqlAgent.Library.Runs

/-!
# Readiness, remembered for a moment

`Readiness`, any number of `status` calls at once. A call that misses the cache
starts a sweep on a thread of its own; the thread reads which probes to run when
it begins, and the call writes the cache when the sweep is over. `configure` can
come in between. Every act happens at a time of a clock that does not go back;
times are of any linearly ordered group.
-/

namespace Health

open Runs

/-- A dependency. What its `check` does is decided anew whenever it is run. -/
structure Probe where
  name : String

def UP : String := "up"
def DOWN : String := "down"

/-- What `status` reports, and how often `configure` had been called when the
probes it comes from were read; it comes from none before startup. -/
structure Verdict where
  ready : Bool
  detail : Dictionary String String
  computed : Option Nat

/-- A `status` call that missed the cache: the time it read, how often `configure`
had been called by then, and the probes its thread has read, with their number. -/
structure Sweep (Time : Type) where
  now : Time
  began : Nat
  read : Option (Nat × List Probe)
  finished : Bool

/-- The object, with all sweeps started so far and all answers given so far, each
with the number of `configure` calls before its own call began. -/
structure Readiness (Time : Type) where
  probes : Option (List Probe)
  configured : Nat
  cached : Option (Time × Verdict)
  sweeps : List (Sweep Time)
  answers : List (Nat × Verdict)
  clock : Time

variable {Time : Type}

def initial (probes : List Probe) (clock : Time) : Readiness Time :=
  ⟨if probes.isEmpty then none else some probes, 0, none, [], [], clock⟩

inductive Act
  | configure (probes : List Probe)
  /-- `status` up to its answer, or up to its `await`. -/
  | status
  /-- The thread of sweep `i` begins. -/
  | read (i : Nat)
  /-- The thread of sweep `i` is done, its call goes on and returns. -/
  | finish (i : Nat) (raises : Nat → Bool)

/-- `_run`. -/
def runProbe (raises : Bool) : String := if raises then DOWN else UP

/-- `_probe_all`, where `raises` tells which of the checks raise. -/
def probeAll (probes : List Probe) (raises : Nat → Bool) : Dictionary String String :=
  Dictionary.ofList (probes.zipIdx.map fun entry => (entry.1.name, runProbe (raises entry.2)))

def configure (s : Readiness Time) (probes : List Probe) : Readiness Time :=
  { s with probes := some probes, cached := none, configured := s.configured + 1 }

def answer (s : Readiness Time) (began : Nat) (verdict : Verdict) : Readiness Time :=
  { s with answers := s.answers ++ [(began, verdict)] }

def unconfigured : Verdict := ⟨false, Dictionary.ofList [("startup", DOWN)], none⟩

variable [AddCommGroup Time] [LinearOrder Time]

/-- The entry of the cache that a call at time `now` returns. -/
def hit (ttl : Time) (s : Readiness Time) (now : Time) : Option Verdict :=
  match s.cached with
  | some (at_, verdict) => if now - at_ < ttl then some verdict else none
  | none => none

def status (ttl : Time) (s : Readiness Time) (now : Time) : Readiness Time :=
  match s.probes with
  | none => answer s s.configured unconfigured
  | some _ =>
    match hit ttl s now with
    | some verdict => answer s s.configured verdict
    | none => { s with sweeps := s.sweeps ++ [⟨now, s.configured, none, false⟩] }

/-- The first line of `_probe_all`, for sweep `i`. -/
def readProbes (s : Readiness Time) (i : Nat) (sweep : Sweep Time) : Readiness Time :=
  let later := { sweep with read := some (s.configured, s.probes.getD []) }
  { s with sweeps := s.sweeps.set i later }

/-- The end of `status`, for a sweep that ran the probes `read`. -/
def conclude (s : Readiness Time) (i : Nat) (sweep : Sweep Time) (read : Nat × List Probe)
    (raises : Nat → Bool) : Readiness Time :=
  let detail := probeAll read.2 raises
  let ready := detail.entries.all fun entry => entry.2 == UP
  let verdict := ⟨ready, detail, some read.1⟩
  answer { s with
    cached := some (sweep.now, verdict)
    sweeps := s.sweeps.set i { sweep with finished := true } } sweep.began verdict

def act (ttl : Time) (s : Readiness Time) (now : Time) : Act → Option (Readiness Time)
  | .configure probes => some (configure s probes)
  | .status => some (status ttl s now)
  | .read i =>
    match s.sweeps[i]? with
    | some ⟨began, configured, none, finished⟩ =>
      some (readProbes s i ⟨began, configured, none, finished⟩)
    | _ => none
  | .finish i raises =>
    match s.sweeps[i]? with
    | some ⟨began, configured, some read, false⟩ =>
      some (conclude s i ⟨began, configured, some read, false⟩ read raises)
    | _ => none

def step (ttl : Time) (s : Readiness Time) (a : Time × Act) : Option (Readiness Time) :=
  if s.clock ≤ a.1 then act ttl { s with clock := a.1 } a.1 a.2 else none

/-! ## What is asked -/

/-- Two sweeps of the same probes, the second at least `ttl` after the first. -/
def Spaced (ttl : Time) (s : Readiness Time) : Prop :=
  ∀ (i j : Nat) (first second : Sweep Time) (n : Nat) (probes probes' : List Probe), i < j →
    s.sweeps[i]? = some first → s.sweeps[j]? = some second →
    first.read = some (n, probes) → second.read = some (n, probes') →
    ttl ≤ second.now - first.now

/-- No answer comes from probes that were replaced before its call began. -/
def Current (s : Readiness Time) : Prop :=
  ∀ a ∈ s.answers, ∀ n, a.2.computed = some n → a.1 ≤ n

/-- A call misses the cache only when every sweep in flight that is younger than
`ttl` has read probes that are replaced by now. A sweep younger than `ttl` ends
before its probes are replaced, and one that ends replaces no younger entry of
the cache that is still good. -/
def Keeps (ttl : Time) (s : Readiness Time) (a : Time × Act) : Prop :=
  match a.2 with
  | .status => s.probes.isSome = true → hit ttl s a.1 = none →
    ∀ sweep ∈ s.sweeps, sweep.finished = false → a.1 - sweep.now < ttl →
      ∃ n probes, sweep.read = some (n, probes) ∧ n ≠ s.configured
  | .finish i _ => ∀ sweep n probes, s.sweeps[i]? = some sweep →
    sweep.read = some (n, probes) →
    (a.1 - sweep.now < ttl → n = s.configured) ∧
      ∀ at_ verdict, s.cached = some (at_, verdict) → a.1 - at_ < ttl → at_ ≤ sweep.now
  | _ => True

/-! ## What a step does -/

/-- All that an act can do at its time. -/
inductive Acts (ttl : Time) (s : Readiness Time) (now : Time) : Act → Readiness Time → Prop
  | configure (probes : List Probe) : Acts ttl s now (.configure probes) (configure s probes)
  | unconfigured (none_yet : s.probes = none) :
    Acts ttl s now .status (answer s s.configured unconfigured)
  | hit {verdict : Verdict} (found : hit ttl s now = some verdict) :
    Acts ttl s now .status (answer s s.configured verdict)
  | miss (some_probes : s.probes.isSome = true) (missed : hit ttl s now = none) :
    Acts ttl s now .status { s with sweeps := s.sweeps ++ [⟨now, s.configured, none, false⟩] }
  | read {i : Nat} {sweep : Sweep Time} (found : s.sweeps[i]? = some sweep)
    (unread : sweep.read = none) :
    Acts ttl s now (.read i) (readProbes s i sweep)
  | finish {i : Nat} {sweep : Sweep Time} {read : Nat × List Probe} {raises : Nat → Bool}
    (found : s.sweeps[i]? = some sweep) (has_read : sweep.read = some read)
    (running : sweep.finished = false) :
    Acts ttl s now (.finish i raises) (conclude s i sweep read raises)

variable {ttl now : Time} {s t : Readiness Time}

theorem acts_of_act {a : Act} (h : act ttl s now a = some t) : Acts ttl s now a t := by
  cases a with
  | configure probes => exact Option.some.inj h ▸ .configure probes
  | status =>
    obtain rfl := Option.some.inj h
    rw [status]
    split
    · rename_i none_yet
      exact .unconfigured none_yet
    · rename_i probes installed
      split
      · rename_i verdict found
        exact .hit found
      · rename_i missed
        exact .miss (by rw [installed]; rfl) missed
  | read i =>
    rw [act] at h
    split at h
    · rename_i found
      exact Option.some.inj h ▸ .read found rfl
    · cases h
  | finish i raises =>
    rw [act] at h
    split at h
    · rename_i found
      exact Option.some.inj h ▸ .finish found rfl rfl
    · cases h

theorem hit_eq_some {verdict : Verdict} (found : hit ttl s now = some verdict) :
    ∃ at_, s.cached = some (at_, verdict) ∧ now - at_ < ttl := by
  rw [hit] at found
  split at found
  · rename_i at_ own cached
    split at found
    · cases found
      exact ⟨at_, cached, ‹_›⟩
    · cases found
  · cases found

theorem not_lt_of_hit {at_ : Time} {verdict : Verdict} (missed : hit ttl s now = none)
    (cached : s.cached = some (at_, verdict)) : ¬now - at_ < ttl := by
  intro good
  simp [hit, cached, good] at missed

/-! ## The invariant of a run that keeps to it -/

/-- What is known of a sweep: it read its probes after it was started, and it
finishes after that. -/
structure Known (clock : Time) (configured : Nat) (sweep : Sweep Time) : Prop where
  past : sweep.now ≤ clock
  began : sweep.began ≤ configured
  read : ∀ n probes, sweep.read = some (n, probes) → sweep.began ≤ n ∧ n ≤ configured
  finished : sweep.finished = true → sweep.read.isSome = true

/-- A sweep that starts within `ttl` of another starts after the probes of that
one were replaced. -/
def Apart (ttl : Time) (sweeps : List (Sweep Time)) : Prop :=
  ∀ (i j : Nat) (first second : Sweep Time), i < j → sweeps[i]? = some first →
    sweeps[j]? = some second → second.now - first.now < ttl →
    ∃ n probes, first.read = some (n, probes) ∧ n < second.began

structure Inv (ttl : Time) (s : Readiness Time) : Prop where
  known : ∀ sweep ∈ s.sweeps, Known s.clock s.configured sweep
  apart : Apart ttl s.sweeps
  /-- A finished sweep of the installed probes is remembered as long as it is good. -/
  kept : ∀ sweep ∈ s.sweeps, ∀ probes, sweep.finished = true →
    sweep.read = some (s.configured, probes) → s.clock - sweep.now < ttl →
    ∃ at_ verdict, s.cached = some (at_, verdict) ∧ sweep.now ≤ at_
  cached : ∀ at_ verdict, s.cached = some (at_, verdict) → s.clock - at_ < ttl →
    verdict.computed = some s.configured
  current : Current s

theorem spaced_of_inv (inv : Inv ttl s) : Spaced ttl s := by
  intro i j first second n probes probes' before at_i at_j read_i read_j
  by_contra close
  obtain ⟨m, own, read, earlier⟩ := inv.apart i j first second before at_i at_j (lt_of_not_ge close)
  have later := ((inv.known second (List.mem_of_getElem? at_j)).read n probes' read_j).1
  rw [read_i] at read
  cases read
  omega

theorem inv_initial (probes : List Probe) (clock : Time) : Inv ttl (initial probes clock) := by
  constructor
  · exact nofun
  · intro i j first second before at_i
    cases at_i
  · exact nofun
  · exact nofun
  · exact nofun

theorem inv_configure (inv : Inv ttl s) (probes : List Probe) : Inv ttl (configure s probes) := by
  constructor
  · intro sweep listed
    obtain ⟨past, began, read, finished⟩ := inv.known sweep listed
    refine ⟨past, Nat.le_succ_of_le began, ?_, finished⟩
    intro n own has_read
    obtain ⟨low, high⟩ := read n own has_read
    exact ⟨low, Nat.le_succ_of_le high⟩
  · exact inv.apart
  · intro sweep listed own finished has_read
    have high : s.configured + 1 ≤ s.configured :=
      ((inv.known sweep listed).read _ own has_read).2
    omega
  · exact nofun
  · exact inv.current

theorem inv_answer (inv : Inv ttl s) {began : Nat} {verdict : Verdict}
    (fresh : ∀ n, verdict.computed = some n → began ≤ n) : Inv ttl (answer s began verdict) := by
  refine ⟨inv.known, inv.apart, inv.kept, inv.cached, ?_⟩
  intro a listed
  rcases List.mem_append.mp listed with old | new
  · exact inv.current a old
  · rw [List.mem_singleton.mp new]
    exact fresh

theorem apart_append {sweeps : List (Sweep Time)} (apart : Apart ttl sweeps) {last : Sweep Time}
    (after : ∀ sweep ∈ sweeps, last.now - sweep.now < ttl →
      ∃ n probes, sweep.read = some (n, probes) ∧ n < last.began) :
    Apart ttl (sweeps ++ [last]) := by
  intro i j first second before at_i at_j close
  have bound := (List.getElem?_eq_some_iff.mp at_j).1
  rw [List.length_append, List.length_singleton] at bound
  rw [List.getElem?_append_left (by omega)] at at_i
  rcases Nat.lt_or_ge j sweeps.length with old | new
  · rw [List.getElem?_append_left old] at at_j
    exact apart i j first second before at_i at_j close
  · rw [List.getElem?_append_right new] at at_j
    obtain rfl := List.mem_singleton.mp (List.mem_of_getElem? at_j)
    exact after first (List.mem_of_getElem? at_i) close

/-- A sweep is replaced by a later form of it, which has read what it had read. -/
theorem apart_set {sweeps : List (Sweep Time)} (apart : Apart ttl sweeps) {i : Nat}
    {sweep later : Sweep Time} (found : sweeps[i]? = some sweep) (now_eq : later.now = sweep.now)
    (began_eq : later.began = sweep.began)
    (read_eq : ∀ read, sweep.read = some read → later.read = some read) :
    Apart ttl (sweeps.set i later) := by
  have origin : ∀ {k : Nat} {form : Sweep Time}, (sweeps.set i later)[k]? = some form →
      ∃ own, sweeps[k]? = some own ∧ form.now = own.now ∧ form.began = own.began ∧
        ∀ read, own.read = some read → form.read = some read := by
    intro k form listed
    by_cases same : i = k
    · subst same
      rw [List.getElem?_set_self (List.getElem?_eq_some_iff.mp found).1] at listed
      cases listed
      exact ⟨sweep, found, now_eq, began_eq, read_eq⟩
    · rw [List.getElem?_set_ne same] at listed
      exact ⟨form, listed, rfl, rfl, fun _ read => read⟩
  intro k j first second before at_k at_j close
  obtain ⟨own, listed, now_first, -, reads⟩ := origin at_k
  obtain ⟨own', listed', now_second, began_second, -⟩ := origin at_j
  rw [now_first, now_second] at close
  obtain ⟨n, probes, read, earlier⟩ := apart k j own own' before listed listed' close
  exact ⟨n, probes, reads _ read, by omega⟩

theorem inv_read (inv : Inv ttl s) {i : Nat} {sweep : Sweep Time}
    (found : s.sweeps[i]? = some sweep) (unread : sweep.read = none) :
    Inv ttl (readProbes s i sweep) := by
  obtain ⟨past, began, -, finished⟩ := inv.known sweep (List.mem_of_getElem? found)
  constructor
  · intro form listed
    rcases List.mem_or_eq_of_mem_set listed with old | rfl
    · exact inv.known form old
    · refine ⟨past, began, ?_, fun _ => rfl⟩
      intro n probes read
      cases read
      exact ⟨began, Nat.le_refl _⟩
  · refine apart_set inv.apart found rfl rfl ?_
    intro read has_read
    rw [unread] at has_read
    cases has_read
  · intro form listed probes over_ read good
    rcases List.mem_or_eq_of_mem_set listed with old | rfl
    · exact inv.kept form old probes over_ read good
    · have has_read := finished over_
      rw [unread] at has_read
      cases has_read
  · exact inv.cached
  · exact inv.current

/-! Time passes. -/

variable [IsOrderedAddMonoid Time]

/-- What is young by a later clock was so before, and so is what is younger. -/
theorem young_of_young {clock clock' at_ at_' : Time} (good : clock' - at_' < ttl)
    (clocks : clock ≤ clock') (times : at_' ≤ at_) : clock - at_ < ttl :=
  lt_of_le_of_lt (sub_le_sub clocks times) good

/-- Time alone breaks nothing. -/
theorem inv_clock (inv : Inv ttl s) (later : s.clock ≤ now) : Inv ttl { s with clock := now } := by
  constructor
  · intro sweep listed
    obtain ⟨past, began, read, finished⟩ := inv.known sweep listed
    exact ⟨le_trans past later, began, read, finished⟩
  · exact inv.apart
  · intro sweep listed probes finished read good
    exact inv.kept sweep listed probes finished read (young_of_young good later (le_refl _))
  · intro at_ verdict cached good
    exact inv.cached at_ verdict cached (young_of_young good later (le_refl _))
  · exact inv.current

theorem inv_miss (inv : Inv ttl s) (missed : hit ttl s s.clock = none)
    (keeps : ∀ sweep ∈ s.sweeps, sweep.finished = false → s.clock - sweep.now < ttl →
      ∃ n probes, sweep.read = some (n, probes) ∧ n ≠ s.configured) :
    Inv ttl { s with sweeps := s.sweeps ++ [⟨s.clock, s.configured, none, false⟩] } := by
  constructor
  · intro sweep listed
    rcases List.mem_append.mp listed with old | new
    · exact inv.known sweep old
    · rw [List.mem_singleton.mp new]
      exact ⟨le_refl _, Nat.le_refl _, nofun, nofun⟩
  · refine apart_append inv.apart ?_
    intro sweep listed close
    -- Whatever has read the installed probes is in flight or remembered.
    cases running : sweep.finished with
    | false =>
      obtain ⟨n, probes, read, other⟩ := keeps sweep listed running close
      have high := ((inv.known sweep listed).read n probes read).2
      exact ⟨n, probes, read, by show n < s.configured; omega⟩
    | true =>
      obtain ⟨⟨n, probes⟩, read⟩ :=
        Option.isSome_iff_exists.mp ((inv.known sweep listed).finished running)
      have high := ((inv.known sweep listed).read n probes read).2
      refine ⟨n, probes, read, ?_⟩
      show n < s.configured
      by_contra installed
      obtain rfl : n = s.configured := by omega
      have young : s.clock - sweep.now < ttl := close
      obtain ⟨at_, verdict, cached, after⟩ := inv.kept sweep listed probes running read young
      exact not_lt_of_hit missed cached (young_of_young young (le_refl _) after)
  · intro sweep listed probes finished read good
    rcases List.mem_append.mp listed with old | new
    · exact inv.kept sweep old probes finished read good
    · rw [List.mem_singleton.mp new] at finished
      cases finished
  · exact inv.cached
  · exact inv.current

theorem inv_conclude (inv : Inv ttl s) {i n : Nat} {sweep : Sweep Time} {probes : List Probe}
    (raises : Nat → Bool) (found : s.sweeps[i]? = some sweep)
    (read : sweep.read = some (n, probes))
    (installed : s.clock - sweep.now < ttl → n = s.configured)
    (newest : ∀ at_ verdict, s.cached = some (at_, verdict) → s.clock - at_ < ttl →
      at_ ≤ sweep.now) :
    Inv ttl (conclude s i sweep (n, probes) raises) := by
  obtain ⟨past, began, known, -⟩ := inv.known sweep (List.mem_of_getElem? found)
  refine inv_answer ?_ ?_
  · constructor
    · intro form listed
      rcases List.mem_or_eq_of_mem_set listed with old | rfl
      · exact inv.known form old
      · refine ⟨past, began, known, fun _ => ?_⟩
        simp [read]
    · exact apart_set inv.apart found rfl rfl fun _ has_read => has_read
    · intro form listed own finished has_read good
      rcases List.mem_or_eq_of_mem_set listed with old | rfl
      · -- What was remembered of another sweep is younger than that sweep.
        have young : s.clock - form.now < ttl := good
        obtain ⟨at_, verdict, cached, after⟩ := inv.kept form old own finished has_read young
        have replaced := newest at_ verdict cached (young_of_young young (le_refl _) after)
        exact ⟨_, _, rfl, le_trans after replaced⟩
      · exact ⟨_, _, rfl, le_refl _⟩
    · intro at_ verdict cached good
      cases cached
      have young : s.clock - sweep.now < ttl := good
      exact congrArg some (installed young)
    · exact inv.current
  · intro m computed
    cases computed
    exact (known n probes read).1

theorem inv_step {a : Time × Act} (inv : Inv ttl s) (keeps : Keeps ttl s a)
    (h : step ttl s a = some t) : Inv ttl t := by
  obtain ⟨now, a⟩ := a
  rw [step] at h
  split at h
  · rename_i later
    have start := inv_clock inv later
    cases acts_of_act h with
    | configure probes => exact inv_configure start probes
    | unconfigured none_yet => exact inv_answer start nofun
    | hit found =>
      obtain ⟨at_, cached, good⟩ := hit_eq_some found
      refine inv_answer start ?_
      intro n computed
      have same := start.cached at_ _ cached good
      rw [computed] at same
      cases same
      exact Nat.le_refl _
    | miss some_probes missed => exact inv_miss start missed (keeps some_probes missed)
    | read found unread => exact inv_read start found unread
    | @finish i sweep read raises found has_read running =>
      obtain ⟨installed, newest⟩ := keeps sweep read.1 read.2 found has_read
      exact inv_conclude start raises found has_read installed newest
  · cases h

/-- In a run that keeps to it no two sweeps of the same probes start within `ttl`,
and no verdict of replaced probes answers a call that began after the replacement. -/
theorem cache_sound {probes : List Probe} {clock : Time} {acts : List (Time × Act)}
    {s : Readiness Time} (along : Along (step ttl) (Keeps ttl) (initial probes clock) acts)
    (reached : run (step ttl) (initial probes clock) acts = some s) :
    Spaced ttl s ∧ Current s := by
  have inv : Inv ttl s :=
    invariant_along (Inv ttl) (fun _ _ _ inv keeps h => inv_step inv keeps h)
      (inv_initial probes clock) along reached
  exact ⟨spaced_of_inv inv, inv.current⟩

/-! ## The database, asked twice and replaced -/

def database : List Probe := [⟨"database"⟩]

def isUp : Verdict := ⟨true, Dictionary.ofList [("database", UP)], some 1⟩

/-- One sweep, its answer given again a second later. -/
def asked : Readiness ℤ :=
  ⟨some database, 1, some (0, isUp), [⟨0, 1, some (1, database), true⟩],
    [(1, isUp), (1, isUp)], 2⟩

theorem cache_sound_asked : Spaced 5 asked ∧ Current asked := by
  have reached : run (step 5) (initial [] (0 : ℤ)) [(0, .configure database), (0, .status),
      (0, .read 0), (1, .finish 0 fun _ => false), (2, .status)] = some asked := by rfl
  have along : Along (step 5) (Keeps 5) (initial [] (0 : ℤ))
      [(0, .configure database), (0, .status), (0, .read 0), (1, .finish 0 fun _ => false),
        (2, .status)] := by
    refine along_cons rfl trivial (along_cons rfl ?_ (along_cons rfl trivial
      (along_cons rfl ?_ (along_cons rfl ?_ trivial))))
    · exact fun _ _ => nofun
    · intro sweep n probes found read
      cases found
      cases read
      exact ⟨fun _ => rfl, nofun⟩
    · intro _ missed
      cases missed
  exact cache_sound along reached

/-- Two calls that both miss the empty cache start two sweeps at once; a sweep that
ends after its probes were replaced answers for the new ones. -/
theorem cache_not_sound :
    (∃ acts s, run (step 5) (initial database (0 : ℤ)) acts = some s ∧ ¬Spaced 5 s) ∧
      ∃ acts s, run (step 5) (initial database (0 : ℤ)) acts = some s ∧ ¬Current s := by
  constructor
  · refine ⟨[(0, .status), (1, .status), (1, .read 0), (1, .read 1)], _, rfl, ?_⟩
    intro spaced
    have apart : (5 : ℤ) ≤ 1 - 0 := spaced 0 1 _ _ 0 database database (by decide) rfl rfl rfl rfl
    omega
  · refine ⟨[(0, .status), (0, .read 0), (1, .configure [⟨"database_readonly"⟩]),
      (2, .finish 0 fun _ => false), (3, .status)], _, rfl, ?_⟩
    intro current
    have fresh := current (1, ⟨true, Dictionary.ofList [("database", UP)], some 0⟩)
      (List.mem_cons_of_mem _ List.mem_cons_self) 0 rfl
    omega

end Health
