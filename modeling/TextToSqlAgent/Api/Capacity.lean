import TextToSqlAgent.Api.Admission
import TextToSqlAgent.Composition.Resources

/-!
# Slots and connections

A question has a slot from its admission to its end, and its statement runs on a thread that
takes a connection out of the pool. A thread is not interrupted: a stream that is closed
gives its slot back, and the thread it leaves behind goes on. The service, the resources and
the threads are one machine here, whose acts interleave freely.
-/

namespace Capacity

open Python Exceptions Patterns Runs SseEvent Resources
open Admission (Service Request Slots Call)

/-- The settings of a serving process. The pool has to hold every question in flight and more. -/
structure APISettings extends ResourceSettings where
  apiMaxConcurrentRequests : Nat
  pool_outsizes : apiMaxConcurrentRequests < apiPoolMaxSize

/-- A thread that runs the statement of a call, and the connection it has taken. -/
structure Thread where
  request : Nat
  connection : Option Nat
  deriving DecidableEq, Repr

structure Serving (Payload : Type) where
  service : Service Payload
  resources : State
  threads : List Thread

inductive Act (Payload : Type)
  | service (act : Admission.Act Payload)
  /-- Another access to the resources than by a thread. -/
  | resources (access : Access)
  /-- The work of call `i` comes to its statement. -/
  | start (i : Nat)
  /-- The thread of call `i` takes a connection out of the pool. -/
  | borrow (i : Nat)
  /-- The thread of call `i` ends, in whatever way, and gives back what it has. -/
  | finish (i : Nat) (broken : Bool)

variable {Payload : Type}

/-- Whether the work of a call goes on. That of a stream does from the first frame that is
asked for until the generator is closed. -/
def works (r : Request Payload) : Bool :=
  match r.call with
  | .answering => true
  | .answered => false
  | .streaming stream =>
    (stream.phase = .yielded || stream.phase = .waiting) && !stream.pending.isEmpty

/-- Only threads take connections out of the pool and give them back. -/
def byThread : Access → Bool
  | .lend => true
  | .giveBack _ _ => true
  | _ => false

section step

variable (words : Words) (repr : String → String) (settings : ResourceSettings)

def threadOf (threads : List Thread) (i : Nat) : Option Thread :=
  threads.find? fun t => t.request = i

def step (s : Serving Payload) : Act Payload → Option (Serving Payload)
  | .service act => (Admission.step s.service act).map fun service => { s with service := service }
  | .resources access =>
    if byThread access then none
    else (Resources.step words repr settings s.resources access).map fun resources =>
      { s with resources := resources }
  | .start i =>
    match s.service.requests[i]? with
    | none => none
    | some r =>
      if works r ∧ i ∉ s.threads.map Thread.request then
        some { s with threads := s.threads ++ [⟨i, none⟩] }
      else none
  | .borrow i =>
    match threadOf s.threads i, s.resources.pool with
    | some ⟨_, none⟩, some ⟨id :: _, _, _⟩ =>
      (Resources.step words repr settings s.resources .lend).map fun resources =>
        { s with
          resources := resources
          threads := s.threads.map fun t => if t.request = i then ⟨i, some id⟩ else t }
    | _, _ => none
  | .finish i broken =>
    match threadOf s.threads i with
    | none => none
    | some ⟨_, none⟩ => some { s with threads := s.threads.filter fun t => t.request ≠ i }
    | some ⟨_, some id⟩ =>
      (Resources.step words repr settings s.resources (.giveBack id broken)).map fun resources =>
        { s with
          resources := resources
          threads := s.threads.filter fun t => t.request ≠ i }

end step

/-- A process before it opened anything. -/
def opened (limit : Nat) : Serving Payload := ⟨Admission.idle limit, {}, []⟩

/-! ## What is counted -/

/-- How many connections the pool has lent. -/
def lentOf (resources : State) : Nat :=
  match resources.pool with
  | none => 0
  | some pool => pool.lent.length

/-- The call of the thread is in flight. -/
def inFlight (service : Service Payload) (t : Thread) : Bool :=
  match service.requests[t.request]? with
  | none => false
  | some r => !r.finished

def holds (t : Thread) : Bool := t.connection.isSome

namespace Serving

variable (s : Serving Payload)

/-- The threads that have outlived their calls and still have a connection. -/
def outlived : Nat := s.threads.countP fun t => holds t && !inFlight s.service t

/-- There is no connection to take and none to come, but what is given back. -/
def Exhausted (settings : ResourceSettings) : Prop :=
  ∃ pool, s.resources.pool = some pool ∧ pool.idle = [] ∧
    settings.apiPoolMaxSize ≤ pool.lent.length

/-- The thread of a call in flight has to wait for a connection. -/
def Waits (settings : ResourceSettings) : Prop :=
  s.Exhausted settings ∧ ∃ t ∈ s.threads, t.connection = none ∧ inFlight s.service t = true

structure Inv (limit : Nat) : Prop where
  service : Admission.Inv s.service
  limit : s.service.slots.limit = limit
  distinct : (s.threads.map Thread.request).Nodup
  lent : lentOf s.resources = s.threads.countP holds

end Serving

/-! ## What a step keeps -/

section keeps

variable {words : Words} {repr : String → String} {settings : ResourceSettings}
  {s t : Serving Payload}

theorem step_resources {access : Access} {resources : State} (other : byThread access = false)
    (taken : Resources.step words repr settings s.resources access = some resources) :
    step words repr settings s (.resources access) = some { s with resources := resources } := by
  rw [step, other, taken]
  rfl

theorem lentOf_owner (dial : Dial) (r : State) :
    lentOf (accessOwner words settings dial r).2 = lentOf r := by
  rw [accessOwner]
  split
  · rfl
  · split <;> rfl

theorem lentOf_readonly (dial : Dial) (r : State) :
    lentOf (accessReadonly words settings dial r).2 = lentOf r := by
  rw [accessReadonly]
  split
  · rfl
  · split
    · rfl
    · split <;> rfl

theorem lentOf_pool (dials : List Dial) (text : String) (r : State) :
    lentOf (accessPool words settings dials text r).2 = lentOf r := by
  rw [accessPool]
  split
  · rfl
  · rename_i unopened
    dsimp only
    split
    · simp only [lentOf, unopened, List.length_nil]
    · simp only [lentOf, unopened]

theorem lentOf_catalog (dial : Dial) (loaded : Except String Catalog.SchemaCatalog) (r : State) :
    lentOf (accessCatalog words repr settings dial loaded r).2 = lentOf r := by
  have owner : lentOf (accessOwner words settings dial r).2 = lentOf r := lentOf_owner dial r
  rw [accessCatalog]
  split
  · rfl
  · split
    · rename_i done
      rw [done] at owner
      exact owner
    · rename_i done
      rw [done] at owner
      split
      · exact owner
      · dsimp only
        split <;> exact owner

theorem lentOf_retriever (embedder : Except String Unit) (dial : Dial) (r : State) :
    lentOf (accessRetriever words settings embedder dial r).2 = lentOf r := by
  have owner : lentOf (accessOwner words settings dial r).2 = lentOf r := lentOf_owner dial r
  rw [accessRetriever]
  split
  · rfl
  · split
    · rfl
    · split <;> rename_i done <;> rw [done] at owner <;> exact owner

theorem lentOf_close (r : State) : lentOf (closeResources r) = lentOf r := by
  rw [closeResources, lentOf, lentOf]
  cases has : r.pool <;> simp only [has]

theorem lentOf_given {α : Type} (member : Member) (reply : α → Reply)
    (outcome : Except Raised α × State) :
    lentOf (given member reply outcome) = lentOf outcome.2 := by
  obtain ⟨result, r⟩ := outcome
  cases result <;> rfl

/-- What is lent changes by the acts of threads only. -/
theorem lentOf_step {r r' : State} {access : Access} (other : byThread access = false)
    (taken : Resources.step words repr settings r access = some r') : lentOf r' = lentOf r := by
  cases access with
  | owner dial =>
    obtain rfl := Option.some.inj taken
    rw [lentOf_given, lentOf_owner]
  | readonly dial =>
    obtain rfl := Option.some.inj taken
    rw [lentOf_given, lentOf_readonly]
  | readonlyPool dials text =>
    obtain rfl := Option.some.inj taken
    rw [lentOf_given, lentOf_pool]
  | catalog dial loaded =>
    obtain rfl := Option.some.inj taken
    rw [lentOf_given, lentOf_catalog]
  | retriever embedder dial =>
    obtain rfl := Option.some.inj taken
    rw [lentOf_given, lentOf_retriever]
  | close =>
    obtain rfl := Option.some.inj taken
    exact lentOf_close r
  | lend => cases other
  | giveBack id broken => cases other
  | grow dial =>
    obtain ⟨pool, has, taken⟩ := Option.bind_eq_some_iff.mp taken
    simp only [stepPool] at taken
    split_ifs at taken
    obtain rfl := Option.some.inj taken
    simp only [lentOf, has]
  | expire id =>
    obtain ⟨pool, has, taken⟩ := Option.bind_eq_some_iff.mp taken
    simp only [stepPool] at taken
    split_ifs at taken
    obtain rfl := Option.some.inj taken
    simp only [lentOf, has]

theorem lentOf_lend {r r' : State} (taken : Resources.step words repr settings r .lend = some r') :
    lentOf r' = lentOf r + 1 := by
  obtain ⟨pool, has, taken⟩ := Option.bind_eq_some_iff.mp taken
  simp only [stepPool] at taken
  split at taken
  · cases taken
  · obtain rfl := Option.some.inj taken
    simp only [lentOf, has, List.length_cons]

theorem lentOf_giveBack {r r' : State} {id : Nat} {broken : Bool}
    (taken : Resources.step words repr settings r (.giveBack id broken) = some r') :
    lentOf r' + 1 = lentOf r := by
  obtain ⟨pool, has, taken⟩ := Option.bind_eq_some_iff.mp taken
  simp only [stepPool] at taken
  split at taken
  · rename_i lent
    have less := List.length_erase_of_mem lent
    have some_ := List.length_pos_of_mem lent
    split at taken
    · obtain rfl := Option.some.inj taken
      simp only [lentOf, has]
      omega
    · obtain rfl := Option.some.inj taken
      simp only [lentOf, has]
      omega
  · cases taken

theorem inv_opened (limit : Nat) : (opened limit : Serving Payload).Inv limit where
  service := Admission.inv_idle limit
  limit := rfl
  distinct := List.nodup_nil
  lent := rfl

theorem limit_step {v v' : Service Payload} {act : Admission.Act Payload}
    (taken : Admission.step v act = some v') : v'.slots.limit = v.slots.limit := by
  have admitted (call : Call Payload) :
      (Admission.admission v call).slots.limit = v.slots.limit := by
    rw [Admission.admission, Slots.acquire]
    by_cases full : v.slots.held ≥ v.slots.limit
    · rw [if_pos full]
    · rw [if_neg full]
  cases Admission.steps_of_step taken with
  | answer => exact admitted _
  | stream script => exact admitted _
  | finish found => rfl
  | settle found moved => rfl
  | move found moved other => rfl

theorem mem_of_threadOf {threads : List Thread} {i : Nat} {t : Thread}
    (found : threadOf threads i = some t) : t ∈ threads ∧ t.request = i :=
  ⟨List.mem_of_find?_eq_some found, by simpa using List.find?_some found⟩

theorem requests_borrow (threads : List Thread) (i : Nat) (connection : Option Nat) :
    (threads.map fun t => if t.request = i then ⟨i, connection⟩ else t).map Thread.request =
      threads.map Thread.request := by
  rw [List.map_map]
  refine List.map_congr_left ?_
  intro t _
  by_cases its : t.request = i
  · simp only [Function.comp_apply, its, if_true]
  · simp only [Function.comp_apply, if_neg its]

/-- A call has one thread at most, and each connection that is lent is with a thread. -/
theorem inv_step {limit : Nat} {act : Act Payload} (inv : s.Inv limit)
    (taken : step words repr settings s act = some t) : t.Inv limit := by
  cases act with
  | service act =>
    obtain ⟨service, moved, rfl⟩ := Option.map_eq_some_iff.mp taken
    exact { inv with
      service := Admission.inv_step inv.service moved
      limit := (limit_step moved).trans inv.limit }
  | resources access =>
    rw [step] at taken
    split_ifs at taken with thread
    obtain ⟨resources, accessed, rfl⟩ := Option.map_eq_some_iff.mp taken
    have same := lentOf_step (by simpa using thread) accessed
    exact { inv with lent := same.trans inv.lent }
  | start i =>
    rw [step] at taken
    split at taken
    · cases taken
    · split_ifs at taken with starts
      obtain rfl := Option.some.inj taken
      have fresh : (s.threads.map Thread.request ++ [i]).Nodup := by
        rw [List.nodup_append]
        exact ⟨inv.distinct, List.nodup_singleton i, by simpa using starts.2⟩
      exact { inv with
        distinct := by simpa using fresh
        lent := by simpa [holds] using inv.lent }
  | borrow i =>
    rw [step] at taken
    split at taken
    · rename_i request id idle lent closed found has
      obtain ⟨resources, accessed, rfl⟩ := Option.map_eq_some_iff.mp taken
      obtain ⟨listed, rfl⟩ := mem_of_threadOf found
      have more := Counting.countP_replace holds inv.distinct listed ⟨request, some id⟩
      have lends := lentOf_lend accessed
      have held := inv.lent
      simp only [holds, Option.isSome_none, Option.isSome_some, if_true, Bool.false_eq_true,
        if_false] at more
      exact { inv with
        distinct := by
          rw [requests_borrow]
          exact inv.distinct
        lent := by
          simp only
          omega }
    · cases taken
  | finish i broken =>
    rw [step] at taken
    have left : List.Sublist ((s.threads.filter fun t => t.request ≠ i).map Thread.request)
        (s.threads.map Thread.request) := List.filter_sublist.map _
    split at taken
    · cases taken
    · rename_i request found
      obtain rfl := Option.some.inj taken
      obtain ⟨listed, rfl⟩ := mem_of_threadOf found
      have fewer := Counting.countP_leave_out holds inv.distinct listed
      exact { inv with
        distinct := inv.distinct.sublist left
        lent := inv.lent.trans fewer.symm }
    · rename_i request id found
      obtain ⟨resources, accessed, rfl⟩ := Option.map_eq_some_iff.mp taken
      obtain ⟨listed, rfl⟩ := mem_of_threadOf found
      have fewer := Counting.countP_leave_out holds inv.distinct listed
      have back := lentOf_giveBack accessed
      have held := inv.lent
      simp only [holds, Option.isSome_some, if_true] at fewer
      exact { inv with
        distinct := inv.distinct.sublist left
        lent := by
          simp only
          omega }

/-! ## Threads and slots -/

/-- The threads of calls in flight are no more than the slots. -/
theorem inFlight_le {limit : Nat} (inv : s.Inv limit) :
    s.threads.countP (inFlight s.service) ≤ limit := by
  have places : ((s.threads.filter (inFlight s.service)).map Thread.request).Nodup :=
    inv.distinct.sublist (List.filter_sublist.map _)
  have few := Counting.length_le_countP (p := fun r : Request Payload => !r.finished)
    (l := s.service.requests) places (by
      intro i place
      obtain ⟨t, active, rfl⟩ := List.mem_map.mp place
      have active := (List.mem_filter.mp active).2
      rw [inFlight] at active
      split at active
      · cases active
      · rename_i r found
        exact ⟨r, found, active⟩)
  rw [List.length_map, ← List.countP_eq_length_filter] at few
  have counted := inv.service.counted
  have high := inv.service.high
  rw [inv.limit] at high
  omega

/-- What is lent is with threads of calls in flight and with threads that outlived theirs. -/
theorem lent_eq {limit : Nat} (inv : s.Inv limit) : lentOf s.resources =
    s.threads.countP (fun t => holds t && inFlight s.service t) + s.outlived := by
  rw [inv.lent, Serving.outlived]
  generalize s.threads = threads
  induction threads with
  | nil => rfl
  | cons t rest ih =>
    simp only [List.countP_cons, ih]
    cases holds t <;> cases inFlight s.service t <;> simp <;> omega

theorem inFlight_of_both {service : Service Payload} {t : Thread}
    (both : (holds t && inFlight service t) = true) : inFlight service t = true :=
  (Bool.and_eq_true_iff.mp both).2

theorem waiting_lt (waits : s.Waits settings) :
    (s.threads.countP fun t => holds t && inFlight s.service t) <
      s.threads.countP (inFlight s.service) := by
  obtain ⟨-, t, listed, bare, active⟩ := waits
  have both : ∀ u ∈ s.threads, (holds u && inFlight s.service u) = true →
      inFlight s.service u = true := fun _ _ => inFlight_of_both
  refine lt_of_le_of_ne (List.countP_mono_left both) ?_
  intro same
  have held := (Counting.countP_eq_iff_of_imp both).mp same t listed active
  rw [holds, bare] at held
  cases held

end keeps

private def busySettings : APISettings :=
  { readerSettings with
    apiPoolMaxSize := 2
    pool_sizes := by decide
    apiMaxConcurrentRequests := 1
    pool_outsizes := by decide }

/-- A stream whose statement runs when the client closes it. -/
private def leftBehind (i : Nat) : List (Act String) :=
  [.service (.stream [⟨"done", "", by decide⟩]), .service (.move i .next), .start i, .borrow i,
    .service (.move i .close), .service (.move i .settle)]

private def busyActs : List (Act String) :=
  leftBehind 0 ++ leftBehind 1 ++
    [.service (.stream [⟨"done", "", by decide⟩]), .service (.move 2 .next), .start 2]

private def busyConn : Conn :=
  (pooled plainWords busySettings.toResourceSettings readerSession).scoped
    busySettings.toResourceSettings

/-- A pool of two, both of its connections idle. -/
private def busyResources : State where
  conns := [busyConn, busyConn]
  pool := some ⟨[0, 1], [], false⟩
  replies := [.pool]

theorem grow_busy (idle : List Nat) (conns : Conns) :
    grow plainWords busySettings.toResourceSettings (.ok readerSession) idle conns =
      (idle ++ [conns.length], conns ++ [busyConn]) := by
  obtain ⟨barrier, accepted⟩ := (assertReadOnly_iff _).mpr readOnly_reader
  have prepared : prepare busySettings.toResourceSettings
      (pooled plainWords busySettings.toResourceSettings readerSession) = .ok busyConn :=
    Fallible.bind_ok_iff.mpr ⟨barrier, accepted, rfl⟩
  simp only [grow, takeIn, prepared]

theorem opened_busy : run (step plainWords id busySettings.toResourceSettings)
    (opened 1 : Serving String)
    [.resources (.readonlyPool [.ok readerSession] ""), .resources (.grow (.ok readerSession))] =
      some ⟨Admission.idle 1, busyResources, []⟩ := by
  have filled : fill plainWords busySettings.toResourceSettings [.ok readerSession] [] [] =
      ([0], [busyConn]) := by
    rw [fill, if_neg (by decide), grow_busy]
    rfl
  have first : Resources.step plainWords id busySettings.toResourceSettings {}
      (.readonlyPool [.ok readerSession] "") =
        some { conns := [busyConn], pool := some ⟨[0], [], false⟩, replies := [.pool] } := by
    rw [Resources.step, accessPool, filled]
    rfl
  have second : Resources.step plainWords id busySettings.toResourceSettings
      { conns := [busyConn], pool := some ⟨[0], [], false⟩, replies := [.pool] }
      (.grow (.ok readerSession)) = some busyResources := by
    have grown : stepPool plainWords busySettings.toResourceSettings ⟨[0], [], false⟩
        { conns := [busyConn], pool := some ⟨[0], [], false⟩, replies := [.pool] }
        (.grow (.ok readerSession)) = some busyResources := by
      rw [stepPool, if_pos (by decide), grow_busy]
      rfl
    exact grown
  exact run_cons_some.mpr ⟨_, step_resources rfl first,
    run_cons_some.mpr ⟨_, step_resources rfl second, rfl⟩⟩

end Capacity
