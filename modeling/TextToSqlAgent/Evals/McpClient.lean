import TextToSqlAgent.Library.Dictionary
import TextToSqlAgent.Library.Runs

/-!
# A pool of servers, each on a thread of its own

`McpClientPool` and the life of `McpSchemaSearch`. The calls on the pool come one
after the other; between the parts of a call, and while a call waits in `start`,
the serving threads move. A thread belongs to one client for good, a client has
at most one thread that it knows of: a start that times out makes it forget its
thread, which goes on.
-/

namespace McpClient

open Runs

inductive Phase
  | starting
  /-- The client knows the thread's loop and queue. -/
  | opened
  | serving
  | ended
  deriving DecidableEq

/-- A serving thread with its server tree. It is told by the `close` of its client,
which leaves the end of the queue to it unless it is over already. -/
structure Thread where
  client : Nat
  phase : Phase
  told : Bool
  deriving DecidableEq

/-- The fields of the client that `start` and `close` use; `queue` is the thread
that `_loop` and `_queue` belong to. -/
structure McpSchemaSearch where
  dataset : String
  thread : Option Nat
  ready : Bool
  failure : Bool
  queue : Option Nat
  starts : Nat
  deriving DecidableEq

def McpSchemaSearch.running (client : McpSchemaSearch) : Bool := client.thread.isSome

/-- All clients made and all threads started so far. -/
structure Servers where
  clients : List McpSchemaSearch
  threads : List Thread
  deriving DecidableEq

/-- Where the calls on the pool are: between two of them, in the loop of `acquire`,
or in the `start` of a client, for `acquire` if a data set is given. -/
inductive Main
  | idle
  | acquiring (dataset : String) (client : Nat)
  | starting (client : Nat) (dataset : Option String)

structure State where
  servers : Servers
  clients : Dictionary String Nat
  main : Main
  starts : Nat

def initial : State := ⟨⟨[], []⟩, Dictionary.empty, .idle, 0⟩

inductive Act
  | acquire (dataset : String)
  /-- A turn of the loop of `acquire`. -/
  | evict
  /-- `acquire` after its loop. -/
  | proceed
  /-- `search` of a client that `acquire` has returned at some time. -/
  | search (client : Nat)
  /-- The wait in `start` ends, because the thread reported or by the timeout. -/
  | started
  | timedOut
  | close
  /-- Thread `t` sets the loop and the queue. -/
  | opens (t : Nat)
  /-- Thread `t` has its tool and begins to serve. -/
  | serves (t : Nat)
  /-- Thread `t` ends before it serves. -/
  | fails (t : Nat)
  /-- Thread `t` ends while it serves, told or not, with a failure or without. -/
  | finishes (t : Nat) (failed : Bool)

/-- `thread.start()` of `start`, for client `c`. -/
def Servers.launch (v : Servers) (c : Nat) (client : McpSchemaSearch) : Servers :=
  ⟨v.clients.set c { client with
      thread := some v.threads.length
      ready := false
      failure := false
      starts := client.starts + 1 },
    v.threads ++ [⟨c, .starting, false⟩]⟩

/-- `None` is put into the queue of a thread whose loop is not closed. -/
def tell (queue : Option Nat) (threads : List Thread) : List Thread :=
  match queue with
  | some q => threads.modify q fun thread =>
      if thread.phase = .ended then thread else { thread with told := true }
  | none => threads

/-- `thread.join`: who has been told ends in time. -/
def join (t : Nat) (threads : List Thread) : List Thread :=
  threads.modify t fun thread =>
    if thread.phase = .ended then { thread with told := true }
    else if thread.told then { thread with phase := .ended } else thread

/-- `close` of client `c`. -/
def Servers.close (v : Servers) (c : Nat) : Servers :=
  match v.clients[c]? with
  | none => v
  | some client =>
    match client.thread with
    | none => v
    | some t => ⟨v.clients.set c { client with thread := none, queue := none },
        join t (tell client.queue v.threads)⟩

/-- A thread moves on and writes into its client. -/
def Servers.move (v : Servers) (t : Nat) (thread : Thread)
    (write : McpSchemaSearch → McpSchemaSearch) : Servers :=
  ⟨v.clients.modify thread.client write, v.threads.set t thread⟩

def opened (t : Nat) (client : McpSchemaSearch) : McpSchemaSearch := { client with queue := some t }

def reported (client : McpSchemaSearch) : McpSchemaSearch := { client with ready := true }

/-- The end of `_run`. -/
def ceased (failed : Bool) (client : McpSchemaSearch) : McpSchemaSearch :=
  { client with failure := client.failure || failed, ready := true }

/-- `acquire` up to its loop. -/
def acquire (s : State) (dataset : String) : State :=
  match s.clients.get? dataset with
  | some c => { s with clients := s.clients.erase dataset, main := .acquiring dataset c }
  | none =>
    -- The constructor of a client refuses an empty name.
    if dataset = "" then s
    else { s with
      servers := ⟨s.servers.clients ++ [⟨dataset, none, false, false, none, 0⟩],
        s.servers.threads⟩
      main := .acquiring dataset s.servers.clients.length }

/-- The end of `start`. -/
def started (s : State) (c : Nat) (client : McpSchemaSearch) (dataset : Option String) : State :=
  if client.failure then { s with servers := s.servers.close c, main := .idle }
  else
    match dataset with
    | some name =>
      { s with clients := s.clients.set name c, main := .idle, starts := s.starts + 1 }
    | none => { s with main := .idle }

def launch (s : State) (c : Nat) (client : McpSchemaSearch) (dataset : Option String) : State :=
  { s with servers := s.servers.launch c client, main := .starting c dataset }

def moved (s : State) (t : Nat) (thread : Thread) (write : McpSchemaSearch → McpSchemaSearch) :
    State :=
  { s with servers := s.servers.move t thread write }

/-- What `start` does when its wait is over too soon. -/
def abandon (s : State) (c : Nat) (client : McpSchemaSearch) : State :=
  { s with
    servers := ⟨s.servers.clients.set c { client with thread := none }, s.servers.threads⟩
    main := .idle }

/-- `close` of the pool. -/
def closeAll (s : State) : State :=
  { s with
    servers := (s.clients.entries.map Prod.snd).foldl Servers.close s.servers
    clients := Dictionary.empty }

def step (maxLive : Nat) (s : State) : Act → Option State
  | .acquire dataset =>
    match s.main with
    | .idle => some (acquire s dataset)
    | _ => none
  | .evict =>
    match s.main, s.clients.entries with
    | .acquiring _ _, (name, c) :: rest =>
      if maxLive ≤ rest.length + 1 then
        some { s with servers := s.servers.close c, clients := s.clients.erase name }
      else none
    | _, _ => none
  | .proceed =>
    match s.main with
    | .acquiring dataset c =>
      if s.clients.entries.length < maxLive then
        s.servers.clients[c]?.map fun client =>
          if client.running then { s with clients := s.clients.set dataset c, main := .idle }
          else launch s c client (some dataset)
      else none
    | _ => none
  | .search c =>
    match s.main with
    | .idle => s.servers.clients[c]?.map fun client =>
        if client.running then s else launch s c client none
    | _ => none
  | .started =>
    match s.main with
    | .starting c dataset => s.servers.clients[c]?.bind fun client =>
        if client.ready then some (started s c client dataset) else none
    | _ => none
  | .timedOut =>
    match s.main with
    | .starting c _ => s.servers.clients[c]?.bind fun client =>
        if client.ready then none else some (abandon s c client)
    | _ => none
  | .close =>
    match s.main with
    | .idle => some (closeAll s)
    | _ => none
  | .opens t => s.servers.threads[t]?.bind fun thread =>
      if thread.phase = .starting then some (moved s t { thread with phase := .opened } (opened t))
      else none
  | .serves t => s.servers.threads[t]?.bind fun thread =>
      if thread.phase = .opened then some (moved s t { thread with phase := .serving } reported)
      else none
  | .fails t => s.servers.threads[t]?.bind fun thread =>
      if thread.phase = .starting ∨ thread.phase = .opened then
        some (moved s t { thread with phase := .ended } (ceased true))
      else none
  | .finishes t failed => s.servers.threads[t]?.bind fun thread =>
      if thread.phase = .serving then
        some (moved s t { thread with phase := .ended } (ceased failed))
      else none

/-- The server trees that are alive. -/
def Servers.alive (v : Servers) : Nat := v.threads.countP fun thread => thread.phase ≠ .ended

/-- No start times out, and nobody searches with a client that the pool has closed. -/
def Keeps (s : State) : Act → Prop
  | .timedOut => False
  | .search c => ∀ client, s.servers.clients[c]? = some client → client.running = true
  | _ => True

/-! ## What a step does -/

/-- All that an act can do. -/
inductive Steps (maxLive : Nat) (s : State) : Act → State → Prop
  | acquire {dataset : String} (main : s.main = .idle) :
    Steps maxLive s (.acquire dataset) (McpClient.acquire s dataset)
  | evict {dataset name : String} {client c : Nat} {rest : List (String × Nat)}
    (main : s.main = .acquiring dataset client) (first : s.clients.entries = (name, c) :: rest)
    (full : maxLive ≤ rest.length + 1) :
    Steps maxLive s .evict
      { s with servers := s.servers.close c, clients := s.clients.erase name }
  | running {dataset : String} {c : Nat} {client : McpSchemaSearch}
    (main : s.main = .acquiring dataset c) (room : s.clients.entries.length < maxLive)
    (found : s.servers.clients[c]? = some client) (runs : client.running = true) :
    Steps maxLive s .proceed { s with clients := s.clients.set dataset c, main := .idle }
  | launched {dataset : String} {c : Nat} {client : McpSchemaSearch}
    (main : s.main = .acquiring dataset c) (room : s.clients.entries.length < maxLive)
    (found : s.servers.clients[c]? = some client) (stopped : client.thread = none) :
    Steps maxLive s .proceed (launch s c client (some dataset))
  | searched {c : Nat} {client : McpSchemaSearch} (main : s.main = .idle)
    (found : s.servers.clients[c]? = some client) (runs : client.running = true) :
    Steps maxLive s (.search c) s
  | restarted {c : Nat} {client : McpSchemaSearch} (main : s.main = .idle)
    (found : s.servers.clients[c]? = some client) (stopped : client.running = false) :
    Steps maxLive s (.search c) (launch s c client none)
  | started {c : Nat} {client : McpSchemaSearch} {dataset : Option String}
    (main : s.main = .starting c dataset) (found : s.servers.clients[c]? = some client)
    (ready : client.ready = true) :
    Steps maxLive s .started (McpClient.started s c client dataset)
  | timedOut {c : Nat} {client : McpSchemaSearch} {dataset : Option String}
    (main : s.main = .starting c dataset) (found : s.servers.clients[c]? = some client)
    (unready : client.ready = false) :
    Steps maxLive s .timedOut (abandon s c client)
  | close (main : s.main = .idle) : Steps maxLive s .close (closeAll s)
  | opens {t : Nat} {thread : Thread} (found : s.servers.threads[t]? = some thread)
    (phase : thread.phase = .starting) :
    Steps maxLive s (.opens t) (moved s t { thread with phase := .opened } (opened t))
  | serves {t : Nat} {thread : Thread} (found : s.servers.threads[t]? = some thread)
    (phase : thread.phase = .opened) :
    Steps maxLive s (.serves t) (moved s t { thread with phase := .serving } reported)
  | fails {t : Nat} {thread : Thread} (found : s.servers.threads[t]? = some thread)
    (phase : thread.phase = .starting ∨ thread.phase = .opened) :
    Steps maxLive s (.fails t) (moved s t { thread with phase := .ended } (ceased true))
  | finishes {t : Nat} {failed : Bool} {thread : Thread}
    (found : s.servers.threads[t]? = some thread) (phase : thread.phase = .serving) :
    Steps maxLive s (.finishes t failed) (moved s t { thread with phase := .ended } (ceased failed))

variable {maxLive : Nat}

theorem thread_of_stopped {client : McpSchemaSearch} (stopped : client.running = false) :
    client.thread = none := by
  cases known : client.thread with
  | none => rfl
  | some t => simp [McpSchemaSearch.running, known] at stopped

theorem steps_of_step {s s' : State} {a : Act} (h : step maxLive s a = some s') :
    Steps maxLive s a s' := by
  cases a with
  | acquire dataset =>
    rw [step] at h
    split at h
    · rename_i main
      exact Option.some.inj h ▸ .acquire main
    · cases h
  | evict =>
    rw [step] at h
    split at h
    · rename_i main first
      split at h
      · exact Option.some.inj h ▸ .evict main first ‹_›
      · cases h
    · cases h
  | proceed =>
    rw [step] at h
    split at h
    · rename_i dataset c main
      split at h
      · rename_i room
        obtain ⟨client, found, result⟩ := Option.map_eq_some_iff.mp h
        subst result
        cases runs : client.running with
        | true => exact .running main room found runs
        | false => exact .launched main room found (thread_of_stopped runs)
      · cases h
    · cases h
  | search c =>
    rw [step] at h
    split at h
    · rename_i main
      obtain ⟨client, found, result⟩ := Option.map_eq_some_iff.mp h
      subst result
      cases runs : client.running with
      | true => exact .searched main found runs
      | false => exact .restarted main found runs
    · cases h
  | started =>
    rw [step] at h
    split at h
    · rename_i main
      obtain ⟨client, found, result⟩ := Option.bind_eq_some_iff.mp h
      split at result
      · exact Option.some.inj result ▸ .started main found ‹_›
      · cases result
    · cases h
  | timedOut =>
    rw [step] at h
    split at h
    · rename_i main
      obtain ⟨client, found, result⟩ := Option.bind_eq_some_iff.mp h
      split at result
      · cases result
      · rename_i unready
        exact Option.some.inj result ▸ .timedOut main found (Bool.eq_false_iff.mpr unready)
    · cases h
  | close =>
    rw [step] at h
    split at h
    · rename_i main
      exact Option.some.inj h ▸ .close main
    · cases h
  | opens t =>
    obtain ⟨thread, found, result⟩ := Option.bind_eq_some_iff.mp h
    split at result
    · exact Option.some.inj result ▸ .opens found ‹_›
    · cases result
  | serves t =>
    obtain ⟨thread, found, result⟩ := Option.bind_eq_some_iff.mp h
    split at result
    · exact Option.some.inj result ▸ .serves found ‹_›
    · cases result
  | fails t =>
    obtain ⟨thread, found, result⟩ := Option.bind_eq_some_iff.mp h
    split at result
    · exact Option.some.inj result ▸ .fails found ‹_›
    · cases result
  | finishes t failed =>
    obtain ⟨thread, found, result⟩ := Option.bind_eq_some_iff.mp h
    split at result
    · exact Option.some.inj result ▸ .finishes found ‹_›
    · cases result

end McpClient
