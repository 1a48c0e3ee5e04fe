import Mathlib.Data.List.Perm.Subperm
import TextToSqlAgent.Evals.McpClient

/-!
# How many servers the pool keeps alive

What is known of the clients and their threads at any moment of a run in which no
start times out. Every thread that nobody has told to stop is known to its client,
and that client is in the pool or about to be put there, for which there is room.
-/

namespace McpPool

open McpClient Runs

/-! ## Whose threads are alive -/

/-- How the thread that a client knows of stands to it: its loop is the client's from
the time it opens, and it has not begun to serve only while `start` waits for it. -/
structure Serves (waiting : Nat → Prop) (c : Nat) (client : McpSchemaSearch) (t : Nat)
    (thread : Thread) : Prop where
  owner : thread.client = c
  queue : thread.phase = .opened ∨ thread.phase = .serving → client.queue = some t
  settled : (thread.phase = .serving ∨ thread.phase = .ended) ∨
    (waiting c ∧ client.ready = false)

/-- Every thread that has not been told is known to its client, and every client that
knows of a thread is held. -/
structure Live (held waiting : Nat → Prop) (v : Servers) : Prop where
  queue : ∀ (c : Nat) (client : McpSchemaSearch) (q : Nat), v.clients[c]? = some client →
    client.queue = some q → client.thread = some q
  current : ∀ (c : Nat) (client : McpSchemaSearch) (t : Nat), v.clients[c]? = some client →
    client.thread = some t →
    held c ∧ ∃ thread, v.threads[t]? = some thread ∧ Serves waiting c client t thread
  untold : ∀ (t : Nat) (thread : Thread), v.threads[t]? = some thread → thread.told = false →
    ∃ client, v.clients[thread.client]? = some client ∧ client.thread = some t
  told : ∀ (t : Nat) (thread : Thread), v.threads[t]? = some thread → thread.told = true →
    thread.phase = .ended

section servers

variable {held held' waiting waiting' : Nat → Prop} {v : Servers} {c : Nat}
  {client : McpSchemaSearch}

theorem Serves.mono {t : Nat} {thread : Thread} (serves : Serves waiting c client t thread)
    (wait : waiting c → client.ready = false → waiting' c) :
    Serves waiting' c client t thread := by
  refine ⟨serves.owner, serves.queue, ?_⟩
  rcases serves.settled with settled | ⟨waits, unready⟩
  · exact .inl settled
  · exact .inr ⟨wait waits unready, unready⟩

theorem Live.mono (live : Live held waiting v) (hold : ∀ c, held c → held' c)
    (wait : ∀ (c : Nat) (client : McpSchemaSearch), v.clients[c]? = some client → waiting c →
      client.ready = false → waiting' c) : Live held' waiting' v := by
  refine ⟨live.queue, ?_, live.untold, live.told⟩
  intro c client t found known
  obtain ⟨holds, thread, listed, serves⟩ := live.current c client t found known
  exact ⟨hold c holds, thread, listed, serves.mono (wait c client found)⟩

theorem get?_set_eq {α : Type} {l : List α} {i : Nat} {a : α} (b : α) (found : l[i]? = some a) :
    (l.set i b)[i]? = some b :=
  List.getElem?_set_self (List.getElem?_eq_some_iff.mp found).1

/-- The thread told, and over. -/
def stopped (thread : Thread) : Thread := { thread with phase := .ended, told := true }

theorem close_of_stopped (found : v.clients[c]? = some client) (known : client.thread = none) :
    v.close c = v := by
  simp [Servers.close, found, known]

/-- Closing a client ends and tells the thread it knows of, if that is over or its
queue is the client's. -/
theorem close_eq (live : Live held waiting v) (found : v.clients[c]? = some client) {t : Nat}
    (known : client.thread = some t) {thread : Thread} (listed : v.threads[t]? = some thread)
    (settled : thread.phase = .serving ∨ thread.phase = .ended)
    (serves : Serves waiting c client t thread) :
    v.close c = ⟨v.clients.set c { client with thread := none, queue := none },
      v.threads.set t (stopped thread)⟩ := by
  have same : ∀ f : Thread → Thread, v.threads.modify t f = v.threads.set t (f thread) := by
    intro f
    apply List.ext_getElem?
    intro i
    by_cases here : t = i
    · subst here
      rw [List.getElem?_modify_eq, get?_set_eq _ listed, listed]
      rfl
    · rw [List.getElem?_modify_ne _ _ here, List.getElem?_set_ne here]
  simp only [Servers.close, found, known]
  congr 1
  rcases settled with serving | ended
  · rw [serves.queue (.inr serving), McpClient.tell, join, List.modify_modify_eq, same]
    simp [serving, stopped]
  · cases queue : client.queue with
    | none =>
      rw [McpClient.tell, join, same]
      simp [ended, stopped]
    | some q =>
      have own := live.queue c client q found queue
      rw [known] at own
      cases own
      rw [McpClient.tell, join, List.modify_modify_eq, same]
      simp [ended, stopped]

/-- What is not about client `c` needs no word on it, if `c` knows of no thread. -/
theorem Live.without (live : Live held waiting v)
    (stopped : ∀ client, v.clients[c]? = some client → client.thread = none) :
    Live (fun x => held x ∧ x ≠ c) (fun x => waiting x ∧ x ≠ c) v := by
  refine ⟨live.queue, ?_, live.untold, live.told⟩
  intro x other t found known
  have apart : x ≠ c := by
    rintro rfl
    rw [stopped other found] at known
    cases known
  obtain ⟨holds, thread, listed, serves⟩ := live.current x other t found known
  exact ⟨⟨holds, apart⟩, thread, listed, serves.mono fun waits _ => ⟨waits, apart⟩⟩

/-- A client that no start waits for is closed and no longer held. -/
theorem live_close (live : Live held waiting v)
    (settled : ∀ client, v.clients[c]? = some client → waiting c → client.ready = true) :
    Live (fun x => held x ∧ x ≠ c) (fun x => waiting x ∧ x ≠ c) (v.close c) := by
  cases found : v.clients[c]? with
  | none =>
    have same : v.close c = v := by simp [Servers.close, found]
    rw [same]
    refine live.without ?_
    intro client listed
    rw [found] at listed
    cases listed
  | some client => ?_
  cases known : client.thread with
  | none =>
    rw [close_of_stopped found known]
    refine live.without ?_
    intro other listed
    rw [found] at listed
    cases listed
    exact known
  | some t =>
    obtain ⟨-, thread, listed, serves⟩ := live.current c client t found known
    have past : thread.phase = .serving ∨ thread.phase = .ended := by
      rcases serves.settled with past | ⟨waits, unready⟩
      · exact past
      · rw [settled client found waits] at unready
        cases unready
    rw [close_eq live found known listed past serves]
    constructor
    · intro x other q found' queue
      by_cases same : c = x
      · subst same
        rw [get?_set_eq _ found] at found'
        cases found'
        cases queue
      · rw [List.getElem?_set_ne same] at found'
        exact live.queue x other q found' queue
    · intro x other u found' known'
      by_cases same : c = x
      · subst same
        rw [get?_set_eq _ found] at found'
        cases found'
        cases known'
      · rw [List.getElem?_set_ne same] at found'
        obtain ⟨holds, thread', listed', serves'⟩ := live.current x other u found' known'
        have other_client : x ≠ c := fun equal => same equal.symm
        refine ⟨⟨holds, other_client⟩, thread', ?_,
          serves'.mono fun waits _ => ⟨waits, other_client⟩⟩
        have apart : t ≠ u := by
          rintro rfl
          rw [listed] at listed'
          cases listed'
          exact same (serves.owner.symm.trans serves'.owner)
        rw [List.getElem?_set_ne apart, listed']
    · intro u thread' listed' untold
      by_cases same : t = u
      · subst same
        rw [get?_set_eq _ listed] at listed'
        cases listed'
        cases untold
      · rw [List.getElem?_set_ne same] at listed'
        obtain ⟨other, found', known'⟩ := live.untold u thread' listed' untold
        refine ⟨other, ?_, known'⟩
        have apart : c ≠ thread'.client := by
          intro equal
          rw [← equal, found] at found'
          cases found'
          rw [known] at known'
          cases known'
          exact same rfl
        rw [List.getElem?_set_ne apart, found']
    · intro u thread' listed' told
      by_cases same : t = u
      · subst same
        rw [get?_set_eq _ listed] at listed'
        cases listed'
        rfl
      · rw [List.getElem?_set_ne same] at listed'
        exact live.told u thread' listed' told

/-- A client with no thread gets a new one, which `start` waits for. -/
theorem live_launch (live : Live held waiting v) (found : v.clients[c]? = some client)
    (stopped : client.thread = none) :
    Live (fun x => held x ∨ x = c) (fun x => waiting x ∨ x = c) (v.launch c client) := by
  have before : ∀ {t : Nat} {thread : Thread}, v.threads[t]? = some thread →
      (v.launch c client).threads[t]? = some thread := by
    intro t thread listed
    exact (List.getElem?_append_left (List.getElem?_eq_some_iff.mp listed).1).trans listed
  constructor
  · intro x other q found' queue
    by_cases same : c = x
    · subst same
      rw [Servers.launch, get?_set_eq _ found] at found'
      cases found'
      have known := live.queue c client q found queue
      rw [stopped] at known
      cases known
    · rw [Servers.launch, List.getElem?_set_ne same] at found'
      exact live.queue x other q found' queue
  · intro x other t found' known
    by_cases same : c = x
    · subst same
      rw [Servers.launch, get?_set_eq _ found] at found'
      cases found'
      cases known
      refine ⟨.inr rfl, ⟨c, .starting, false⟩, List.getElem?_concat_length, rfl, ?_, ?_⟩
      · rintro (opened | serving)
        · cases opened
        · cases serving
      · exact .inr ⟨.inr rfl, rfl⟩
    · rw [Servers.launch, List.getElem?_set_ne same] at found'
      obtain ⟨holds, thread, listed, serves⟩ := live.current x other t found' known
      exact ⟨.inl holds, thread, before listed, serves.mono fun waits _ => .inl waits⟩
  · intro t thread listed untold
    rcases Nat.lt_trichotomy t v.threads.length with old | rfl | beyond
    · rw [Servers.launch, List.getElem?_append_left old] at listed
      obtain ⟨other, found', known⟩ := live.untold t thread listed untold
      refine ⟨other, ?_, known⟩
      have apart : c ≠ thread.client := by
        intro equal
        rw [← equal, found] at found'
        cases found'
        rw [stopped] at known
        cases known
      rw [Servers.launch, List.getElem?_set_ne apart, found']
    · rw [Servers.launch, List.getElem?_concat_length] at listed
      cases listed
      exact ⟨_, get?_set_eq _ found, rfl⟩
    · rw [Servers.launch, List.getElem?_eq_none (by simp; omega)] at listed
      cases listed
  · intro t thread listed told
    rcases Nat.lt_trichotomy t v.threads.length with old | rfl | beyond
    · rw [Servers.launch, List.getElem?_append_left old] at listed
      exact live.told t thread listed told
    · rw [Servers.launch, List.getElem?_concat_length] at listed
      cases listed
      cases told
    · rw [Servers.launch, List.getElem?_eq_none (by simp; omega)] at listed
      cases listed

/-- A thread that is not over moves on, and writes of the client's fields none but
its own loop and queue, the outcome and that it has reported. -/
theorem live_move (live : Live held waiting v) {t : Nat} {thread later : Thread}
    (listed : v.threads[t]? = some thread) (alive : thread.phase ≠ .ended)
    (owner : later.client = thread.client) (untold : later.told = thread.told)
    {write : McpSchemaSearch → McpSchemaSearch}
    (kept : ∀ client, (write client).thread = client.thread)
    (queue : ∀ client, (write client).queue = client.queue ∨ (write client).queue = some t)
    (serves : ∀ client, Serves waiting thread.client client t thread →
      Serves waiting thread.client (write client) t later) :
    Live held waiting (v.move t later write) := by
  have quiet : thread.told = false := by
    cases told : thread.told with
    | false => rfl
    | true => exact absurd (live.told t thread listed told) alive
  obtain ⟨client, found, known⟩ := live.untold t thread listed quiet
  have written : ∀ x, (v.move t later write).clients[x]? =
      (fun other => if thread.client = x then write other else other) <$> v.clients[x]? := by
    intro x
    rw [Servers.move, owner, List.getElem?_modify]
  have own : (v.move t later write).clients[thread.client]? = some (write client) := by
    rw [written, found]
    simp
  constructor
  · intro x other q found' has_queue
    by_cases same : thread.client = x
    · subst same
      rw [own] at found'
      cases found'
      rw [kept]
      rcases queue client with old | new
      · rw [old] at has_queue
        exact live.queue _ client q found has_queue
      · rw [new] at has_queue
        cases has_queue
        exact known
    · rw [written] at found'
      simp only [same, if_false, Option.map_eq_map, Option.map_id'] at found'
      exact live.queue x other q found' has_queue
  · intro x other u found' known'
    by_cases same : thread.client = x
    · subst same
      rw [own] at found'
      cases found'
      rw [kept, known] at known'
      cases known'
      obtain ⟨holds, thread', listed', serves'⟩ := live.current _ client t found known
      rw [listed] at listed'
      cases listed'
      exact ⟨holds, later, get?_set_eq _ listed, serves client serves'⟩
    · rw [written] at found'
      simp only [same, if_false, Option.map_eq_map, Option.map_id'] at found'
      obtain ⟨holds, thread', listed', serves'⟩ := live.current x other u found' known'
      refine ⟨holds, thread', ?_, serves'⟩
      have apart : t ≠ u := by
        rintro rfl
        rw [listed] at listed'
        cases listed'
        exact same serves'.owner
      rw [Servers.move, List.getElem?_set_ne apart, listed']
  · intro u thread' listed' untold'
    by_cases same : t = u
    · subst same
      rw [Servers.move, get?_set_eq _ listed] at listed'
      cases listed'
      exact ⟨write client, owner ▸ own, (kept client).trans known⟩
    · rw [Servers.move, List.getElem?_set_ne same] at listed'
      obtain ⟨other, found', known'⟩ := live.untold u thread' listed' untold'
      rw [written, found']
      by_cases mine : thread.client = thread'.client
      · exact ⟨write other, by simp [mine], (kept other).trans known'⟩
      · exact ⟨other, by simp [mine], known'⟩
  · intro u thread' listed' told
    by_cases same : t = u
    · subst same
      rw [Servers.move, get?_set_eq _ listed] at listed'
      cases listed'
      rw [untold, quiet] at told
      cases told
    · rw [Servers.move, List.getElem?_set_ne same] at listed'
      exact live.told u thread' listed' told

theorem live_closes {clients : List Nat} (live : Live held waiting v)
    (settled : ∀ c ∈ clients, ¬waiting c) :
    Live (fun x => held x ∧ x ∉ clients) waiting (clients.foldl Servers.close v) := by
  induction clients generalizing held v with
  | nil => exact live.mono (fun _ holds => ⟨holds, List.not_mem_nil⟩) fun _ _ _ waits _ => waits
  | cons c rest ih =>
    have first : Live (fun x => held x ∧ x ≠ c) waiting (v.close c) := by
      have closed := live_close (c := c) live fun _ _ waits =>
        absurd waits (settled c List.mem_cons_self)
      exact closed.mono (fun _ holds => holds) fun _ _ _ waits _ => waits.1
    refine (ih first fun x listed => settled x (List.mem_cons_of_mem _ listed)).mono ?_
      fun _ _ _ waits _ => waits
    rintro x ⟨⟨holds, apart⟩, unlisted⟩
    exact ⟨holds, by simp [apart, unlisted]⟩

/-- A new client object. -/
theorem live_made (live : Live held waiting v) {dataset : String} :
    Live held waiting ⟨v.clients ++ [⟨dataset, none, false, false, none, 0⟩], v.threads⟩ := by
  have made : ∀ {x : Nat} {client : McpSchemaSearch},
      (v.clients ++ [⟨dataset, none, false, false, none, 0⟩])[x]? = some client →
      v.clients[x]? = some client ∨ (client.thread = none ∧ client.queue = none) := by
    intro x client found
    rcases Nat.lt_or_ge x v.clients.length with old | new
    · exact .inl (List.getElem?_append_left old ▸ found)
    · rw [List.getElem?_append_right new] at found
      rw [List.mem_singleton.mp (List.mem_of_getElem? found)]
      exact .inr ⟨rfl, rfl⟩
  constructor
  · intro x client q found queue
    rcases made found with old | ⟨-, none_yet⟩
    · exact live.queue x client q old queue
    · rw [none_yet] at queue
      cases queue
  · intro x client t found known
    rcases made found with old | ⟨none_yet, -⟩
    · exact live.current x client t old known
    · rw [none_yet] at known
      cases known
  · intro t thread listed untold
    obtain ⟨client, found, known⟩ := live.untold t thread listed untold
    have bound := (List.getElem?_eq_some_iff.mp found).1
    exact ⟨client, (List.getElem?_append_left bound).trans found, known⟩
  · exact live.told

end servers

/-! ## Every run -/

def clientOf : Main → Option Nat
  | .idle => none
  | .acquiring _ c => some c
  | .starting c _ => some c

/-- The pool has the client, or `acquire` is about to put it there. -/
def held (s : State) (c : Nat) : Prop :=
  c ∈ s.clients.entries.map Prod.snd ∨ clientOf s.main = some c

def waiting (s : State) (c : Nat) : Prop := ∃ dataset, s.main = .starting c dataset

/-- The pool leaves room for the client that `acquire` is about to put there. -/
def Room (maxLive : Nat) (s : State) : Prop :=
  match s.main with
  | .idle => s.clients.entries.length ≤ maxLive
  | .acquiring dataset c => s.clients.get? dataset = none ∧ s.clients.entries.length ≤ maxLive ∧
      ∀ client, s.servers.clients[c]? = some client → client.running = true →
        s.clients.entries.length < maxLive
  | .starting _ dataset => s.clients.entries.length < maxLive ∧
      ∃ name, dataset = some name ∧ s.clients.get? name = none

structure Inv (maxLive : Nat) (s : State) : Prop where
  live : Live (held s) (waiting s) s.servers
  room : Room maxLive s

variable {maxLive : Nat} {s s' : State}

theorem not_waiting_of_idle (main : s.main = .idle) (c : Nat) : ¬waiting s c := by
  rintro ⟨dataset, starting⟩
  rw [main] at starting
  cases starting

theorem not_waiting_of_acquiring {dataset : String} {other : Nat}
    (main : s.main = .acquiring dataset other) (c : Nat) : ¬waiting s c := by
  rintro ⟨name, starting⟩
  rw [main] at starting
  cases starting

theorem inv_initial : Inv maxLive initial := by
  refine ⟨⟨?_, ?_, ?_, ?_⟩, Nat.zero_le _⟩
  · intro c client q found
    cases found
  · intro c client t found
    cases found
  · intro t thread listed
    cases listed
  · intro t thread listed
    cases listed

theorem mem_erase {d : Dictionary String Nat} {name : String} {c : Nat}
    (listed : c ∈ d.entries.map Prod.snd) :
    c ∈ (d.erase name).entries.map Prod.snd ∨ d.get? name = some c := by
  obtain ⟨⟨key, value⟩, present, rfl⟩ := List.mem_map.mp listed
  by_cases same : key = name
  · subst same
    exact .inr (Dictionary.mem_entries_iff.mp present)
  · refine .inl (List.mem_map.mpr ⟨(key, value), List.mem_filter.mpr ⟨present, ?_⟩, rfl⟩)
    simpa using same

theorem length_erase_lt {d : Dictionary String Nat} {name : String} {c : Nat}
    (found : d.get? name = some c) : (d.erase name).entries.length < d.entries.length := by
  have present := Dictionary.mem_entries_iff.mpr found
  refine Nat.lt_of_le_of_ne (List.length_filter_le _ _) ?_
  intro same
  have all := List.length_filter_eq_length_iff.mp same _ present
  simp at all

theorem inv_acquire (inv : Inv maxLive s) (main : s.main = .idle) (dataset : String) :
    Inv maxLive (acquire s dataset) := by
  obtain ⟨live, room⟩ := inv
  have small : s.clients.entries.length ≤ maxLive := by simpa [Room, main] using room
  have idle : ∀ c, held s c → c ∈ s.clients.entries.map Prod.snd := by
    rintro c (listed | waiting)
    · exact listed
    · rw [main] at waiting
      cases waiting
  rw [acquire]
  cases found : s.clients.get? dataset with
  | some c =>
    refine ⟨live.mono ?_ fun x _ _ waits => absurd waits (not_waiting_of_idle main x), ?_⟩
    · intro x holds
      rcases mem_erase (idle x holds) with kept | same
      · exact .inl kept
      · rw [found] at same
        exact .inr same
    · have fewer := length_erase_lt found
      refine ⟨?_, ?_, fun _ _ _ => ?_⟩
      · rw [Dictionary.get?_erase, if_pos rfl]
      · exact Nat.le_of_lt (Nat.lt_of_lt_of_le fewer small)
      · exact Nat.lt_of_lt_of_le fewer small
  | none =>
    dsimp only
    split
    · exact ⟨live, room⟩
    · refine ⟨live_made (live.mono (fun x holds => .inl (idle x holds))
        fun x _ _ waits => absurd waits (not_waiting_of_idle main x)), found, small, ?_⟩
      intro client listed runs
      rw [List.getElem?_concat_length] at listed
      cases listed
      cases runs

theorem inv_evict (inv : Inv maxLive s) {dataset name : String} {client c : Nat}
    {rest : List (String × Nat)} (main : s.main = .acquiring dataset client)
    (first : s.clients.entries = (name, c) :: rest) :
    Inv maxLive { s with servers := s.servers.close c, clients := s.clients.erase name } := by
  obtain ⟨live, room⟩ := inv
  simp only [Room, main] at room
  obtain ⟨fresh, small, -⟩ := room
  have present : s.clients.get? name = some c :=
    Dictionary.mem_entries_iff.mp (first ▸ List.mem_cons_self)
  have fewer := Nat.lt_of_lt_of_le (length_erase_lt present) small
  have unsettled := not_waiting_of_acquiring main
  constructor
  · refine (live_close live fun _ _ waits => absurd waits (unsettled c)).mono ?_
      fun x _ _ waits => absurd waits.1 (unsettled x)
    rintro x ⟨listed | acquired, apart⟩
    · rcases mem_erase listed with kept | same
      · exact .inl kept
      · rw [present] at same
        cases same
        exact absurd rfl apart
    · exact .inr acquired
  · simp only [Room, main]
    refine ⟨?_, Nat.le_of_lt fewer, fun _ _ _ => fewer⟩
    rw [Dictionary.get?_erase, fresh, ite_self]

/-- The client of an `acquire` is put at the end of the pool. -/
theorem inv_store (live : Live (held s) (waiting s) s.servers) {dataset : String} {c : Nat}
    (main : clientOf s.main = some c) (fresh : s.clients.get? dataset = none)
    (room : s.clients.entries.length < maxLive)
    (settled : ∀ x (client : McpSchemaSearch), s.servers.clients[x]? = some client → waiting s x →
      client.ready = true) (starts : Nat) :
    Inv maxLive ⟨s.servers, s.clients.set dataset c, .idle, starts⟩ := by
  have entries := Dictionary.entries_set_of_fresh fresh c
  constructor
  · refine live.mono ?_ ?_
    · rintro x (listed | acquired)
      · refine .inl ?_
        rw [entries, List.map_append]
        exact List.mem_append_left _ listed
      · rw [main] at acquired
        cases acquired
        refine .inl ?_
        rw [entries, List.map_append]
        exact List.mem_append_right _ List.mem_cons_self
    · intro x client found waits unready
      rw [settled x client found waits] at unready
      cases unready
  · show (s.clients.set dataset c).entries.length ≤ maxLive
    rw [entries, List.length_append, List.length_singleton]
    exact room

theorem inv_launch (inv : Inv maxLive s) {dataset : String} {c : Nat} {client : McpSchemaSearch}
    (main : s.main = .acquiring dataset c) (small : s.clients.entries.length < maxLive)
    (found : s.servers.clients[c]? = some client) (stopped : client.thread = none) :
    Inv maxLive (launch s c client (some dataset)) := by
  obtain ⟨live, room⟩ := inv
  simp only [Room, main] at room
  refine ⟨(live_launch live found stopped).mono ?_ ?_, small, dataset, rfl, room.1⟩
  · rintro x ((listed | acquired) | rfl)
    · exact .inl listed
    · rw [main] at acquired
      exact .inr acquired
    · exact .inr rfl
  · rintro x other - (waits | rfl) -
    · exact absurd waits (not_waiting_of_acquiring main x)
    · exact ⟨some dataset, rfl⟩

theorem inv_started (inv : Inv maxLive s) {c : Nat} {client : McpSchemaSearch}
    {dataset : Option String} (main : s.main = .starting c dataset)
    (found : s.servers.clients[c]? = some client) (ready : client.ready = true) :
    Inv maxLive (started s c client dataset) := by
  obtain ⟨live, room⟩ := inv
  simp only [Room, main] at room
  obtain ⟨small, name, rfl, fresh⟩ := room
  have settled : ∀ x (other : McpSchemaSearch), s.servers.clients[x]? = some other →
      waiting s x → other.ready = true := by
    rintro x other listed ⟨dataset, starting⟩
    rw [main] at starting
    cases starting
    rw [found] at listed
    cases listed
    exact ready
  rw [started]
  split
  · refine ⟨(live_close live (settled c)).mono ?_ ?_, Nat.le_of_lt small⟩
    · rintro x ⟨listed | acquired, apart⟩
      · exact .inl listed
      · rw [main] at acquired
        cases acquired
        exact absurd rfl apart
    · rintro x other - ⟨⟨dataset, starting⟩, apart⟩ -
      rw [main] at starting
      cases starting
      exact absurd rfl apart
  · exact inv_store live (by rw [main]; rfl) fresh small settled _

theorem inv_closeAll (inv : Inv maxLive s) (main : s.main = .idle) : Inv maxLive (closeAll s) := by
  have unsettled := not_waiting_of_idle main
  constructor
  · refine (live_closes inv.live fun c _ => unsettled c).mono ?_
      fun x _ _ waits => absurd waits (unsettled x)
    rintro x ⟨listed | acquired, unlisted⟩
    · exact absurd listed unlisted
    · rw [main] at acquired
      cases acquired
  · simp only [Room, closeAll, main]
    exact Nat.zero_le _

theorem inv_moved (inv : Inv maxLive s) {t : Nat} {thread : Thread} {phase : Phase}
    (listed : s.servers.threads[t]? = some thread) (alive : thread.phase ≠ .ended)
    {write : McpSchemaSearch → McpSchemaSearch}
    (kept : ∀ client, (write client).thread = client.thread)
    (queue : ∀ client, (write client).queue = client.queue ∨ (write client).queue = some t)
    (serves : ∀ client, Serves (waiting s) thread.client client t thread →
      Serves (waiting s) thread.client (write client) t { thread with phase := phase }) :
    Inv maxLive (moved s t { thread with phase := phase } write) := by
  have live :
      Live (held s) (waiting s) (s.servers.move t { thread with phase := phase } write) := by
    refine live_move inv.live listed alive ?_ ?_ kept queue serves
    · rfl
    · rfl
  refine ⟨live, ?_⟩
  have runs : ∀ {c : Nat} {client : McpSchemaSearch},
      (s.servers.move t { thread with phase := phase } write).clients[c]? = some client →
      ∃ before, s.servers.clients[c]? = some before ∧ before.thread = client.thread := by
    intro c client found
    rw [Servers.move, List.getElem?_modify] at found
    obtain ⟨before, present, rfl⟩ := Option.map_eq_some_iff.mp found
    refine ⟨before, present, ?_⟩
    dsimp only
    split
    · exact (kept before).symm
    · rfl
  have room := inv.room
  cases main : s.main with
  | idle =>
    simp only [Room, moved, main] at room ⊢
    exact room
  | acquiring dataset c =>
    simp only [Room, moved, main] at room ⊢
    obtain ⟨fresh, small, smaller⟩ := room
    refine ⟨fresh, small, ?_⟩
    intro client found running
    obtain ⟨before, present, same⟩ := runs found
    exact smaller before present (by rw [McpSchemaSearch.running, same]; exact running)
  | starting c dataset =>
    simp only [Room, moved, main] at room ⊢
    exact room

/-- Whoever is settled while it serves is so after it has ended. -/
theorem serves_ended {waiting : Nat → Prop} {c t : Nat} {client : McpSchemaSearch}
    {thread : Thread} (serves : Serves waiting c client t thread) (failed : Bool) :
    Serves waiting c (ceased failed client) t { thread with phase := .ended } := by
  refine ⟨serves.owner, ?_, .inl (.inr rfl)⟩
  rintro (opened | serving)
  · cases opened
  · cases serving

theorem inv_step {a : Act} (inv : Inv maxLive s) (keeps : Keeps s a)
    (h : step maxLive s a = some s') : Inv maxLive s' := by
  cases steps_of_step h with
  | acquire main => exact inv_acquire inv main _
  | evict main first full => exact inv_evict inv main first
  | running main room found runs =>
    have fresh := inv.room
    simp only [Room, main] at fresh
    exact inv_store inv.live (by rw [main]; rfl) fresh.1 room
      (fun x _ _ waits => absurd waits (not_waiting_of_acquiring main x)) s.starts
  | launched main room found stopped => exact inv_launch inv main room found stopped
  | searched => exact inv
  | restarted main found stopped =>
    have running := keeps _ found
    rw [stopped] at running
    cases running
  | started main found ready => exact inv_started inv main found ready
  | timedOut => exact keeps.elim
  | close main => exact inv_closeAll inv main
  | @opens t thread found phase =>
    refine inv_moved inv found (by rw [phase]; decide) (fun _ => rfl) (fun _ => .inr rfl) ?_
    intro client serves
    refine ⟨serves.owner, fun _ => rfl, ?_⟩
    rcases serves.settled with (serving | ended) | waits
    · rw [phase] at serving
      cases serving
    · rw [phase] at ended
      cases ended
    · exact .inr waits
  | @serves t thread found phase =>
    refine inv_moved inv found (by rw [phase]; decide) (fun _ => rfl) (fun _ => .inl rfl) ?_
    intro client serves
    exact ⟨serves.owner, fun _ => serves.queue (.inl phase), .inl (.inl rfl)⟩
  | @fails t thread found phase =>
    refine inv_moved inv found ?_ (fun _ => rfl) (fun _ => .inl rfl)
      fun client serves => serves_ended serves true
    rcases phase with starting | opened
    · rw [starting]
      decide
    · rw [opened]
      decide
  | @finishes t failed thread found phase =>
    exact inv_moved inv found (by rw [phase]; decide) (fun _ => rfl) (fun _ => .inl rfl)
      fun client serves => serves_ended serves failed

theorem inv_run {acts : List Act} (along : Along (step maxLive) Keeps initial acts)
    (reached : run (step maxLive) initial acts = some s) : Inv maxLive s :=
  invariant_along (Inv maxLive) (fun _ _ _ inv keeps h => inv_step inv keeps h) inv_initial
    along reached

/-- The clients of the threads that are alive. -/
def owners (v : Servers) : List Nat :=
  (v.threads.filter fun thread => thread.phase ≠ .ended).map Thread.client

/-- An alive thread is the one its client knows of. -/
theorem known_of_alive (inv : Inv maxLive s) {t : Nat} {thread : Thread}
    (listed : s.servers.threads[t]? = some thread) (alive : thread.phase ≠ .ended) :
    ∃ client, s.servers.clients[thread.client]? = some client ∧ client.thread = some t ∧
      held s thread.client := by
  have untold : thread.told = false := by
    cases told : thread.told with
    | false => rfl
    | true => exact absurd (inv.live.told t thread listed told) alive
  obtain ⟨client, found, known⟩ := inv.live.untold t thread listed untold
  exact ⟨client, found, known, (inv.live.current _ client t found known).1⟩

theorem nodup_owners (inv : Inv maxLive s) : (owners s.servers).Nodup := by
  rw [owners, List.Nodup, List.pairwise_map, List.pairwise_filter, List.pairwise_iff_getElem]
  intro i j hi hj before alive_i alive_j same
  obtain ⟨client, found, known, -⟩ :=
    known_of_alive inv (List.getElem?_eq_getElem hi) (of_decide_eq_true alive_i)
  obtain ⟨client', found', known', -⟩ :=
    known_of_alive inv (List.getElem?_eq_getElem hj) (of_decide_eq_true alive_j)
  rw [same, found'] at found
  cases found
  rw [known'] at known
  cases known
  omega

theorem mem_owners (inv : Inv maxLive s) {c : Nat} (owner : c ∈ owners s.servers) :
    ∃ client, s.servers.clients[c]? = some client ∧ client.running = true ∧ held s c := by
  obtain ⟨thread, alive, rfl⟩ := List.mem_map.mp owner
  obtain ⟨listed, phase⟩ := List.mem_filter.mp alive
  obtain ⟨t, found_thread⟩ := List.mem_iff_getElem?.mp listed
  obtain ⟨client, found, known, holds⟩ :=
    known_of_alive inv found_thread (of_decide_eq_true phase)
  exact ⟨client, found, by rw [McpSchemaSearch.running, known]; rfl, holds⟩

theorem alive_le (inv : Inv maxLive s) : s.servers.alive ≤ maxLive := by
  have bound : ∀ {clients : List Nat}, owners s.servers ⊆ clients →
      s.servers.alive ≤ clients.length := by
    intro clients subset
    have shorter := ((nodup_owners inv).subperm subset).length_le
    rwa [owners, List.length_map, ← List.countP_eq_length_filter] at shorter
  have room := inv.room
  cases main : s.main with
  | idle =>
    simp only [Room, main] at room
    have few : s.servers.alive ≤ (s.clients.entries.map Prod.snd).length := by
      refine bound fun c owner => ?_
      obtain ⟨-, -, -, listed | acquired⟩ := mem_owners inv owner
      · exact listed
      · simp [clientOf, main] at acquired
    rw [List.length_map] at few
    omega
  | acquiring dataset c =>
    simp only [Room, main] at room
    obtain ⟨-, small, smaller⟩ := room
    by_cases runs : ∃ client, s.servers.clients[c]? = some client ∧ client.running = true
    · have few : s.servers.alive ≤ (s.clients.entries.map Prod.snd ++ [c]).length := by
        refine bound fun x owner => ?_
        obtain ⟨-, -, -, listed | acquired⟩ := mem_owners inv owner
        · exact List.mem_append_left _ listed
        · rw [main] at acquired
          cases acquired
          exact List.mem_append_right _ List.mem_cons_self
      obtain ⟨client, found, running⟩ := runs
      have less := smaller client found running
      rw [List.length_append, List.length_map, List.length_singleton] at few
      omega
    · have few : s.servers.alive ≤ (s.clients.entries.map Prod.snd).length := by
        refine bound fun x owner => ?_
        obtain ⟨client, found, running, listed | acquired⟩ := mem_owners inv owner
        · exact listed
        · rw [main] at acquired
          cases acquired
          exact absurd ⟨client, found, running⟩ runs
      rw [List.length_map] at few
      omega
  | starting c dataset =>
    simp only [Room, main] at room
    have few : s.servers.alive ≤ (s.clients.entries.map Prod.snd ++ [c]).length := by
      refine bound fun x owner => ?_
      obtain ⟨-, -, -, listed | acquired⟩ := mem_owners inv owner
      · exact List.mem_append_left _ listed
      · rw [main] at acquired
        cases acquired
        exact List.mem_append_right _ List.mem_cons_self
    rw [List.length_append, List.length_map, List.length_singleton] at few
    omega

/-- Nobody holds a client after `close`. -/
theorem told_closeAll (inv : Inv maxLive s) (main : s.main = .idle) :
    ∀ thread ∈ (closeAll s).servers.threads, thread.told = true := by
  intro thread listed
  obtain ⟨t, found_thread⟩ := List.mem_iff_getElem?.mp listed
  have closed := inv_closeAll inv main
  by_contra told
  obtain ⟨client, found, known⟩ :=
    closed.live.untold t thread found_thread (Bool.eq_false_iff.mpr told)
  rcases (closed.live.current _ client t found known).1 with pooled | acquired
  · cases pooled
  · rw [closeAll, main] at acquired
    cases acquired

/-- While no start times out, at most `maxLive` server trees are alive, and `close`
leaves none that has not been told to stop. -/
theorem pool_bounded {acts : List Act} (along : Along (step maxLive) Keeps initial acts)
    (reached : run (step maxLive) initial acts = some s) :
    s.servers.alive ≤ maxLive ∧ ∀ s', step maxLive s .close = some s' →
      ∀ thread ∈ s'.servers.threads, thread.told = true := by
  have inv := inv_run along reached
  refine ⟨alive_le inv, ?_⟩
  intro s' h
  cases steps_of_step h with
  | close main => exact told_closeAll inv main

/-! ## Two data sets and room for one -/

def inTurn : List Act :=
  [.acquire "alpha", .proceed, .opens 0, .serves 0, .started,
    .acquire "beta", .evict, .proceed, .opens 1, .serves 1, .started]

/-- The second client serves, the first is closed. -/
def second : State :=
  ⟨⟨[⟨"alpha", none, true, false, none, 1⟩, ⟨"beta", some 1, true, false, some 1, 1⟩],
    [⟨0, .ended, true⟩, ⟨1, .serving, false⟩]⟩, Dictionary.ofList [("beta", 1)], .idle, 2⟩

theorem pool_bounded_inTurn :
    second.servers.alive ≤ 1 ∧
      (closeAll second).servers.threads.map Thread.told = [true, true] := by
  have reached : run (step 1) initial inTurn = some second := by rfl
  have along : Along (step 1) Keeps initial inTurn :=
    along_cons rfl trivial (along_cons rfl trivial (along_cons rfl trivial
      (along_cons rfl trivial (along_cons rfl trivial (along_cons rfl trivial
        (along_cons rfl trivial (along_cons rfl trivial (along_cons rfl trivial
          (along_cons rfl trivial (along_cons rfl trivial trivial))))))))))
  obtain ⟨bound, told⟩ := pool_bounded along reached
  refine ⟨bound, ?_⟩
  have first := told (closeAll second) rfl ⟨0, .ended, true⟩ (by decide)
  have last := told (closeAll second) rfl ⟨1, .ended, true⟩ (by decide)
  exact congrArg₂ (fun a b => [a, b]) first last

/-- A start that times out leaves its thread alive beside the next one, and `close`
does not reach it. -/
theorem pool_not_bounded :
    (∃ acts s, run (step 1) initial acts = some s ∧ s.servers.alive = 2) ∧
      ∃ acts s, run (step 1) initial acts = some s ∧ s.main = .idle ∧
        ⟨0, .starting, false⟩ ∈ (closeAll s).servers.threads := by
  constructor
  · exact ⟨[.acquire "alpha", .proceed, .timedOut, .acquire "beta", .proceed], _, rfl, by decide⟩
  · exact ⟨[.acquire "alpha", .proceed, .timedOut], _, rfl, rfl, by decide⟩

end McpPool
