import TextToSqlAgent.Api.Query
import TextToSqlAgent.Library.Runs

/-!
# A streamed answer, step by step

`QueryService._stream` is a generator that drains a queue; `_produce` is a task
that fills it. Here each is one party of a machine whose moves interleave
freely. The work's events come one at a time, but nothing suspends between the
last of them and the `None` that ends the queue.
-/

namespace Stream

open Runs SseEvent

/-- Where the generator stands. -/
inductive Phase
  /-- Made, but not yet asked for a frame: none of its body has run. -/
  | created
  /-- Suspended at a `yield`. -/
  | yielded
  /-- Suspended in `queue.get()`. -/
  | waiting
  /-- In its `finally`, with the worker cancelled. -/
  | closing
  | finished
  deriving DecidableEq, Repr

structure StreamState (Payload : Type) where
  phase : Phase
  /-- What the worker has yet to put. -/
  pending : List (ServerSentEvent Payload)
  queue : List (Option (ServerSentEvent Payload))
  frames : List (Written Payload)

inductive Move
  /-- The caller asks for the next frame. -/
  | next
  /-- An item has arrived for a waiting generator. -/
  | wake
  /-- A waiting generator times out, and looks whether the client is gone. -/
  | timeout (disconnected : Bool)
  /-- The worker puts its next event. -/
  | put
  /-- The generator is closed, dropped, or cancelled where it is suspended. -/
  | close
  /-- The cancelled worker has ended, and the `finally` with it. -/
  | settle
  deriving DecidableEq, Repr

variable {Payload : Type}

/-- The generator that `stream` returns, for work that will report `script`. -/
def opened (script : List (ServerSentEvent Payload)) : StreamState Payload :=
  ⟨.created, script, [], []⟩

/-- The top of the loop: take the next item, or wait for one. -/
def fetch (s : StreamState Payload) : StreamState Payload :=
  match s.queue with
  | [] => { s with phase := .waiting }
  | none :: rest => { s with phase := .closing, queue := rest }
  | some e :: rest => { s with phase := .yielded, queue := rest, frames := s.frames ++ [.event e] }

/-- The worker puts its next event, and `None` after the last. -/
def putNext (s : StreamState Payload) : Option (StreamState Payload) :=
  match s.pending with
  | [] => none
  | [e] => some { s with pending := [], queue := s.queue ++ [some e, none] }
  | e :: rest => some { s with pending := rest, queue := s.queue ++ [some e] }

def step (s : StreamState Payload) : Move → Option (StreamState Payload)
  | .next => if s.phase = .created ∨ s.phase = .yielded then some (fetch s) else none
  | .wake => if s.phase = .waiting ∧ s.queue ≠ [] then some (fetch s) else none
  | .timeout disconnected =>
    if s.phase = .waiting then
      if disconnected then some { s with phase := .closing }
      else some { s with phase := .yielded, frames := s.frames ++ [.heartbeat] }
    else none
  | .put => if s.phase = .created ∨ s.phase = .finished then none else putNext s
  | .close =>
    match s.phase with
    -- Nothing of the body runs, not even the `finally`.
    | .created => some { s with phase := .finished }
    | .yielded => some { s with phase := .closing }
    | .waiting => some { s with phase := .closing }
    | _ => none
  | .settle => if s.phase = .closing then some { s with phase := .finished } else none

/-- A move of a client that stays connected. -/
def Connected (m : Move) : Prop := m ≠ .close ∧ m ≠ .timeout true

/-- The generator has returned. -/
def StreamState.Ended (s : StreamState Payload) : Prop := s.phase = .closing ∨ s.phase = .finished

/-! ## What a step can do -/

/-- A fetch does one of three things. -/
theorem fetch_cases (s : StreamState Payload) :
    (s.queue = [] ∧ fetch s = { s with phase := .waiting }) ∨
      (∃ rest, s.queue = none :: rest ∧ fetch s = { s with phase := .closing, queue := rest }) ∨
      ∃ e rest, s.queue = some e :: rest ∧
        fetch s =
          { s with phase := .yielded, queue := rest, frames := s.frames ++ [.event e] } := by
  rcases queue : s.queue with _ | ⟨item, rest⟩
  · exact Or.inl ⟨rfl, by rw [fetch, queue]⟩
  · cases item with
    | none => exact Or.inr (Or.inl ⟨rest, rfl, by rw [fetch, queue]⟩)
    | some e => exact Or.inr (Or.inr ⟨e, rest, rfl, by rw [fetch, queue]⟩)

/-- A put adds one event to the queue, and the `None` with the last. -/
theorem putNext_cases {s t : StreamState Payload} (h : putNext s = some t) :
    ∃ e rest, s.pending = e :: rest ∧
      t = { s with
        pending := rest
        queue := s.queue ++ some e :: if rest = [] then [none] else [] } := by
  rw [putNext] at h
  split at h
  · cases h
  · rename_i e pending
    exact ⟨e, [], pending, by simpa using h.symm⟩
  · rename_i e rest more pending
    refine ⟨e, rest, pending, ?_⟩
    have left : rest ≠ [] := fun none => more none
    simpa [left] using h.symm

/-- All that a move can do. -/
inductive Steps (s : StreamState Payload) : Move → StreamState Payload → Prop
  | next (asked : s.phase = .created ∨ s.phase = .yielded) : Steps s .next (fetch s)
  | wake (waiting : s.phase = .waiting) (items : s.queue ≠ []) : Steps s .wake (fetch s)
  | disconnect (waiting : s.phase = .waiting) : Steps s (.timeout true) { s with phase := .closing }
  | heartbeat (waiting : s.phase = .waiting) :
    Steps s (.timeout false) { s with phase := .yielded, frames := s.frames ++ [.heartbeat] }
  | put (running : s.phase ≠ .created ∧ s.phase ≠ .finished) {t : StreamState Payload}
    (put : putNext s = some t) : Steps s .put t
  | abandon (created : s.phase = .created) : Steps s .close { s with phase := .finished }
  | close (suspended : s.phase = .yielded ∨ s.phase = .waiting) :
    Steps s .close { s with phase := .closing }
  | settle (closing : s.phase = .closing) : Steps s .settle { s with phase := .finished }

theorem steps_of_step {s t : StreamState Payload} {m : Move} (h : step s m = some t) :
    Steps s m t := by
  cases m with
  | next =>
    simp only [step, Option.ite_none_right_eq_some, Option.some.injEq] at h
    exact h.2 ▸ .next h.1
  | wake =>
    simp only [step, Option.ite_none_right_eq_some, Option.some.injEq] at h
    exact h.2 ▸ .wake h.1.1 h.1.2
  | timeout disconnected =>
    simp only [step, Option.ite_none_right_eq_some] at h
    cases disconnected with
    | true => exact Option.some.inj h.2 ▸ .disconnect h.1
    | false => exact Option.some.inj h.2 ▸ .heartbeat h.1
  | put =>
    simp only [step, Option.ite_none_left_eq_some, not_or] at h
    exact .put h.1 h.2
  | close =>
    rw [step] at h
    split at h
    · rename_i phase
      exact Option.some.inj h ▸ .abandon phase
    · rename_i phase
      exact Option.some.inj h ▸ .close (Or.inl phase)
    · rename_i phase
      exact Option.some.inj h ▸ .close (Or.inr phase)
    · cases h
  | settle =>
    simp only [step, Option.ite_none_right_eq_some, Option.some.injEq] at h
    exact h.2 ▸ .settle h.1

/-- A stream that moves is not over, and it is over afterwards when its
`finally` has run, or when it is closed before its body has begun. -/
theorem finished_after {s t : StreamState Payload} {m : Move} (h : step s m = some t) :
    s.phase ≠ .finished ∧
      (t.phase = .finished ↔ m = .settle ∨ (m = .close ∧ s.phase = .created)) := by
  have fetched : (fetch s).phase ≠ .finished := by
    rcases fetch_cases s with ⟨-, eq⟩ | ⟨rest, -, eq⟩ | ⟨e, rest, -, eq⟩ <;> simp [eq]
  cases steps_of_step h with
  | next asked => rcases asked with phase | phase <;> simp [phase, fetched]
  | wake waiting items => simp [waiting, fetched]
  | disconnect waiting => simp [waiting]
  | heartbeat waiting => simp [waiting]
  | put running put =>
    obtain ⟨e, rest, -, rfl⟩ := putNext_cases put
    simp [running.2]
  | abandon created => simp [created]
  | close suspended => rcases suspended with phase | phase <;> simp [phase]
  | settle closing => simp [closing]

/-! ## The invariant of a connected stream -/

/-- What has been put but not yielded, without the `None`. -/
def queued (s : StreamState Payload) : List (ServerSentEvent Payload) := s.queue.filterMap id

/-- The `None` stands at the end of the queue once all events have been put. -/
def endMark (pending : List (ServerSentEvent Payload)) : List (Option (ServerSentEvent Payload)) :=
  if pending = [] then [none] else []

structure Inv (script : List (ServerSentEvent Payload)) (s : StreamState Payload) : Prop where
  /-- Every event is in one place: yielded, queued or to come. -/
  kept : eventsOf s.frames ++ (queued s ++ s.pending) = script
  marked : ¬s.Ended → s.queue = (queued s).map some ++ endMark s.pending
  /-- A generator that waits has not yielded the last event. -/
  owed : s.phase = .waiting → queued s ++ s.pending ≠ []
  complete : s.Ended → queued s = [] ∧ s.pending = []
  /-- No frame follows the last event. -/
  last : eventsOf s.frames = script → s.frames.getLast? = script.getLast?.map Written.event

variable {script : List (ServerSentEvent Payload)}

theorem inv_opened (some_event : script ≠ []) : Inv script (opened script) where
  kept := rfl
  marked _ := by simp [opened, queued, endMark, some_event]
  owed h := by cases h
  complete h := by rcases h with h | h <;> cases h
  last h := absurd h.symm some_event

theorem eventsOf_event (frames : List (Written Payload)) (e : ServerSentEvent Payload) :
    eventsOf (frames ++ [.event e]) = eventsOf frames ++ [e] := by
  simp [eventsOf]

theorem eventsOf_heartbeat (frames : List (Written Payload)) :
    eventsOf (frames ++ [.heartbeat]) = eventsOf frames := by
  simp [eventsOf]

theorem not_ended_of_waiting {s : StreamState Payload} (waiting : s.phase = .waiting) :
    ¬s.Ended := by
  rintro (closing | finished)
  · simp [closing] at waiting
  · simp [finished] at waiting

theorem inv_fetch {s : StreamState Payload} (inv : Inv script s) (active : ¬s.Ended) :
    Inv script (fetch s) := by
  have marked := inv.marked active
  rcases fetch_cases s with ⟨empty, eq⟩ | ⟨rest, item, eq⟩ | ⟨e, rest, item, eq⟩ <;> rw [eq]
  · have none_queued : queued s = [] := by simp [queued, empty]
    have more : s.pending ≠ [] := by
      intro none_pending
      simp [empty, none_queued, endMark, none_pending] at marked
    exact
      { kept := inv.kept
        marked := fun _ => marked
        owed := fun _ => by simp [queued, more]
        complete := fun h => by rcases h with h | h <;> cases h
        last := inv.last }
  · rw [item] at marked
    have none_queued : queued s = [] := by
      cases found : queued s with
      | nil => rfl
      | cons e more => simp [found] at marked
    have none_pending : s.pending = [] := by
      by_contra more
      simp [none_queued, endMark, more] at marked
    obtain rfl : rest = [] := by simpa [none_queued, endMark, none_pending] using marked
    have all := inv.kept
    rw [none_queued, none_pending] at all
    exact
      { kept := by rw [none_pending]; exact all
        marked := fun active => absurd (Or.inl rfl) active
        owed := fun h => by cases h
        complete := fun _ => ⟨rfl, none_pending⟩
        last := inv.last }
  · have first : queued s = e :: rest.filterMap id := by simp [queued, item]
    rw [item, first] at marked
    have kept := inv.kept
    rw [first] at kept
    exact
      { kept := by
          rw [eventsOf_event, ← kept]
          simp [queued]
        marked := fun _ => by simpa [queued] using marked
        owed := fun h => by cases h
        complete := fun h => by rcases h with h | h <;> cases h
        last := fun whole => by
          rw [← whole, eventsOf_event]
          simp }

theorem inv_put {s t : StreamState Payload} (inv : Inv script s) (h : putNext s = some t) :
    Inv script t := by
  obtain ⟨e, rest, pending, rfl⟩ := putNext_cases h
  have active : ¬s.Ended := by
    intro ended
    rw [(inv.complete ended).2] at pending
    cases pending
  have grown : queued { s with
      pending := rest, queue := s.queue ++ some e :: if rest = [] then [none] else [] } =
      queued s ++ [e] := by
    by_cases empty : rest = [] <;> simp [queued, empty]
  have marked := inv.marked active
  have kept := inv.kept
  rw [pending] at kept marked
  exact
    { kept := by rw [grown, ← kept]; simp
      marked := fun _ => by
        rw [grown]
        simp [marked, endMark]
      owed := fun _ => by rw [grown]; simp
      complete := fun ended => absurd ended active
      last := inv.last }

theorem inv_heartbeat {s : StreamState Payload} (inv : Inv script s)
    (waiting : s.phase = .waiting) :
    Inv script { s with phase := .yielded, frames := s.frames ++ [.heartbeat] } where
  kept := by rw [eventsOf_heartbeat]; exact inv.kept
  marked _ := inv.marked (not_ended_of_waiting waiting)
  owed h := by cases h
  complete h := by rcases h with h | h <;> cases h
  last whole := by
    have kept := inv.kept
    rw [eventsOf_heartbeat] at whole
    rw [whole] at kept
    exact absurd (List.append_right_eq_self.mp kept) (inv.owed waiting)

theorem inv_settle {s : StreamState Payload} (inv : Inv script s) (closing : s.phase = .closing) :
    Inv script { s with phase := .finished } where
  kept := inv.kept
  marked active := absurd (Or.inr rfl) active
  owed h := by cases h
  complete _ := inv.complete (Or.inl closing)
  last := inv.last

theorem inv_step {s t : StreamState Payload} {m : Move} (inv : Inv script s)
    (connected : Connected m) (h : step s m = some t) : Inv script t := by
  cases steps_of_step h with
  | next asked =>
    refine inv_fetch inv ?_
    rintro (closing | finished)
    · simp [closing] at asked
    · simp [finished] at asked
  | wake waiting items => exact inv_fetch inv (not_ended_of_waiting waiting)
  | disconnect waiting => exact absurd rfl connected.2
  | heartbeat waiting => exact inv_heartbeat inv waiting
  | put running put => exact inv_put inv put
  | abandon created => exact absurd rfl connected.1
  | close suspended => exact absurd rfl connected.1
  | settle closing => exact inv_settle inv closing

theorem inv_run {s t : StreamState Payload} {moves : List Move} (inv : Inv script s)
    (connected : ∀ m ∈ moves, Connected m) (reached : run step s moves = some t) :
    Inv script t := by
  have along : Along step (fun _ m => Connected m) s moves := along_of_forall connected
  exact invariant_along (Inv script) (fun _ _ _ => inv_step) inv along reached

/-! ## Frames, progress and length -/

theorem frames_fetch (s : StreamState Payload) : s.frames <+: (fetch s).frames := by
  rcases fetch_cases s with ⟨-, eq⟩ | ⟨rest, -, eq⟩ | ⟨e, rest, -, eq⟩
  · simp only [eq, List.prefix_rfl]
  · simp only [eq, List.prefix_rfl]
  · simp only [eq, List.prefix_append]

/-- Whatever happens, a frame that was yielded stays yielded. -/
theorem frames_step {s t : StreamState Payload} {m : Move} (h : step s m = some t) :
    s.frames <+: t.frames := by
  cases steps_of_step h with
  | next asked => exact frames_fetch s
  | wake waiting items => exact frames_fetch s
  | disconnect waiting => exact List.prefix_refl _
  | heartbeat waiting => exact List.prefix_append ..
  | put running put =>
    obtain ⟨e, rest, -, rfl⟩ := putNext_cases put
    exact List.prefix_refl _
  | abandon created => exact List.prefix_refl _
  | close suspended => exact List.prefix_refl _
  | settle closing => exact List.prefix_refl _

theorem frames_run {s t : StreamState Payload} {moves : List Move}
    (reached : run step s moves = some t) : s.frames <+: t.frames :=
  invariant (fun u => s.frames <+: u.frames)
    (fun _ _ _ before h => before.trans (frames_step h)) (List.prefix_refl _) reached

/-- Once all events are yielded, no frame follows. -/
theorem frames_final {s t : StreamState Payload} (whole : eventsOf s.frames = script)
    (some_event : script ≠ []) (before : s.frames <+: t.frames) (inv : Inv script t) :
    t.frames = s.frames := by
  obtain ⟨extra, grown⟩ := before
  have split : eventsOf t.frames = script ++ eventsOf extra := by
    rw [← grown, eventsOf, List.filterMap_append]
    exact congrArg (· ++ eventsOf extra) whole
  have kept := inv.kept
  rw [split, List.append_assoc, List.append_right_eq_self] at kept
  have silent : eventsOf extra = [] := (List.append_eq_nil_iff.mp kept).1
  have final := inv.last (by rw [split, silent, List.append_nil])
  rcases extra.eq_nil_or_concat with rfl | ⟨front, frame, rfl⟩
  · rw [← grown, List.append_nil]
  · rw [← grown, List.concat_eq_append, ← List.append_assoc, List.getLast?_concat,
      List.getLast?_eq_some_getLast some_event, Option.map_some, Option.some.injEq] at final
    rw [List.concat_eq_append, final, eventsOf_event] at silent
    simp at silent

def isTimeout : Move → Bool
  | .timeout _ => true
  | _ => false

/-- A connected stream that is not over can always move on without waiting for
a timeout. -/
theorem progress {s : StreamState Payload} (inv : Inv script s) (unfinished : s.phase ≠ .finished) :
    ∃ m t, Connected m ∧ isTimeout m = false ∧ step s m = some t := by
  cases phase : s.phase with
  | created => exact ⟨.next, fetch s, by simp [Connected], rfl, by simp [step, phase]⟩
  | yielded => exact ⟨.next, fetch s, by simp [Connected], rfl, by simp [step, phase]⟩
  | waiting =>
    by_cases empty : s.queue = []
    · have more : s.pending ≠ [] := by simpa [queued, empty] using inv.owed phase
      have puts : ∃ t, putNext s = some t := by
        rw [putNext]
        split
        · contradiction
        · exact ⟨_, rfl⟩
        · exact ⟨_, rfl⟩
      obtain ⟨t, put⟩ := puts
      exact ⟨.put, t, by simp [Connected], rfl, by simp [step, phase, put]⟩
    · exact ⟨.wake, fetch s, by simp [Connected], rfl, by simp [step, phase, empty]⟩
  | closing =>
    exact ⟨.settle, { s with phase := .finished }, by simp [Connected], rfl, by simp [step, phase]⟩
  | finished => exact absurd phase unfinished

/-- What a stream has still to do, apart from waiting. -/
def remaining (s : StreamState Payload) : Nat :=
  let items := s.queue.length + s.pending.length + if s.pending = [] then 0 else 1
  let standing := match s.phase with
    | .created => 3
    | .yielded => 3
    | .waiting => 2
    | .closing => 1
    | .finished => 0
  2 * items + s.pending.length + standing

theorem remaining_fetch (s : StreamState Payload)
    (asked : s.phase = .created ∨ s.phase = .yielded ∨ (s.phase = .waiting ∧ s.queue ≠ [])) :
    remaining (fetch s) + 1 ≤ remaining s := by
  rcases fetch_cases s with ⟨item, eq⟩ | ⟨rest, item, eq⟩ | ⟨e, rest, item, eq⟩ <;> rw [eq]
  · rcases asked with phase | phase | ⟨-, items⟩
    · simp [remaining, phase, item]
    · simp [remaining, phase, item]
    · exact absurd item items
  · rcases asked with phase | phase | ⟨phase, -⟩ <;> simp [remaining, phase, item] <;> omega
  · rcases asked with phase | phase | ⟨phase, -⟩ <;> simp [remaining, phase, item] <;> omega

/-- Every move but a timeout uses up some of it, and a timeout adds one. -/
theorem remaining_step (s : StreamState Payload) (m : Move) (t : StreamState Payload)
    (h : step s m = some t) :
    remaining t + (if !isTimeout m then 1 else 0) ≤
      remaining s + (if isTimeout m then 1 else 0) := by
  cases steps_of_step h with
  | next asked => exact remaining_fetch s (asked.imp_right Or.inl)
  | wake waiting items => exact remaining_fetch s (Or.inr (Or.inr ⟨waiting, items⟩))
  | disconnect waiting => simp [remaining, waiting, isTimeout]
  | heartbeat waiting => simp [remaining, waiting, isTimeout]
  | put running put =>
    obtain ⟨e, rest, pending, rfl⟩ := putNext_cases put
    by_cases empty : rest = []
    · simp only [remaining, pending, isTimeout, empty, List.length_append, List.length_cons,
        List.length_nil, reduceCtorEq, if_false, if_true, Bool.not_false, Bool.false_eq_true]
      omega
    · simp only [remaining, pending, isTimeout, if_neg empty, List.length_append, List.length_cons,
        List.length_nil, reduceCtorEq, if_false, if_true, Bool.not_false, Bool.false_eq_true]
      omega
  | abandon created => simp [remaining, created, isTimeout]
  | close suspended => rcases suspended with phase | phase <;> simp [remaining, phase, isTimeout]
  | settle closing => simp [remaining, closing, isTimeout]

/-! ## The stream of a request -/

open Query

variable {Context Cell : Type} (service : QueryService Context Cell) (request : QueryRequest)
  (requestId : String)

/-- No event the work reports is terminal. -/
theorem answerWork_events {e : Event Cell}
    (reported : e ∈ (answerWork service request requestId).events) : e.terminal = false := by
  have first : ∀ sql : String, ∀ d ∈ [Event.stage "retrieve" "ok"] ++
      [.stage "generate" "ok", (.sql sql 1 : Event Cell)], d.terminal = false := by
    intro sql d hd
    simp only [List.mem_append, List.mem_cons, List.not_mem_nil, or_false] at hd
    rcases hd with rfl | rfl | rfl <;> rfl
  rw [answerWork] at reported
  split at reported
  · cases reported
  · split at reported
    · rw [List.mem_singleton.mp reported]
      rfl
    · rename_i candidate _
      dsimp only at reported
      split at reported
      · rw [explainCandidate] at reported
        split at reported
        · exact first _ e reported
        · rcases List.mem_append.mp reported with old | new
          · exact first _ e old
          · rw [List.mem_singleton.mp new]
            rfl
      · rw [executeCandidate] at reported
        split at reported
        · exact first _ e reported
        · rcases List.mem_append.mp reported with old | new
          · exact first _ e old
          · simp only [List.mem_cons, List.not_mem_nil, or_false] at new
            rcases new with rfl | rfl <;> rfl

theorem terminalEvent_terminal (outcome : Except Errors.Exn (Answer Cell)) :
    (terminalEvent requestId outcome).terminal = true := by
  cases outcome with
  | ok answer => rfl
  | error exc =>
    cases exc with
    | api exc => rfl
    | http status => rfl
    | requestValidation => rfl
    | raised exc =>
      cases exc with
      | unexpected text => rfl
      | domain exc =>
        rw [terminalEvent, failureEvent]
        split <;> rfl

/-- What a request's work will put on the queue. -/
def produced : List (ServerSentEvent (Event Cell)) :=
  (produce service request requestId).map Event.framed

theorem produced_eq : produced service request requestId =
    (answerWork service request requestId).events.map Event.framed ++
      [(terminalEvent requestId (answerWork service request requestId).outcome).framed] := by
  simp [produced, produce]

/-- Frames that hold all events and end in the last one end in the one terminal
event. -/
theorem frames_end {frames : List (Written (Event Cell))}
    (whole : eventsOf frames = produced service request requestId)
    (final : frames.getLast? = (produced service request requestId).getLast?.map Written.event) :
    ∃ front last, frames = front ++ [.event last] ∧ last.data.terminal = true ∧
      ∀ e ∈ eventsOf front, e.data.terminal = false := by
  rw [produced_eq] at whole final
  rw [List.getLast?_concat, Option.map_some, List.getLast?_eq_some_iff] at final
  obtain ⟨front, rfl⟩ := final
  refine ⟨front, _, rfl, terminalEvent_terminal requestId _, ?_⟩
  rw [eventsOf_event, List.append_left_inj] at whole
  intro e he
  rw [whole] at he
  obtain ⟨d, hd, rfl⟩ := List.mem_map.mp he
  exact answerWork_events service request requestId hd

/-- For every outcome of the work and every schedule of timeouts against the
worker, while the client stays connected: the frames without the heartbeats are
the events produced, in order, up to some point; once the generator has
returned they are all of them, the one terminal event is the very last frame,
and no frame follows it. Until it is over the stream can move without waiting
for a timeout, and it does so only so often. -/
theorem stream_yields_produced (moves : List Move) (s : StreamState (Event Cell))
    (connected : ∀ m ∈ moves, Connected m)
    (reached : run step (opened (produced service request requestId)) moves = some s) :
    eventsOf s.frames <+: produced service request requestId ∧
      (s.Ended → eventsOf s.frames = produced service request requestId) ∧
      (eventsOf s.frames = produced service request requestId →
        (∃ front last, s.frames = front ++ [.event last] ∧ last.data.terminal = true ∧
          ∀ e ∈ eventsOf front, e.data.terminal = false) ∧
        ∀ more t, (∀ m ∈ more, Connected m) → run step s more = some t → t.frames = s.frames) ∧
      (s.phase ≠ .finished → ∃ m t, Connected m ∧ isTimeout m = false ∧ step s m = some t) ∧
      moves.countP (fun m => !isTimeout m) ≤
        3 * (produced service request requestId).length + 5 + moves.countP isTimeout := by
  have some_event : produced service request requestId ≠ [] := by simp [produced, produce]
  have inv := inv_run (inv_opened some_event) connected reached
  refine ⟨⟨_, inv.kept⟩, ?_, ?_, progress inv, ?_⟩
  · intro ended
    obtain ⟨none_queued, none_pending⟩ := inv.complete ended
    simpa [none_queued, none_pending] using inv.kept
  · intro whole
    refine ⟨?_, fun more t still later => frames_final whole some_event (frames_run later)
      (inv_run inv still later)⟩
    exact frames_end service request requestId whole (inv.last whole)
  · have bound := paid_steps_le remaining (fun m => !isTimeout m) isTimeout remaining_step reached
    simp only [remaining, opened, some_event, if_false, List.length_nil] at bound
    omega

private def downPlatform : Validator.Platform where
  casefold text := String.ofList (text.toList.map Char.toLower)
  closeMatch _ _ := none
  parse _ := .error ""
  sql _ := ""
  str _ := ""
  float _ := none

/-- A service whose catalog cannot be reached. -/
private def downService : QueryService Unit Nat where
  answerer :=
    { retrieve := fun _ => .error (.raised (.unexpected "connection refused"))
      generate := fun _ _ => .error (.http 500) }
  platform := downPlatform
  database := { explain := fun _ _ => .ok none, query := fun _ _ => .ok ([], []) }
  settings := .default
  catalog := ⟨[]⟩

private def downRequest : QueryRequest where
  question := "how many orders"
  asked := by decide

private def downMoves : List Move :=
  [.next, .timeout false, .next, .put, .wake, .next, .settle]

private def downError : Event Nat :=
  .error "internal_error" "the server could not complete this request" "r"

/-- A heartbeat before the failure of the work, and nothing after it. -/
theorem stream_yields_produced_failure :
    ∃ s, run step (opened (produced downService downRequest "r")) downMoves = some s ∧
      s.frames = [.heartbeat, .event downError.framed] ∧
      eventsOf s.frames = produced downService downRequest "r" :=
  ⟨_, rfl, rfl, (stream_yields_produced downService downRequest "r" downMoves _
    (by simp [Connected, downMoves]) rfl).2.1 (Or.inr rfl)⟩

end Stream
