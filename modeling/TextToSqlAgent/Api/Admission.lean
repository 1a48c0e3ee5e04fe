import TextToSqlAgent.Api.Stream

/-!
# The in-flight cap

One counter bounds the questions in flight, for both response shapes. The
machine here runs any number of calls at once: `answer` takes a slot and gives
it back in its own `finally`, `stream` takes a slot and leaves it to the
`finally` of the generator it returns. A generator that is closed or dropped
before its first step never reaches that `finally`.
-/

namespace Admission

open Runs SseEvent Stream Errors

/-- `_Admission`. -/
structure Slots where
  limit : Nat
  held : Int
  deriving DecidableEq, Repr

/-- Take a slot, or refuse. -/
def Slots.acquire (a : Slots) : Except ApiError Slots :=
  if a.held ≥ a.limit then
    .error ⟨rateLimited, "too many questions in flight; the limit is " ++ toString a.limit⟩
  else .ok { a with held := a.held + 1 }

def Slots.release (a : Slots) : Slots := { a with held := a.held - 1 }

inductive Call (Payload : Type)
  /-- `answer` awaits its work. -/
  | answering
  /-- `answer` has returned or raised. -/
  | answered
  | streaming (stream : StreamState Payload)

/-- An admitted request, and how often its slot has been given back. -/
structure Request (Payload : Type) where
  call : Call Payload
  released : Nat

structure Service (Payload : Type) where
  slots : Slots
  requests : List (Request Payload)

inductive Act (Payload : Type)
  /-- `answer` is called. -/
  | answer
  /-- `stream` is called, for work that will report `script`. -/
  | stream (script : List (ServerSentEvent Payload))
  /-- The work of call `i` of `answer` ends, in whatever way. -/
  | finish (i : Nat)
  /-- The generator of call `i` of `stream`, or its worker, moves. -/
  | move (i : Nat) (m : Move)

variable {Payload : Type}

/-- A call begins with a slot; without one it is refused and leaves no trace. -/
def admission (s : Service Payload) (call : Call Payload) : Service Payload :=
  match s.slots.acquire with
  | .error _ => s
  | .ok slots => ⟨slots, s.requests ++ [⟨call, 0⟩]⟩

def step (s : Service Payload) : Act Payload → Option (Service Payload)
  | .answer => some (admission s .answering)
  | .stream script => some (admission s (.streaming (opened script)))
  | .finish i =>
    match s.requests[i]? with
    | some ⟨.answering, n⟩ => some ⟨s.slots.release, s.requests.set i ⟨.answered, n + 1⟩⟩
    | _ => none
  | .move i m =>
    match s.requests[i]? with
    | some ⟨.streaming stream, n⟩ =>
      (Stream.step stream m).map fun moved =>
        -- The `finally` of the generator gives the slot back as its last act.
        if m = .settle then ⟨s.slots.release, s.requests.set i ⟨.streaming moved, n + 1⟩⟩
        else ⟨s.slots, s.requests.set i ⟨.streaming moved, n⟩⟩
    | _ => none

/-- A service with no request in flight. -/
def idle (limit : Nat) : Service Payload := ⟨⟨limit, 0⟩, []⟩

/-- The request has finished, or its generator is closed or dropped. -/
def Request.finished (r : Request Payload) : Bool :=
  match r.call with
  | .answering => false
  | .answered => true
  | .streaming stream => stream.phase = .finished

/-- The counter tells the requests in flight, and every slot is given back once. -/
structure Sound (s : Service Payload) : Prop where
  held : s.slots.held = s.requests.countP fun r => !r.finished
  low : 0 ≤ s.slots.held
  high : s.slots.held ≤ s.slots.limit
  once : ∀ r ∈ s.requests, r.released = if r.finished then 1 else 0
  drained : (∀ r ∈ s.requests, r.finished = true) → s.slots.held = 0

/-- The step closes or drops no generator of which nothing has run. -/
def KeepsStarted (s : Service Payload) : Act Payload → Prop
  | .move i .close => ∀ stream n, s.requests[i]? = some ⟨.streaming stream, n⟩ →
    stream.phase ≠ .created
  | _ => True

/-! ## What a step can do -/

/-- A request's record is replaced, its slot given back or not. -/
def update (s : Service Payload) (i : Nat) (r : Request Payload) (back : Bool) : Service Payload :=
  ⟨if back then s.slots.release else s.slots, s.requests.set i r⟩

/-- All that an act can do. -/
inductive Steps (s : Service Payload) : Act Payload → Service Payload → Prop
  | answer : Steps s .answer (admission s .answering)
  | stream (script : List (ServerSentEvent Payload)) :
    Steps s (.stream script) (admission s (.streaming (opened script)))
  | finish {i n : Nat} (found : s.requests[i]? = some ⟨.answering, n⟩) :
    Steps s (.finish i) (update s i ⟨.answered, n + 1⟩ true)
  | settle {i n : Nat} {stream moved : StreamState Payload}
    (found : s.requests[i]? = some ⟨.streaming stream, n⟩)
    (step : Stream.step stream .settle = some moved) :
    Steps s (.move i .settle) (update s i ⟨.streaming moved, n + 1⟩ true)
  | move {i n : Nat} {m : Move} {stream moved : StreamState Payload}
    (found : s.requests[i]? = some ⟨.streaming stream, n⟩)
    (step : Stream.step stream m = some moved) (other : m ≠ .settle) :
    Steps s (.move i m) (update s i ⟨.streaming moved, n⟩ false)

theorem steps_of_step {s t : Service Payload} {a : Act Payload} (h : step s a = some t) :
    Steps s a t := by
  cases a with
  | answer => exact Option.some.inj h ▸ .answer
  | stream script => exact Option.some.inj h ▸ .stream script
  | finish i =>
    rw [step] at h
    split at h
    · rename_i found
      exact Option.some.inj h ▸ .finish found
    · cases h
  | move i m =>
    rw [step] at h
    split at h
    · rename_i stream n found
      obtain ⟨moved, hmoved, rfl⟩ := Option.map_eq_some_iff.mp h
      by_cases settles : m = .settle
      · subst settles
        exact .settle found hmoved
      · rw [if_neg settles]
        exact .move found hmoved settles
    · cases h

/-! ## The invariant of any run -/

/-- Over, but with its slot still held. -/
def Request.lost (r : Request Payload) : Bool := r.finished && r.released == 0

structure Inv (s : Service Payload) : Prop where
  counted : s.slots.held =
    s.requests.countP (fun r => !r.finished) + s.requests.countP Request.lost
  high : s.slots.held ≤ s.slots.limit
  once : ∀ r ∈ s.requests, r.released ≤ 1 ∧ (r.finished = false → r.released = 0)

theorem inv_idle (limit : Nat) : Inv (idle limit : Service Payload) where
  counted := rfl
  high := by simp [idle]
  once := by simp [idle]

/-- Counting after one record is replaced. -/
theorem countP_set {α : Type} (p : α → Bool) {l : List α} {i : Nat} {r : α}
    (found : l[i]? = some r) (r' : α) :
    (l.set i r').countP p + (if p r then 1 else 0) = l.countP p + if p r' then 1 else 0 := by
  obtain ⟨bound, rfl⟩ := List.getElem?_eq_some_iff.mp found
  rw [List.countP_set bound]
  by_cases counted : p l[i]
  · have := List.countP_pos_iff.mpr ⟨l[i], List.getElem_mem bound, counted⟩
    rw [if_pos counted]
    omega
  · rw [if_neg counted]
    omega

theorem inv_admission {s : Service Payload} (inv : Inv s) {call : Call Payload}
    (active : Request.finished ⟨call, 0⟩ = false) : Inv (admission s call) := by
  rw [admission, Slots.acquire]
  by_cases full : s.slots.held ≥ s.slots.limit
  · rw [if_pos full]
    exact inv
  · rw [if_neg full]
    have counted := inv.counted
    exact
      { counted := by
          simp only [List.countP_append, List.countP_singleton, active, Request.lost]
          simp only [Bool.not_false, Bool.false_and, Bool.false_eq_true, if_true, if_false]
          omega
        high := by
          simp only
          omega
        once := by
          intro r hr
          rcases List.mem_append.mp hr with old | new
          · exact inv.once r old
          · rw [List.mem_singleton.mp new]
            exact ⟨by simp, fun _ => rfl⟩ }

/-- A request in flight is replaced by one whose slot is given back now or not
at all. -/
theorem inv_update {s : Service Payload} (inv : Inv s) {i : Nat} {r r' : Request Payload}
    (found : s.requests[i]? = some r) (active : r.finished = false) {back : Bool}
    (released : r'.released = if back then 1 else 0) (settled : back = true → r'.finished = true) :
    Inv (update s i r' back) := by
  have holders := countP_set (fun q => !q.finished) found r'
  have losts := countP_set Request.lost found r'
  have before : r.lost = false := by rw [Request.lost, active, Bool.false_and]
  have counted := inv.counted
  have high := inv.high
  simp only [active, before, Bool.not_false, Bool.false_eq_true, if_true, if_false] at holders losts
  cases back with
  | true =>
    have after : r'.lost = false := by simp [Request.lost, released]
    simp only [settled rfl, after, Bool.not_true, Bool.false_eq_true, if_false] at holders losts
    refine ⟨?_, ?_, ?_⟩
    · simp only [update, Slots.release, if_true]
      omega
    · simp only [update, Slots.release, if_true]
      omega
    · intro q hq
      rcases List.mem_or_eq_of_mem_set hq with old | rfl
      · exact inv.once q old
      · exact ⟨by simp [released], fun running => by simp [settled rfl] at running⟩
  | false =>
    have after : r'.lost = r'.finished := by simp [Request.lost, released]
    simp only [after] at losts
    refine ⟨?_, high, ?_⟩
    · simp only [update, Bool.false_eq_true, if_false]
      cases finished : r'.finished with
      | true =>
        simp only [finished, Bool.not_true, Bool.false_eq_true, if_true, if_false] at holders losts
        omega
      | false =>
        simp only [finished, Bool.not_false, Bool.false_eq_true, if_true, if_false] at holders losts
        omega
    · intro q hq
      rcases List.mem_or_eq_of_mem_set hq with old | rfl
      · exact inv.once q old
      · exact ⟨by simp [released], fun _ => by simpa using released⟩

/-- A request whose stream can move is in flight. -/
theorem active_of_step {stream moved : StreamState Payload} {m : Move}
    (h : Stream.step stream m = some moved) (n : Nat) :
    Request.finished (⟨.streaming stream, n⟩ : Request Payload) = false := by
  simpa [Request.finished] using (finished_after h).1

theorem released_of_active {s : Service Payload} (inv : Inv s) {i : Nat} {r : Request Payload}
    (found : s.requests[i]? = some r) (active : r.finished = false) : r.released = 0 :=
  (inv.once r (List.mem_of_getElem? found)).2 active

theorem inv_step {s t : Service Payload} {a : Act Payload} (inv : Inv s)
    (h : step s a = some t) : Inv t := by
  cases steps_of_step h with
  | answer => exact inv_admission inv rfl
  | stream script => exact inv_admission inv rfl
  | finish found =>
    have fresh := released_of_active inv found rfl
    exact inv_update inv found rfl (by simpa using fresh) fun _ => rfl
  | @settle i n stream moved found hmoved =>
    have active := active_of_step hmoved n
    have fresh := released_of_active inv found active
    have ended := (finished_after hmoved).2.mpr (Or.inl rfl)
    exact inv_update inv found active (by simpa using fresh) fun _ => by
      simp [Request.finished, ended]
  | @move i n m stream moved found hmoved other =>
    have active := active_of_step hmoved n
    have fresh := released_of_active inv found active
    exact inv_update inv found active (by simpa using fresh) (by simp)

/-! ## Lost slots -/

/-- How many slots are held by requests that are over. -/
def lostSlots (s : Service Payload) : Nat := s.requests.countP Request.lost

theorem lostSlots_admission (s : Service Payload) {call : Call Payload}
    (active : Request.finished ⟨call, 0⟩ = false) : lostSlots (admission s call) = lostSlots s := by
  rw [admission]
  cases s.slots.acquire with
  | error exc => rfl
  | ok slots => simp [lostSlots, Request.lost, active]

theorem lostSlots_update {s : Service Payload} {i : Nat} {r : Request Payload}
    (found : s.requests[i]? = some r) (active : r.finished = false) (r' : Request Payload)
    (back : Bool) :
    lostSlots (update s i r' back) = lostSlots s + if r'.lost then 1 else 0 := by
  have losts := countP_set Request.lost found r'
  have before : r.lost = false := by rw [Request.lost, active, Bool.false_and]
  simpa [before, lostSlots, update] using losts

/-- A slot is lost by one kind of step only. -/
theorem lostSlots_step {s t : Service Payload} {a : Act Payload} (inv : Inv s)
    (h : step s a = some t) :
    (KeepsStarted s a → lostSlots t = lostSlots s) ∧
      (¬KeepsStarted s a → lostSlots s < lostSlots t) := by
  cases steps_of_step h with
  | answer => exact ⟨fun _ => lostSlots_admission s rfl, fun drops => absurd trivial drops⟩
  | stream script => exact ⟨fun _ => lostSlots_admission s rfl, fun drops => absurd trivial drops⟩
  | finish found =>
    refine ⟨fun _ => ?_, fun drops => absurd trivial drops⟩
    rw [lostSlots_update found rfl]
    simp [Request.lost]
  | settle found moved =>
    refine ⟨fun _ => ?_, fun drops => absurd trivial drops⟩
    rw [lostSlots_update found (active_of_step moved _)]
    simp [Request.lost]
  | @move i n m stream moved found hmoved other =>
    have active := active_of_step hmoved n
    have fresh : n = 0 := released_of_active inv found active
    have gone := (finished_after hmoved).2
    rw [lostSlots_update found active]
    by_cases drops : m = .close ∧ stream.phase = .created
    · have finished : moved.phase = .finished := gone.mpr (Or.inr drops)
      obtain ⟨rfl, created⟩ := drops
      refine ⟨fun keeps => absurd created (keeps stream n found), fun _ => ?_⟩
      simp [Request.lost, Request.finished, finished, fresh]
    · have running : moved.phase ≠ .finished := by
        intro finished
        rcases gone.mp finished with settles | dropped
        · exact other settles
        · exact drops dropped
      refine ⟨fun _ => by simp [Request.lost, Request.finished, running], fun broken => ?_⟩
      refine absurd ?_ broken
      cases m with
      | close =>
        intro stream' n' found'
        rw [found] at found'
        simp only [Option.some.injEq, Request.mk.injEq, Call.streaming.injEq] at found'
        rw [← found'.1]
        exact fun created => drops ⟨rfl, created⟩
      | _ => trivial

/-- Where no slot is lost, and only there, the counter is right. -/
theorem sound_iff {s : Service Payload} (inv : Inv s) : Sound s ↔ lostSlots s = 0 := by
  have counted := inv.counted
  constructor
  · intro sound
    have held := sound.held
    rw [lostSlots]
    omega
  · intro none_lost
    rw [lostSlots] at none_lost
    have held : s.slots.held = s.requests.countP fun r => !r.finished := by omega
    refine ⟨held, by omega, inv.high, ?_, ?_⟩
    · intro r hr
      obtain ⟨most, active⟩ := inv.once r hr
      have kept := List.countP_eq_zero.mp none_lost r hr
      cases finished : r.finished with
      | false => simpa using active finished
      | true =>
        have given : r.released ≠ 0 := by simpa [Request.lost, finished] using kept
        rw [if_pos rfl]
        omega
    · intro all
      have none_active : (s.requests.countP fun r => !r.finished) = 0 := by
        rw [List.countP_eq_zero]
        intro r hr
        simp [all r hr]
      omega

/-- For every limit and every run of the service: the counter is right in the
state reached, and every slot has been given back once, exactly when no step of
the run closed or dropped a generator before its first step. -/
theorem counter_sound_iff (limit : Nat) (acts : List (Act Payload)) (s : Service Payload)
    (reached : run step (idle limit) acts = some s) :
    Sound s ↔ Along step KeepsStarted (idle limit) acts := by
  have inv := invariant Inv (fun _ _ _ => inv_step) (inv_idle limit) reached
  have lost := (count_eq_iff_along Inv (fun _ _ _ => inv_step) lostSlots
    (fun _ _ _ inv h => (lostSlots_step inv h).1) (fun _ _ _ inv h => (lostSlots_step inv h).2)
    (inv_idle limit) reached).2
  have start : lostSlots (idle limit : Service Payload) = 0 := rfl
  rw [sound_iff inv, ← lost, start]

private def droppedActs : List (Act String) := [.stream [], .move 0 .close]

private def endedActs : List (Act String) :=
  [.answer, .stream [], .move 1 .next, .move 1 .close, .finish 0, .move 1 .settle]

/-- With one slot, a stream that is dropped before its first step takes the
slot with it: nobody is in flight and the next call is refused. -/
theorem dropped_stream_keeps_slot :
    ∃ s, run step (idle 1) droppedActs = some s ∧ ¬Sound s ∧
      (∀ r ∈ s.requests, r.finished = true) ∧ s.slots.held = 1 ∧ step s .answer = some s := by
  refine ⟨_, rfl, ?_, by decide, rfl, rfl⟩
  intro sound
  have held := sound.held
  exact absurd held (by decide)

/-- One call of each kind, each to its end. -/
theorem counter_sound_iff_two :
    Sound (⟨⟨2, 0⟩, [⟨.answered, 1⟩, ⟨.streaming ⟨.finished, [], [], []⟩, 1⟩]⟩ : Service String) ↔
      Along step KeepsStarted (idle 2) endedActs :=
  counter_sound_iff 2 endedActs _ rfl

end Admission
