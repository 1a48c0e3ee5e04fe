import TextToSqlAgent.Core.Exceptions
import TextToSqlAgent.Library.Runs

/-!
# An ordered chain of models

`FallbackLLMClient.complete`, any number of calls at once. A call reads the
position when it begins, awaits the clients one after the other, and writes the
position when it returns. Between two awaits nothing else runs.
-/

namespace Fallback

open Exceptions Runs

/-- The models of the chain; an empty one is refused. -/
structure FallbackLLMClient where
  models : List String
  nonempty : models ≠ []

/-- Only this class advances the chain. -/
def isQuota : Raised → Bool
  | .domain e => e.cls.isinstance .llmQuotaExceededError
  | .unexpected _ => false

inductive Phase (Response : Type)
  | awaiting (index : Nat)
  | returned (index : Nat) (response : Response)
  | raised (exc : Raised)

/-- A call: the position it began at, what the clients from there on have
replied, and the models it found exhausted. -/
structure Call (Response : Type) where
  start : Nat
  replies : List (Except Raised Response)
  exhausted : List String
  phase : Phase Response

/-- The position the next call begins at, and the calls so far. -/
structure State (Response : Type) where
  active : Nat
  calls : List (Call Response)

inductive Act (Response : Type)
  | complete
  /-- The client that call `i` awaits has replied. -/
  | reply (i : Nat) (r : Except Raised Response)

variable {Response : Type}

def initial : State Response := ⟨0, []⟩

variable (chain : FallbackLLMClient)

def unavailable (exhausted : List String) : Raised :=
  let names := if exhausted.isEmpty then "none configured" else ", ".intercalate exhausted
  .domain ⟨.llmUnavailableError,
    s!"every model in the fallback chain is rate limited or out of quota: {names}", none, none⟩

/-- The next turn of the loop. -/
def attempt (index : Nat) (exhausted : List String) : Phase Response :=
  if index < chain.models.length then .awaiting index else .raised (unavailable exhausted)

/-- A client has replied to the call that awaits it at `index`. -/
def receive (s : State Response) (i : Nat) (call : Call Response) (index : Nat)
    (r : Except Raised Response) : State Response :=
  let replies := call.replies ++ [r]
  match r with
  | .ok response =>
    ⟨if index ≠ s.active then index else s.active,
      s.calls.set i { call with replies := replies, phase := .returned index response }⟩
  | .error exc =>
    if isQuota exc then
      let exhausted := call.exhausted ++ [chain.models.getD index ""]
      ⟨s.active, s.calls.set i ⟨call.start, replies, exhausted,
        attempt chain (index + 1) exhausted⟩⟩
    else ⟨s.active, s.calls.set i { call with replies := replies, phase := .raised exc }⟩

def step (s : State Response) : Act Response → Option (State Response)
  | .complete => some ⟨s.active, s.calls ++ [⟨s.active, [], [], attempt chain s.active []⟩]⟩
  | .reply i r =>
    match s.calls[i]? with
    | some call =>
      match call.phase with
      | .awaiting index => some (receive chain s i call index r)
      | _ => none
    | none => none

/-! ## What is asked of a run -/

def isExhaustion : Except Raised Response → Bool
  | .ok _ => false
  | .error exc => isQuota exc

/-- Client `c` has reported its quota exhausted to the call. -/
def Call.told (call : Call Response) (c : Nat) : Bool :=
  decide (call.start ≤ c) && (call.replies[c - call.start]?).any isExhaustion

def Call.inFlight (call : Call Response) : Bool :=
  match call.phase with
  | .awaiting _ => true
  | _ => false

/-- The clients are asked in order, from the one the call began at; the first
reply that is no exhaustion settles it, and so does the end of the chain. -/
inductive InOrder (call : Call Response) : Prop
  | awaiting {index : Nat} (phase : call.phase = .awaiting index)
    (position : index = call.start + call.replies.length) (within : index < chain.models.length)
    (spent : ∀ r ∈ call.replies, isExhaustion r = true)
  | returned {index : Nat} {response : Response} {before : List (Except Raised Response)}
    (phase : call.phase = .returned index response)
    (replies : call.replies = before ++ [.ok response])
    (position : index = call.start + before.length) (spent : ∀ r ∈ before, isExhaustion r = true)
  | failed {exc : Raised} {before : List (Except Raised Response)}
    (phase : call.phase = .raised exc) (replies : call.replies = before ++ [.error exc])
    (other : isQuota exc = false) (spent : ∀ r ∈ before, isExhaustion r = true)
  | ended (phase : call.phase = .raised (unavailable call.exhausted))
    (position : call.start + call.replies.length = chain.models.length)
    (spent : ∀ r ∈ call.replies, isExhaustion r = true)

/-- The call after one more reply. -/
def Call.heard (call : Call Response) (r : Except Raised Response) : Call Response :=
  { call with replies := call.replies ++ [r] }

/-- The step overtakes nothing: a call begins only when no call in flight has been
told by the active client, returns from no client before the active one, and does
not end in failure once a client from the active one on has told it. -/
def Keeps (s : State Response) : Act Response → Prop
  | .complete => ∀ call ∈ s.calls, call.inFlight = true → call.told s.active = false
  | .reply i r => ∀ call index, s.calls[i]? = some call → call.phase = .awaiting index →
    match r with
    | .ok _ => s.active ≤ index
    | .error exc => (isQuota exc = true ∧ index + 1 < chain.models.length) ∨
      ∀ c < chain.models.length, s.active ≤ c → (call.heard r).told c = false

/-! ## What a step does -/

/-- All that an act can do. -/
inductive Steps (s : State Response) : Act Response → State Response → Prop
  | complete : Steps s .complete
    ⟨s.active, s.calls ++ [⟨s.active, [], [], attempt chain s.active []⟩]⟩
  | returned {i index : Nat} {call : Call Response} {response : Response}
    (found : s.calls[i]? = some call) (phase : call.phase = .awaiting index) :
    Steps s (.reply i (.ok response)) ⟨index, s.calls.set i
      { call.heard (.ok response) with phase := .returned index response }⟩
  | advanced {i index : Nat} {call : Call Response} {exc : Raised}
    (found : s.calls[i]? = some call) (phase : call.phase = .awaiting index)
    (quota : isQuota exc = true) (exhausted : List String) :
    Steps s (.reply i (.error exc)) ⟨s.active, s.calls.set i
      ⟨call.start, call.replies ++ [.error exc], exhausted, attempt chain (index + 1) exhausted⟩⟩
  | failed {i index : Nat} {call : Call Response} {exc : Raised}
    (found : s.calls[i]? = some call) (phase : call.phase = .awaiting index)
    (other : isQuota exc = false) :
    Steps s (.reply i (.error exc)) ⟨s.active, s.calls.set i
      { call.heard (.error exc) with phase := .raised exc }⟩

variable {chain}

theorem steps_of_step {s t : State Response} {a : Act Response} (h : step chain s a = some t) :
    Steps chain s a t := by
  cases a with
  | complete => exact Option.some.inj h ▸ .complete
  | reply i r =>
    rw [step] at h
    split at h
    · rename_i call found
      split at h
      · rename_i index phase
        cases h
        cases r with
        | ok response =>
          have position : (if index ≠ s.active then index else s.active) = index := by
            split <;> omega
          simp only [receive, position]
          exact .returned found phase
        | error exc =>
          cases quota : isQuota exc with
          | true =>
            simp only [receive, quota, if_true]
            exact .advanced found phase quota _
          | false =>
            simp only [receive, quota, Bool.false_eq_true, if_false]
            exact .failed found phase quota
      · cases h
    · cases h

/-! ## What a call has been told -/

theorem told_heard {call : Call Response} {c : Nat} (told : call.told c = true)
    (r : Except Raised Response) : (call.heard r).told c = true := by
  rw [Call.told, Bool.and_eq_true, decide_eq_true_eq] at told ⊢
  refine ⟨told.1, ?_⟩
  cases found : call.replies[c - call.start]? with
  | none => simp [found] at told
  | some reply =>
    have kept : (call.replies ++ [r])[c - call.start]? = some reply := by
      rw [List.getElem?_append_left (List.getElem?_eq_some_iff.mp found).1, found]
    simpa [Call.heard, kept, found] using told.2

/-- A reply that is no exhaustion tells a call nothing. -/
theorem told_of_heard {call : Call Response} {c : Nat} {r : Except Raised Response}
    (other : isExhaustion r = false) (told : (call.heard r).told c = true) :
    call.told c = true := by
  rw [Call.told, Bool.and_eq_true, decide_eq_true_eq] at told ⊢
  refine ⟨told.1, ?_⟩
  have heard := told.2
  simp only [Call.heard] at heard
  rcases Nat.lt_trichotomy (c - call.start) call.replies.length with below | last | above
  · rwa [List.getElem?_append_left below] at heard
  · rw [last] at heard
    simp [other] at heard
  · rw [List.getElem?_eq_none (by simp; omega)] at heard
    cases heard

/-- What a call has been told is between where it began and the replies it has. -/
theorem lt_of_told {call : Call Response} {c : Nat} (told : call.told c = true) :
    call.start ≤ c ∧ c < call.start + call.replies.length := by
  rw [Call.told, Bool.and_eq_true, decide_eq_true_eq] at told
  refine ⟨told.1, ?_⟩
  cases found : call.replies[c - call.start]? with
  | none => simp [found] at told
  | some reply =>
    have bound := (List.getElem?_eq_some_iff.mp found).1
    omega

/-! ## Every run -/

theorem awaiting_position {call : Call Response} {index : Nat} (order : InOrder chain call)
    (phase : call.phase = .awaiting index) :
    index = call.start + call.replies.length ∧ index < chain.models.length ∧
      ∀ r ∈ call.replies, isExhaustion r = true := by
  cases order with
  | awaiting own position within spent =>
    rw [phase] at own
    cases own
    exact ⟨position, within, spent⟩
  | returned own => simp [phase] at own
  | failed own => simp [phase] at own
  | ended own => simp [phase] at own

/-- The position is one of the chain, and every call keeps to the order. -/
structure Ordered (chain : FallbackLLMClient) (s : State Response) : Prop where
  active : s.active < chain.models.length
  calls : ∀ call ∈ s.calls, InOrder chain call

theorem ordered_initial : Ordered chain (initial : State Response) where
  active := List.length_pos_of_ne_nil chain.nonempty
  calls := nofun

theorem inOrder_of_mem_set {calls : List (Call Response)} {i : Nat} {call : Call Response}
    (order : ∀ other ∈ calls, InOrder chain other) (own : InOrder chain call) :
    ∀ other ∈ calls.set i call, InOrder chain other := by
  intro other listed
  rcases List.mem_or_eq_of_mem_set listed with old | rfl
  · exact order other old
  · exact own

theorem ordered_step {s t : State Response} {a : Act Response} (ordered : Ordered chain s)
    (h : step chain s a = some t) : Ordered chain t := by
  obtain ⟨active, calls⟩ := ordered
  cases steps_of_step h with
  | complete =>
    refine ⟨active, fun call listed => ?_⟩
    rcases List.mem_append.mp listed with old | new
    · exact calls call old
    · rw [List.mem_singleton.mp new]
      exact .awaiting (if_pos active) rfl active nofun
  | returned found phase =>
    obtain ⟨position, within, spent⟩ :=
      awaiting_position (calls _ (List.mem_of_getElem? found)) phase
    exact ⟨within, inOrder_of_mem_set calls (.returned rfl rfl position spent)⟩
  | @advanced i index call exc found phase quota exhausted =>
    obtain ⟨position, within, spent⟩ :=
      awaiting_position (calls _ (List.mem_of_getElem? found)) phase
    have later : ∀ r ∈ call.replies ++ [.error exc], isExhaustion r = true := by
      intro r listed
      rcases List.mem_append.mp listed with old | new
      · exact spent r old
      · rw [List.mem_singleton.mp new]
        exact quota
    refine ⟨active, inOrder_of_mem_set calls ?_⟩
    by_cases more : index + 1 < chain.models.length
    · refine .awaiting (if_pos more) ?_ more later
      simp only [List.length_append, List.length_singleton]
      omega
    · refine .ended (if_neg more) ?_ later
      simp only [List.length_append, List.length_singleton]
      omega
  | failed found phase other =>
    obtain ⟨-, -, spent⟩ := awaiting_position (calls _ (List.mem_of_getElem? found)) phase
    exact ⟨active, inOrder_of_mem_set calls (.failed rfl rfl other spent)⟩

/-! ## Runs that keep the order -/

/-- What any call has been told by a client from the active one on, some call in
flight has been told. -/
def Pending (s : State Response) : Prop :=
  ∀ (i : Nat) (call : Call Response) (c : Nat), s.calls[i]? = some call → s.active ≤ c →
    call.told c = true →
    ∃ (j : Nat) (other : Call Response), s.calls[j]? = some other ∧ other.inFlight = true ∧
      other.told c = true

/-- One call is replaced by a later form of it, which has been told at least as much. -/
theorem pending_set {s : State Response} (pending : Pending s) {i active : Nat}
    {call later : Call Response} (found : s.calls[i]? = some call) (ahead : s.active ≤ active)
    (more : ∀ c, call.told c = true → later.told c = true)
    (settles : ∀ c, active ≤ c → later.told c = true → later.inFlight = true) :
    Pending ⟨active, s.calls.set i later⟩ := by
  have bound := (List.getElem?_eq_some_iff.mp found).1
  have own : (s.calls.set i later)[i]? = some later := List.getElem?_set_self bound
  intro k form c listed low told
  have beyond : active ≤ c := low
  by_cases same : k = i
  · subst same
    rw [own] at listed
    cases listed
    exact ⟨k, later, own, settles c beyond told, told⟩
  · have apart : i ≠ k := fun equal => same equal.symm
    rw [List.getElem?_set_ne apart] at listed
    obtain ⟨j, other, present, flying, knows⟩ := pending k form c listed (by omega) told
    by_cases here : i = j
    · subst here
      rw [found] at present
      cases present
      exact ⟨i, later, own, settles c beyond (more c knows), more c knows⟩
    · exact ⟨j, other, by rw [List.getElem?_set_ne here, present], flying, knows⟩

theorem told_nil {call : Call Response} (fresh : call.replies = []) (c : Nat) :
    call.told c = false := by
  simp [Call.told, fresh]

theorem pending_step {s t : State Response} {a : Act Response} (ordered : Ordered chain s)
    (pending : Pending s) (keeps : Keeps chain s a) (h : step chain s a = some t) : Pending t := by
  cases steps_of_step h with
  | complete =>
    intro k call c listed low told
    rcases Nat.lt_or_ge k s.calls.length with old | new
    · rw [List.getElem?_append_left old] at listed
      obtain ⟨j, other, present, flying, knows⟩ := pending k call c listed low told
      have bound := (List.getElem?_eq_some_iff.mp present).1
      exact ⟨j, other, by rw [List.getElem?_append_left bound, present], flying, knows⟩
    · rw [List.getElem?_append_right new] at listed
      have fresh := List.mem_singleton.mp (List.mem_of_getElem? listed)
      rw [told_nil (by rw [fresh]) c] at told
      cases told
  | @returned i index call response found phase =>
    obtain ⟨position, -, -⟩ :=
      awaiting_position (ordered.calls _ (List.mem_of_getElem? found)) phase
    refine pending_set pending found (keeps call index found phase)
      (fun c told => told_heard told _) ?_
    intro c low told
    have heard : (call.heard (.ok response)).told c = true := told
    have before := lt_of_told (told_of_heard rfl heard)
    omega
  | @advanced i index call exc found phase quota exhausted =>
    refine pending_set pending found (Nat.le_refl _) (fun c told => told_heard told (.error exc)) ?_
    intro c low told
    rcases keeps call index found phase with ⟨-, more⟩ | told_none
    · simp [Call.inFlight, attempt, more]
    · have bound := lt_of_told told
      obtain ⟨position, within, -⟩ :=
        awaiting_position (ordered.calls _ (List.mem_of_getElem? found)) phase
      simp only [List.length_append, List.length_singleton] at bound
      have silent := told_none c (by omega) low
      exact absurd told (by rw [Bool.not_eq_true]; exact silent)
  | @failed i index call exc found phase other =>
    refine pending_set pending found (Nat.le_refl _) (fun c told => told_heard told (.error exc)) ?_
    intro c low told
    rcases keeps call index found phase with ⟨quota, -⟩ | told_none
    · simp [quota] at other
    · have bound := lt_of_told told
      obtain ⟨position, within, -⟩ :=
        awaiting_position (ordered.calls _ (List.mem_of_getElem? found)) phase
      simp only [Call.heard, List.length_append, List.length_singleton] at bound
      have silent := told_none c (by omega) low
      exact absurd told (by rw [Bool.not_eq_true]; exact silent)

theorem active_le_step {s t : State Response} {a : Act Response} (keeps : Keeps chain s a)
    (h : step chain s a = some t) : s.active ≤ t.active := by
  cases steps_of_step h with
  | complete => exact Nat.le_refl _
  | returned found phase => exact keeps _ _ found phase
  | advanced => exact Nat.le_refl _
  | failed => exact Nat.le_refl _

/-- A call stays where it is, began where it began, and forgets nothing. -/
theorem call_step {s t : State Response} {a : Act Response} (h : step chain s a = some t)
    {k : Nat} {call : Call Response} (listed : s.calls[k]? = some call) :
    ∃ later, t.calls[k]? = some later ∧ later.start = call.start ∧
      ∀ c, call.told c = true → later.told c = true := by
  have replaced : ∀ {i : Nat} {own later : Call Response}, s.calls[i]? = some own →
      later.start = own.start → (∀ c, own.told c = true → later.told c = true) →
      ∃ form, (s.calls.set i later)[k]? = some form ∧ form.start = call.start ∧
        ∀ c, call.told c = true → form.told c = true := by
    intro i own later found start more
    have bound := (List.getElem?_eq_some_iff.mp found).1
    by_cases same : i = k
    · subst same
      rw [found] at listed
      cases listed
      exact ⟨later, List.getElem?_set_self bound, start, more⟩
    · exact ⟨call, by rw [List.getElem?_set_ne same, listed], rfl, fun _ told => told⟩
  cases steps_of_step h with
  | complete =>
    have bound := (List.getElem?_eq_some_iff.mp listed).1
    exact ⟨call, by rw [List.getElem?_append_left bound, listed], rfl, fun _ told => told⟩
  | returned found phase => exact replaced found rfl fun _ told => told_heard told _
  | advanced found phase quota exhausted =>
    exact replaced found rfl fun _ told => told_heard told _
  | failed found phase other => exact replaced found rfl fun _ told => told_heard told _

/-- A call that is not among those of before the step has just begun. -/
theorem new_call {s t : State Response} {a : Act Response} (h : step chain s a = some t)
    {k : Nat} {call : Call Response} (listed : t.calls[k]? = some call)
    (new : s.calls.length ≤ k) : a = .complete ∧ call.start = s.active := by
  cases steps_of_step h with
  | complete =>
    rw [List.getElem?_append_right new] at listed
    rw [List.mem_singleton.mp (List.mem_of_getElem? listed)]
    exact ⟨rfl, rfl⟩
  | _ =>
    have bound := (List.getElem?_eq_some_iff.mp listed).1
    simp only [List.length_set] at bound
    omega

/-- Client `c` has told some call, and no call from the `n`-th on began at it. -/
structure Passed (chain : FallbackLLMClient) (n c : Nat) (s : State Response) : Prop where
  ordered : Ordered chain s
  pending : Pending s
  began : n ≤ s.calls.length
  told : ∃ (i : Nat) (call : Call Response), s.calls[i]? = some call ∧ call.told c = true
  avoided : ∀ (i : Nat) (call : Call Response), n ≤ i → s.calls[i]? = some call → call.start ≠ c

theorem passed_step {n c : Nat} {s t : State Response} {a : Act Response}
    (passed : Passed chain n c s) (keeps : Keeps chain s a) (h : step chain s a = some t) :
    Passed chain n c t := by
  obtain ⟨ordered, pending, began, ⟨i, call, listed, told⟩, avoided⟩ := passed
  have longer : ∀ k, k < s.calls.length → k < t.calls.length := by
    intro k bound
    obtain ⟨later, found, -⟩ := call_step h (List.getElem?_eq_getElem bound)
    exact (List.getElem?_eq_some_iff.mp found).1
  constructor
  · exact ordered_step ordered h
  · exact pending_step ordered pending keeps h
  · by_contra short
    have bound := longer t.calls.length (by omega)
    omega
  · obtain ⟨later, found, -, more⟩ := call_step h listed
    exact ⟨i, later, found, more c told⟩
  · intro k later from_n found
    rcases Nat.lt_or_ge k s.calls.length with old | new
    · obtain ⟨form, same, start, -⟩ := call_step h (List.getElem?_eq_getElem old)
      rw [found] at same
      cases same
      rw [start]
      exact avoided k _ from_n (List.getElem?_eq_getElem old)
    · obtain ⟨rfl, start⟩ := new_call h found new
      intro at_c
      -- A call still in flight would have been told by the client it begins at.
      obtain ⟨j, other, present, flying, knows⟩ := pending i call c listed (by omega) told
      have unaware := keeps other (List.mem_of_getElem? present) flying
      rw [show s.active = c by omega, knows] at unaware
      cases unaware

theorem ordered_run {s : State Response} {acts : List (Act Response)}
    (reached : run (step chain) initial acts = some s) : Ordered chain s :=
  invariant (Ordered chain) (fun _ _ _ ordered h => ordered_step ordered h) ordered_initial reached

theorem pending_run {s : State Response} {acts : List (Act Response)}
    (along : Along (step chain) (Keeps chain) initial acts)
    (reached : run (step chain) initial acts = some s) : Pending s := by
  have start : Ordered chain (initial : State Response) ∧ Pending (initial : State Response) := by
    refine ⟨ordered_initial, ?_⟩
    intro i call c listed
    simp [initial] at listed
  have preserved : ∀ (s : State Response) a t, Ordered chain s ∧ Pending s → Keeps chain s a →
      step chain s a = some t → Ordered chain t ∧ Pending t := by
    rintro s a t ⟨ordered, pending⟩ keeps h
    exact ⟨ordered_step ordered h, pending_step ordered pending keeps h⟩
  exact (invariant_along _ preserved start along reached).2

/-- Between any two moments of a run that overtakes nothing the position does not
decrease, and no call begins at a client that had told a call of its exhaustion. -/
theorem order_kept {first rest : List (Act Response)} {s u : State Response}
    (along : Along (step chain) (Keeps chain) initial (first ++ rest))
    (reached : run (step chain) initial first = some s)
    (continued : run (step chain) s rest = some u) :
    s.active ≤ u.active ∧
      (∀ (i c : Nat) (call : Call Response), s.calls[i]? = some call → call.told c = true →
        ∀ (j : Nat) (later : Call Response), s.calls.length ≤ j → u.calls[j]? = some later →
          later.start ≠ c) ∧
      ∀ call ∈ u.calls, InOrder chain call := by
  have onwards := along_append along reached
  refine ⟨?_, ?_, ?_⟩
  · refine invariant_along (fun t => s.active ≤ t.active) ?_ (Nat.le_refl _) onwards continued
    intro v a t ahead keeps h
    exact Nat.le_trans ahead (active_le_step keeps h)
  · intro i c call listed told
    have start : Passed chain s.calls.length c s := by
      refine ⟨ordered_run reached, pending_run (along_first along) reached, Nat.le_refl _,
        ⟨i, call, listed, told⟩, ?_⟩
      intro k later new found
      have bound := (List.getElem?_eq_some_iff.mp found).1
      omega
    exact (invariant_along (Passed chain s.calls.length c)
      (fun _ _ _ passed keeps h => passed_step passed keeps h) start onwards continued).avoided
  · exact (ordered_run (run_append_some.mpr ⟨s, reached, continued⟩)).calls

/-! ## Two models, two calls -/

def pair : FallbackLLMClient := ⟨["a", "b"], by simp⟩

def spent : Except Raised Unit :=
  .error (.domain ⟨.llmQuotaExceededError, "daily cap", none, none⟩)

def moved : Call Unit := ⟨0, [spent, .ok ()], ["a"], .returned 1 ()⟩

def direct : Call Unit := ⟨1, [.ok ()], [], .returned 1 ()⟩

/-- One call is told by the first model, another begins once it has an answer. -/
theorem order_kept_in_turn :
    (⟨1, [moved]⟩ : State Unit).active ≤ (⟨1, [moved, direct]⟩ : State Unit).active ∧
      direct.start ≠ 0 ∧ InOrder pair direct := by
  have told : run (step pair) initial [.complete, .reply 0 spent, .reply 0 (.ok ())] =
      some ⟨1, [moved]⟩ := by rfl
  have later : run (step pair) ⟨1, [moved]⟩ [.complete, .reply 1 (.ok ())] =
      some ⟨1, [moved, direct]⟩ := by rfl
  have along : Along (step pair) (Keeps pair) (initial : State Unit)
      ([.complete, .reply 0 spent, .reply 0 (.ok ())] ++ [.complete, .reply 1 (.ok ())]) := by
    refine along_cons rfl (by simp [Keeps, initial]) (along_cons rfl ?_ (along_cons rfl ?_
      (along_cons rfl ?_ (along_cons rfl ?_ trivial))))
    · rintro call index found phase
      cases found
      cases phase
      exact .inl ⟨rfl, by decide⟩
    · rintro call index found phase
      cases found
      cases phase
      exact Nat.zero_le _
    · intro call listed flying
      cases List.mem_singleton.mp listed
      cases flying
    · rintro call index found phase
      cases found
      cases phase
      exact Nat.le_refl _
  obtain ⟨ahead, avoided, order⟩ := order_kept along told later
  exact ⟨ahead, avoided 0 0 moved rfl rfl 1 direct (Nat.le_refl _) rfl, order direct (by simp)⟩

/-- Of two calls in flight the one told by the first model returns before the other,
whose return then takes the position back to the model that is spent. -/
theorem order_not_kept :
    ∃ (first rest : List (Act Unit)) (s u : State Unit) (call later : Call Unit),
      run (step pair) initial first = some s ∧ run (step pair) s rest = some u ∧
        u.active < s.active ∧ s.calls[0]? = some call ∧ call.told 0 = true ∧
        s.calls.length ≤ 2 ∧ u.calls[2]? = some later ∧ later.start = 0 := by
  refine ⟨[.complete, .complete, .reply 0 spent, .reply 0 (.ok ())],
    [.reply 1 (.ok ()), .complete], _, _, _, _, rfl, rfl, ?_, rfl, ?_, ?_, rfl, rfl⟩ <;> decide

end Fallback
