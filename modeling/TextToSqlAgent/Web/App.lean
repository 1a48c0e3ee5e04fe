import TextToSqlAgent.Library.Runs
import TextToSqlAgent.Web.Reducer

/-!
# The screen

`App` of the web client: the state of the page, the controller in flight, and a
stream for each question asked. A stream is a loop over the events of one answer
that looks at its own controller before it dispatches; its events may arrive in
any order among everything else.
-/

namespace Screen

open Utf16 Events Reducer Runs

/-- The white space that `trim` drops. -/
def isWhiteSpace (unit : UInt16) : Bool :=
  let n := unit.toNat
  (9 ≤ n && n ≤ 13) || n == 32 || n == 0xA0 || n == 0x1680 || (0x2000 ≤ n && n ≤ 0x200A) ||
    n == 0x2028 || n == 0x2029 || n == 0x202F || n == 0x205F || n == 0x3000 || n == 0xFEFF

def trim (s : JsString) : JsString :=
  (((s.dropWhile isWhiteSpace).reverse.dropWhile isWhiteSpace)).reverse

/-- One `onAsk`: whether its controller was aborted, and whether its loop has
returned. -/
structure Stream where
  aborted : Bool
  ended : Bool
  deriving DecidableEq, Repr

structure App where
  state : State
  inFlight : Option Nat
  streams : List Stream

def initial : App := ⟨initialState, none, []⟩

inductive Step
  | ask (draft : JsString)
  | stop (at_ : Rat)
  | reset
  | event (stream : Nat) (event : QueryEvent) (at_ : Rat)
  | finish (stream : Nat)
  | unmount

/-- The streams after `inFlight.current?.abort()`. -/
def abortInFlight (app : App) : List Stream :=
  match app.inFlight with
  | none => app.streams
  | some i => app.streams.modify i fun s => { s with aborted := true }

/-- One thing that happens to the page. A loop that has returned sees no more
events, and does not return again. -/
def step (app : App) : Step → Option App
  | .ask draft =>
    let question := trim draft
    if question = [] then some app
    else
      some {
        state := reduce app.state (.ask question)
        inFlight := some app.streams.length
        streams := abortInFlight app ++ [⟨false, false⟩] }
  | .stop at_ =>
    some ⟨reduce app.state (.stop at_), none, abortInFlight app⟩
  | .reset => some { app with state := reduce app.state .reset }
  | .event i event at_ =>
    match app.streams[i]? with
    | none => none
    | some s =>
      if s.ended then none
      -- A newer question, or Stop: the loop returns without dispatching.
      else if s.aborted then
        some { app with streams := app.streams.set i { s with ended := true } }
      else some { app with state := reduce app.state (.event event at_) }
  | .finish i =>
    match app.streams[i]? with
    | none => none
    | some s =>
      if s.ended then none
      else
        some {
          state := app.state
          inFlight := if app.inFlight = some i then none else app.inFlight
          streams := app.streams.set i { s with ended := true } }
  | .unmount => some { app with streams := abortInFlight app }

/-! ## What a step changes -/

/-- The action that a step may take. -/
def dispatched : Step → Option Action
  | .ask draft => some (.ask (trim draft))
  | .stop at_ => some (.stop at_)
  | .reset => some .reset
  | .event _ event at_ => some (.event event at_)
  | .finish _ => none
  | .unmount => none

/-- An event, of a stream that is not over: its loop returns, or dispatches it. -/
theorem step_event {app next : App} {i : Nat} {event : QueryEvent} {at_ : Rat}
    (stepped : step app (.event i event at_) = some next) :
    ∃ s, app.streams[i]? = some s ∧ s.ended = false ∧
      (s.aborted = true ∧
          next = { app with streams := app.streams.set i { s with ended := true } } ∨
      s.aborted = false ∧ next = { app with state := reduce app.state (.event event at_) }) := by
  cases listed : app.streams[i]? with
  | none => simp [step, listed] at stepped
  | some s =>
    obtain ⟨aborted, ended⟩ := s
    cases ended
    · cases aborted
      · simp only [step, listed] at stepped
        exact ⟨_, rfl, rfl, Or.inr ⟨rfl, (Option.some.inj stepped).symm⟩⟩
      · simp only [step, listed] at stepped
        exact ⟨_, rfl, rfl, Or.inl ⟨rfl, (Option.some.inj stepped).symm⟩⟩
    · simp [step, listed] at stepped

theorem step_finish {app next : App} {i : Nat} (stepped : step app (.finish i) = some next) :
    ∃ s, app.streams[i]? = some s ∧
      next = ⟨app.state, if app.inFlight = some i then none else app.inFlight,
        app.streams.set i { s with ended := true }⟩ := by
  cases listed : app.streams[i]? with
  | none => simp [step, listed] at stepped
  | some s =>
    simp only [step, listed] at stepped
    by_cases ended : s.ended = true
    · rw [if_pos ended] at stepped
      cases stepped
    · rw [if_neg ended] at stepped
      exact ⟨s, rfl, (Option.some.inj stepped).symm⟩

/-- A step takes its action, or none. -/
theorem state_step {app next : App} {a : Step} (stepped : step app a = some next) :
    next.state = app.state ∨
      ∃ action, dispatched a = some action ∧ next.state = reduce app.state action := by
  cases a with
  | ask draft =>
    simp only [step] at stepped
    split at stepped
    · obtain rfl := Option.some.inj stepped
      exact Or.inl rfl
    · obtain rfl := Option.some.inj stepped
      exact Or.inr ⟨_, rfl, rfl⟩
  | stop at_ =>
    obtain rfl := Option.some.inj stepped
    exact Or.inr ⟨_, rfl, rfl⟩
  | reset =>
    obtain rfl := Option.some.inj stepped
    exact Or.inr ⟨_, rfl, rfl⟩
  | event i event at_ =>
    obtain ⟨s, -, -, ⟨-, rfl⟩ | ⟨-, rfl⟩⟩ := step_event stepped
    · exact Or.inl rfl
    · exact Or.inr ⟨_, rfl, rfl⟩
  | finish i =>
    obtain ⟨s, -, rfl⟩ := step_finish stepped
    exact Or.inl rfl
  | unmount =>
    obtain rfl := Option.some.inj stepped
    exact Or.inl rfl

theorem state_ask {app next : App} {draft : JsString} (asked : trim draft ≠ [])
    (stepped : step app (.ask draft) = some next) :
    next.state = { initialState with phase := .asking, question := trim draft } := by
  simp only [step, if_neg asked] at stepped
  obtain rfl := Option.some.inj stepped
  rfl

/-- The events of the stream no longer reach the page. -/
def Silenced (app : App) (i : Nat) : Prop :=
  ∃ s, app.streams[i]? = some s ∧ (s.aborted = true ∨ s.ended = true)

theorem state_of_silenced {app next : App} {i : Nat} (silenced : Silenced app i)
    {event : QueryEvent} {at_ : Rat} (stepped : step app (.event i event at_) = some next) :
    next.state = app.state := by
  obtain ⟨s, listed, quiet⟩ := silenced
  obtain ⟨t, found, open_, ⟨-, rfl⟩ | ⟨loud, -⟩⟩ := step_event stepped
  · rfl
  · obtain rfl := Option.some.inj (listed.symm.trans found)
    rcases quiet with quiet | quiet
    · exact absurd (quiet.symm.trans loud) (by decide)
    · exact absurd (quiet.symm.trans open_) (by decide)

/-- What becomes of a stream when the controller in flight is aborted. -/
theorem getElem?_abortInFlight {app : App} {i : Nat} {s : Stream}
    (listed : app.streams[i]? = some s) :
    (abortInFlight app)[i]? =
      some (if app.inFlight = some i then { s with aborted := true } else s) := by
  cases flight : app.inFlight with
  | none =>
    rw [abortInFlight, flight]
    exact listed
  | some j =>
    rw [abortInFlight, flight]
    dsimp only
    rw [List.getElem?_modify, listed]
    by_cases same : j = i
    · simp [same]
    · simp [same]

/-- No loop starts again, and no abort is taken back. -/
theorem silenced_step {app next : App} {a : Step} {i : Nat} (silenced : Silenced app i)
    (stepped : step app a = some next) : Silenced next i := by
  obtain ⟨s, listed, quiet⟩ := silenced
  have aborted : ∃ t, (abortInFlight app)[i]? = some t ∧ (t.aborted = true ∨ t.ended = true) := by
    refine ⟨_, getElem?_abortInFlight listed, ?_⟩
    split
    · exact Or.inl rfl
    · exact quiet
  have closed : ∀ {j t}, app.streams[j]? = some t →
      ∃ u, (app.streams.set j { t with ended := true })[i]? = some u ∧
        (u.aborted = true ∨ u.ended = true) := by
    intro j t found
    by_cases same : j = i
    · subst same
      have inside : j < app.streams.length := (List.getElem?_eq_some_iff.mp found).1
      exact ⟨_, List.getElem?_set_self inside, Or.inr rfl⟩
    · exact ⟨s, by rw [List.getElem?_set_ne same, listed], quiet⟩
  cases a with
  | ask draft =>
    simp only [step] at stepped
    split at stepped
    · obtain rfl := Option.some.inj stepped
      exact ⟨s, listed, quiet⟩
    · obtain rfl := Option.some.inj stepped
      obtain ⟨t, found, quiet⟩ := aborted
      have inside := (List.getElem?_eq_some_iff.mp found).1
      exact ⟨t, by rw [List.getElem?_append_left inside, found], quiet⟩
  | stop at_ =>
    obtain rfl := Option.some.inj stepped
    exact aborted
  | reset =>
    obtain rfl := Option.some.inj stepped
    exact ⟨s, listed, quiet⟩
  | event j event at_ =>
    obtain ⟨t, found, -, ⟨-, rfl⟩ | ⟨-, rfl⟩⟩ := step_event stepped
    · exact closed found
    · exact ⟨s, listed, quiet⟩
  | finish j =>
    obtain ⟨t, found, rfl⟩ := step_finish stepped
    exact closed found
  | unmount =>
    obtain rfl := Option.some.inj stepped
    exact aborted

/-! ## Runs -/

/-- Only the stream in flight can reach the page, and the state is one that the
reducer's actions lead to. -/
structure Sound (app : App) : Prop where
  consistent : Consistent app.state
  quiet : ∀ i < app.streams.length, app.inFlight = some i ∨ Silenced app i

theorem sound_initial : Sound initial where
  consistent := consistent_initial
  quiet := by
    intro i inside
    exact absurd inside (Nat.not_lt_zero i)

/-- A new question and Stop silence every stream there is. -/
def Supersedes : Step → Prop
  | .ask draft => trim draft ≠ []
  | .stop _ => True
  | _ => False

theorem length_abortInFlight (app : App) : (abortInFlight app).length = app.streams.length := by
  rw [abortInFlight]
  cases app.inFlight with
  | none => rfl
  | some i => exact List.length_modify _ _ _

theorem silenced_abortInFlight {app : App} (sound : Sound app) {i : Nat}
    (inside : i < app.streams.length) :
    ∃ t, (abortInFlight app)[i]? = some t ∧ (t.aborted = true ∨ t.ended = true) := by
  rcases sound.quiet i inside with flight | ⟨s, listed, quiet⟩
  · refine ⟨_, getElem?_abortInFlight (List.getElem?_eq_getElem inside), ?_⟩
    rw [if_pos flight]
    exact Or.inl rfl
  · refine ⟨_, getElem?_abortInFlight listed, ?_⟩
    split
    · exact Or.inl rfl
    · exact quiet

theorem silenced_of_supersedes {app next : App} (sound : Sound app) {a : Step}
    (supersedes : Supersedes a) (stepped : step app a = some next) {i : Nat}
    (inside : i < app.streams.length) : Silenced next i := by
  obtain ⟨t, found, quiet⟩ := silenced_abortInFlight sound inside
  cases a with
  | ask draft =>
    have asked : trim draft ≠ [] := supersedes
    simp only [step, if_neg asked] at stepped
    obtain rfl := Option.some.inj stepped
    have within := (List.getElem?_eq_some_iff.mp found).1
    exact ⟨t, by rw [List.getElem?_append_left within, found], quiet⟩
  | stop at_ =>
    obtain rfl := Option.some.inj stepped
    exact ⟨t, found, quiet⟩
  | reset | event | finish | unmount => cases supersedes

theorem sound_step {app next : App} {a : Step} (sound : Sound app)
    (stepped : step app a = some next) : Sound next := by
  have consistent : Consistent next.state := by
    rcases state_step stepped with same | ⟨action, -, reduced⟩
    · rw [same]
      exact sound.consistent
    · rw [reduced]
      exact consistent_reduce sound.consistent action
  refine ⟨consistent, fun i inside => ?_⟩
  -- Of the streams that were there before, only the one in flight needs a look.
  have earlier : i < app.streams.length → (app.inFlight = some i →
      next.inFlight = some i ∨ Silenced next i) → next.inFlight = some i ∨ Silenced next i := by
    intro before ofFlight
    rcases sound.quiet i before with flight | silenced
    · exact ofFlight flight
    · exact Or.inr (silenced_step silenced stepped)
  cases a with
  | ask draft =>
    by_cases blank : trim draft = []
    · simp only [step, if_pos blank] at stepped
      obtain rfl := Option.some.inj stepped
      exact sound.quiet i inside
    · by_cases before : i < app.streams.length
      · exact Or.inr (silenced_of_supersedes (a := .ask draft) sound blank stepped before)
      · simp only [step, if_neg blank] at stepped
        obtain rfl := Option.some.inj stepped
        rw [List.length_append, length_abortInFlight, List.length_singleton] at inside
        have newest : i = app.streams.length := by omega
        exact Or.inl (congrArg some newest.symm)
  | stop at_ =>
    have kept := Option.some.inj stepped
    subst kept
    rw [length_abortInFlight] at inside
    exact Or.inr (silenced_of_supersedes (a := .stop at_) sound trivial stepped inside)
  | reset =>
    obtain rfl := Option.some.inj stepped
    exact earlier inside Or.inl
  | event j event at_ =>
    obtain ⟨t, found, -, ⟨-, rfl⟩ | ⟨-, rfl⟩⟩ := step_event stepped
    · rw [List.length_set] at inside
      exact earlier inside Or.inl
    · exact earlier inside Or.inl
  | finish j =>
    obtain ⟨t, found, rfl⟩ := step_finish stepped
    rw [List.length_set] at inside
    refine earlier inside fun flight => ?_
    by_cases same : j = i
    · subst same
      exact Or.inr ⟨_, List.getElem?_set_self inside, Or.inr rfl⟩
    · refine Or.inl ?_
      have other : app.inFlight ≠ some j := by
        rw [flight]
        exact fun equal => same (Option.some.inj equal).symm
      rw [if_neg other, flight]
  | unmount =>
    obtain rfl := Option.some.inj stepped
    rw [length_abortInFlight] at inside
    exact earlier inside Or.inl

theorem sound_run {app next : App} {steps : List Step} (sound : Sound app)
    (reached : run step app steps = some next) : Sound next :=
  Runs.invariant Sound (fun _ _ _ soundHere stepped => sound_step soundHere stepped) sound reached

theorem silenced_run {app next : App} {steps : List Step} {i : Nat} (silenced : Silenced app i)
    (reached : run step app steps = some next) : Silenced next i :=
  Runs.invariant (Silenced · i) (fun _ _ _ here stepped => silenced_step here stepped) silenced
    reached

/-- What is known of the page after a run. -/
structure AnswerState (steps : List Step) (app : App) : Prop where
  aborted : ∀ i s event at_ next, app.streams[i]? = some s → s.aborted = true →
    step app (.event i event at_) = some next → next.state = app.state
  superseded : ∀ before a after, steps = before ++ a :: after → Supersedes a →
    ∀ mid, run step initial before = some mid → ∀ i < mid.streams.length,
      ∀ event at_ next, step app (.event i event at_) = some next → next.state = app.state
  settled : app.state.phase.isSettled = true → ∀ a next, step app a = some next →
    next.state ≠ app.state → a = .reset ∨ ∃ draft, a = .ask draft
  terminal : app.state.marks.countP Mark.isTerminal ≤ 1
  failure : app.state.failure.isSome = true ↔ app.state.phase = .failed
  fresh : ∀ draft next, trim draft ≠ [] → step app (.ask draft) = some next →
    next.state = { initialState with phase := .asking, question := trim draft }

/-- For every run of the page. -/
theorem answer_state {steps : List Step} {app : App} (reached : run step initial steps = some app) :
    AnswerState steps app where
  aborted := by
    intro i s event at_ next listed aborted stepped
    exact state_of_silenced ⟨s, listed, Or.inl aborted⟩ stepped
  superseded := by
    intro before a after split supersedes mid begun i inside event at_ next stepped
    rw [split, run_append_some] at reached
    obtain ⟨same, begunToo, rest⟩ := reached
    obtain rfl := Option.some.inj (begun.symm.trans begunToo)
    obtain ⟨t, changed, later⟩ := run_cons_some.mp rest
    have silenced :=
      silenced_of_supersedes (sound_run sound_initial begun) supersedes changed inside
    exact state_of_silenced (silenced_run silenced later) stepped
  settled := by
    intro settled a next stepped changed
    rcases state_step stepped with same | ⟨action, taken, reduced⟩
    · exact absurd same changed
    · rw [reduced] at changed
      rcases reduce_of_settled settled changed with rfl | ⟨question, rfl⟩
      · cases a with
        | reset => exact Or.inl rfl
        | _ => cases taken
      · cases a with
        | ask draft => exact Or.inr ⟨draft, rfl⟩
        | _ => cases taken
  terminal := by
    rw [(sound_run sound_initial reached).consistent.marks]
    split <;> omega
  failure := (sound_run sound_initial reached).consistent.failure
  fresh := fun draft next asked stepped => state_ask asked stepped

/-- A second question is asked before the first one's error arrives. -/
theorem answer_state_two_questions :
    ∃ app, run step initial [.ask (js " a "), .ask (js "b"),
        .event 0 (.error (js "e") (js "late") []) 5] = some app ∧
      app.state.question = js "b" ∧ app.state.failure = none ∧
      AnswerState [.ask (js " a "), .ask (js "b"),
        .event 0 (.error (js "e") (js "late") []) 5] app :=
  ⟨_, rfl, rfl, rfl, answer_state rfl⟩

end Screen
