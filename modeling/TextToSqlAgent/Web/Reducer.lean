import Mathlib.Algebra.Order.Ring.Unbundled.Rat
import TextToSqlAgent.Web.Events

/-!
# What the page knows

`reduce` of the web client: how each action changes the state of the page. Every
event carries the elapsed time at which the browser saw it.
-/

namespace Reducer

open Utf16 Events

inductive Phase
  | idle
  | asking
  | answered
  | failed
  | stopped
  deriving DecidableEq, Repr

inductive MarkKind
  | stage
  | done
  | error
  deriving DecidableEq, Repr

structure Mark where
  kind : MarkKind
  label : JsString
  at_ : Rat
  failed : Bool
  deriving DecidableEq, Repr

structure Failure where
  code : JsString
  message : JsString
  requestId : JsString
  deriving DecidableEq, Repr

structure State where
  phase : Phase
  question : JsString
  marks : List Mark
  sql : Option JsString
  attempts : Rat
  columns : List JsString
  rows : List (List JsValue)
  truncated : Bool
  rowCount : Rat
  executed : Bool
  steps : List QueryStep
  inputTokens : Rat
  outputTokens : Rat
  failure : Option Failure
  settledAt : Rat

def initialState : State where
  phase := .idle
  question := []
  marks := []
  sql := none
  attempts := 0
  columns := []
  rows := []
  truncated := false
  rowCount := 0
  executed := false
  steps := []
  inputTokens := 0
  outputTokens := 0
  failure := none
  settledAt := 0

inductive Action
  | ask (question : JsString)
  | event (event : QueryEvent) (at_ : Rat)
  | stop (at_ : Rat)
  | reset

def applyEvent (state : State) (event : QueryEvent) (at_ : Rat) : State :=
  if state.phase ≠ .asking then state
  else
    let mark (kind : MarkKind) (label : JsString) (failed : Bool) : List Mark :=
      state.marks ++ [⟨kind, label, at_, failed⟩]
    match event with
    | .stage stage status =>
      { state with marks := mark .stage stage (status ≠ js "ok") }
    | .sql sql attempt =>
      { state with sql := some sql, attempts := max state.attempts attempt }
    | .rows columns rows truncated =>
      { state with columns := columns, rows := rows, truncated := truncated }
    | .done rowCount executed steps inputTokens outputTokens =>
      { state with
        phase := .answered
        marks := mark .done (js "done") false
        rowCount := rowCount
        executed := executed
        steps := steps
        inputTokens := inputTokens
        outputTokens := outputTokens
        settledAt := at_ }
    | .error code message requestId =>
      { state with
        phase := .failed
        marks := mark .error (js "failed") true
        failure := some ⟨code, message, requestId⟩
        settledAt := at_ }

def reduce (state : State) : Action → State
  | .ask question => { initialState with phase := .asking, question := question }
  | .stop at_ =>
    if state.phase = .asking then { state with phase := .stopped, settledAt := at_ } else state
  | .reset => initialState
  | .event event at_ => applyEvent state event at_

/-! ## What an action changes -/

/-- Outside the asking phase events are dropped. -/
theorem applyEvent_of_settled {state : State} (settled : state.phase ≠ .asking)
    (event : QueryEvent) (at_ : Rat) : applyEvent state event at_ = state :=
  if_pos settled

/-- While asking, an event leaves the phase as it is, or settles it. -/
theorem phase_applyEvent {state : State} (asking : state.phase = .asking) (event : QueryEvent)
    (at_ : Rat) :
    (event.isTerminal = false ∧ (applyEvent state event at_).phase = .asking) ∨
      (event.isTerminal = true ∧ ((applyEvent state event at_).phase = .answered ∨
        (applyEvent state event at_).phase = .failed)) := by
  cases event <;> simp [applyEvent, asking, QueryEvent.isTerminal]

/-- A mark that a terminal event leaves. -/
def Mark.isTerminal (mark : Mark) : Bool := mark.kind = .done || mark.kind = .error

/-- A settled state has one terminal mark, any other has none, and a failure is
recorded where the phase is failed. -/
structure Consistent (state : State) : Prop where
  marks : state.marks.countP Mark.isTerminal =
    if state.phase = .answered ∨ state.phase = .failed then 1 else 0
  failure : state.failure.isSome = true ↔ state.phase = .failed

theorem consistent_initial : Consistent initialState where
  marks := rfl
  failure := by decide

theorem consistent_applyEvent {state : State} (consistent : Consistent state)
    (event : QueryEvent) (at_ : Rat) : Consistent (applyEvent state event at_) := by
  by_cases asking : state.phase = .asking
  · have none : state.marks.countP Mark.isTerminal = 0 := by
      rw [consistent.marks, asking]
      rfl
    have unfailed : state.failure.isSome = false := by
      rw [Bool.eq_false_iff]
      intro failed
      exact absurd (asking.symm.trans (consistent.failure.mp failed)) (by decide)
    cases event with
    | done | error =>
      constructor <;> simp [applyEvent, asking, none, unfailed, Mark.isTerminal]
    | stage | sql | rows =>
      constructor <;> simp [applyEvent, asking, none, unfailed, Mark.isTerminal]
  · rw [applyEvent_of_settled asking]
    exact consistent

theorem consistent_reduce {state : State} (consistent : Consistent state) (action : Action) :
    Consistent (reduce state action) := by
  cases action with
  | ask question => exact ⟨rfl, by simp [reduce, initialState]⟩
  | reset => exact consistent_initial
  | event event at_ => exact consistent_applyEvent consistent event at_
  | stop at_ =>
    rw [reduce]
    split
    · rename_i asking
      have marks := consistent.marks
      have failure := consistent.failure
      rw [asking] at marks failure
      exact ⟨marks, failure.trans (by simp)⟩
    · exact consistent

/-- A phase that an answer, a failure or a stop has come to. -/
def Phase.isSettled (phase : Phase) : Bool :=
  phase = .answered || phase = .failed || phase = .stopped

/-- Settled is settled, until the next question. -/
theorem reduce_of_settled {state : State} (settled : state.phase.isSettled = true)
    {action : Action} (kept : reduce state action ≠ state) :
    action = .reset ∨ ∃ question, action = .ask question := by
  have still : state.phase ≠ .asking := by
    intro asking
    rw [asking] at settled
    cases settled
  cases action with
  | ask question => exact Or.inr ⟨question, rfl⟩
  | reset => exact Or.inl rfl
  | stop at_ => exact absurd (if_neg still) kept
  | event event at_ => exact absurd (applyEvent_of_settled still event at_) kept

end Reducer
