import TextToSqlAgent.Execution.Executor

/-!
# The trail that calls leave

A call of the executor is complete in its trail if it wrote one record and the
record says how the call ended. What escapes the recorded section leaves none:
a limit that cannot be injected, and an exception that is not the driver's.
-/

namespace Audit

open Python Syntax Catalog Settings Exceptions Validator Executor

/-! ## What a record has to say -/

/-- The outcome of a call that ended with an exception. -/
def toldFailure : Raised → String
  | .domain error => if error.cls = .sqlValidationError then "rejected" else "error"
  | .unexpected _ => "error"

/-- The outcome of an `explain` call, and the rows it returned. -/
def toldExplain : Except Raised Unit → String × Option Nat
  | .ok _ => ("explained", none)
  | .error exc => (toldFailure exc, none)

/-- The outcome of an `execute` call, and the rows it returned. -/
def toldExecute {Cell : Type} : Except Raised (QueryResult Cell) → String × Option Nat
  | .ok result => ("success", some result.rows.length)
  | .error exc => (toldFailure exc, none)

/-- One record, which says what happened. -/
def Complete {α : Type} (told : Except Raised α → String × Option Nat) (call : Outcome α) : Prop :=
  ∃ record, call.audit = [record] ∧ (record.outcome, record.rowCount) = told call.result

theorem complete_singleton {α : Type} (told : Except Raised α → String × Option Nat)
    (record : AuditRecord) (result : Except Raised α) :
    Complete told ⟨[record], result⟩ ↔ (record.outcome, record.rowCount) = told result := by
  simp [Complete]

theorem not_complete_nil {α : Type} (told : Except Raised α → String × Option Nat)
    (result : Except Raised α) : ¬Complete told ⟨[], result⟩ := by
  rintro ⟨record, empty, -⟩
  cases empty

/-! ## What escapes -/

variable {Cell : Type} {p : Platform} {db : Database Cell} {settings : ExecutionSettings}
variable {catalog : SchemaCatalog} {sql : String}

/-- The planner is not asked, refuses, or answers with a plan that can be read. -/
def PlannerAnswers (p : Platform) (db : Database Cell) (settings : ExecutionSettings)
    (catalog : SchemaCatalog) (sql : String) : Prop :=
  (validateStatic p catalog sql).valid = true →
    match db.explain (settings.clampTimeoutMs none) (explainPrefix ++ strip sql) with
    | .ok row => (readPlan p row).isSome = true
    | .error (.driver _) => True
    | .error (.other _) => False

/-- The text with its limit can be written, and the database answers it or
refuses it. -/
def RunAnswers (p : Platform) (db : Database Cell) (timeout : Int) (sql : String)
    (maxRows : Int) : Prop :=
  ∃ root, parseOne p sql = some (.expression root) ∧ allowedRoot root.kind = true ∧
    ∀ text, db.query timeout (p.sql (root.limit ((effectiveLimit root maxRows).1 + 1))) ≠
      .error (.other text)

/-- The planner answers; and where the verdict is to run the text, the run does. -/
def Answers (p : Platform) (db : Database Cell) (settings : ExecutionSettings)
    (catalog : SchemaCatalog) (sql : String) (maxRows timeoutMs : Option Int) : Prop :=
  PlannerAnswers p db settings catalog sql ∧
    ∀ validation, validate p db settings catalog sql = .ok validation →
      validation.valid = true →
        RunAnswers p db (settings.clampTimeoutMs timeoutMs) sql (settings.clampRows maxRows)

/-- There is a verdict exactly when the planner answers. -/
theorem validate_ok_iff :
    (∃ validation, validate p db settings catalog sql = .ok validation) ↔
      PlannerAnswers p db settings catalog sql := by
  rw [validate, PlannerAnswers]
  by_cases static : (validateStatic p catalog sql).valid = true
  · simp only [static, if_true, forall_const, explain]
    cases db.explain (settings.clampTimeoutMs none) (explainPrefix ++ strip sql) with
    | error failure => cases failure <;> simp
    | ok row =>
      dsimp only
      rcases readPlan p row with - | ⟨- | cost, summary⟩
      · simp
      · simp
      · simp only [Option.isSome_some, iff_true]
        split
        · exact ⟨_, rfl⟩
        · exact ⟨_, rfl⟩
  · simp [static]

theorem told_rejection {α : Type} (validation : ValidationResult)
    (told : Except Raised α → String × Option Nat)
    (failure : ∀ exc, told (.error exc) = (toldFailure exc, none)) :
    told (.error (.domain (rejection validation))) = ("rejected", none) := by
  rw [failure]
  rfl

/-! ## `explain` -/

theorem explainOnly_complete_iff (caller : Caller) :
    Complete toldExplain (explainOnly p db settings catalog sql caller) ↔
      PlannerAnswers p db settings catalog sql := by
  rw [← validate_ok_iff, explainOnly]
  cases validate p db settings catalog sql with
  | error exc => simp [not_complete_nil]
  | ok validation =>
    simp only [Except.ok.injEq, exists_eq', iff_true]
    split
    · exact (complete_singleton ..).mpr rfl
    · refine (complete_singleton ..).mpr ?_
      exact (told_rejection validation toldExplain fun _ => rfl).symm

/-! ## `execute` -/

/-- The errors that a driver failure becomes are not rejections. -/
theorem translate_not_rejection (exc : DriverError) :
    (Executor.translate exc).cls ≠ .sqlValidationError := by
  unfold Executor.translate
  split <;> simp

theorem runBounded_complete_iff (bounded : Bounded) (cost : Option PyFloat) (timeout : Int)
    (caller : Caller) :
    Complete toldExecute (runBounded db bounded cost timeout caller) ↔
      ∀ text, db.query timeout bounded.sql ≠ .error (.other text) := by
  rw [runBounded]
  cases db.query timeout bounded.sql with
  | ok answer =>
    simp only [ne_eq, reduceCtorEq, not_false_eq_true, implies_true, iff_true]
    exact (complete_singleton ..).mpr rfl
  | error failure =>
    cases failure with
    | other text => simp [not_complete_nil]
    | driver exc =>
      simp only [ne_eq, Except.error.injEq, reduceCtorEq, not_false_eq_true, implies_true,
        iff_true]
      refine (complete_singleton ..).mpr ?_
      simp [toldExecute, toldFailure, translate_not_rejection]

/-- Where the limit cannot be injected, nothing is recorded. -/
theorem limited_complete_iff (maxRows timeout : Int) (cost : Option PyFloat) (caller : Caller) :
    Complete toldExecute
        (match applyRowLimit p sql maxRows with
          | .error error => (⟨[], .error (.domain error)⟩ : Outcome (QueryResult Cell))
          | .ok bounded => runBounded db bounded cost timeout caller) ↔
      RunAnswers p db timeout sql maxRows := by
  rw [applyRowLimit, RunAnswers]
  match parseOne p sql with
  | none => simp [not_complete_nil]
  | some (.expr key) => simp [not_complete_nil]
  | some (.expression root) =>
    by_cases allowed : allowedRoot root.kind = true
    · simp [allowed, runBounded_complete_iff]
    · simp [allowed, not_complete_nil]

theorem execute_complete_iff (maxRows timeoutMs : Option Int) (caller : Caller) :
    Complete toldExecute (execute p db settings catalog sql maxRows timeoutMs caller) ↔
      Answers p db settings catalog sql maxRows timeoutMs := by
  rw [Answers, ← validate_ok_iff, execute]
  cases validate p db settings catalog sql with
  | error exc => simp [not_complete_nil]
  | ok validation =>
    by_cases valid : validation.valid = true
    · simp only [Except.ok.injEq, exists_eq', true_and, forall_eq', valid, forall_const]
      exact limited_complete_iff ..
    · have rejected : validation.valid = false := by simpa using valid
      simp only [Except.ok.injEq, exists_eq', true_and, forall_eq', rejected,
        Bool.false_eq_true, false_implies, iff_true]
      refine (complete_singleton ..).mpr ?_
      exact (told_rejection validation toldExecute fun _ => rfl).symm

private def selectBig : Node :=
  .mk .select [("expressions", .mk .column [("this", .mk (.identifier "big") [])])]

private def bigPlatform : Platform where
  casefold text := String.ofList (text.toList.map Char.toLower)
  closeMatch _ _ := none
  parse text :=
    if strip text = "SELECT big" then .ok [some (.expression selectBig)]
    else if strip text = "; SELECT big" then .ok [none, some (.expression selectBig)]
    else .error ""
  sql _ := "SELECT big LIMIT 501"
  str _ := ""
  float _ := none

/-- Every plan is accepted; the rows hold a number that the driver's loader does
not convert. -/
private def bigNumbers : Database Nat where
  explain _ _ := .ok none
  query _ _ := .error (.other "Exceeds the limit (4300 digits) for integer string conversion")

end Audit
