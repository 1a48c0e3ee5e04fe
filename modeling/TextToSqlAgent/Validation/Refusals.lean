import TextToSqlAgent.Validation.Validator

/-!
# What a refusal says

Whatever stage turns a statement down, it gives one of a few error types, a message, and
no empty name.
-/

namespace Refusals

open Python Syntax Catalog Settings Validator

/-- The error types of the five stages. -/
def refusalTypes : List String :=
  ["syntax_error", "multiple_statements", "not_read_only", "table_not_found",
    "unknown_identifier", "permission_denied", "statement_timeout", "explain_failed",
    "cost_exceeded"]

/-- A refusal has a type and a message, and names nothing empty. -/
def Typed (result : ValidationResult) : Prop :=
  result.valid = false → (∃ type message, result.errorType = some type ∧ type ∈ refusalTypes ∧
    result.message = some message) ∧ result.identifier ≠ some ""

theorem typed_fail {sql : String} {stage : ValidationStage} {type message : String}
    {identifier suggestion : Option String} {cost : Option PyFloat} {plan : Option String}
    {tables : List String} (known : type ∈ refusalTypes) (named : identifier ≠ Option.some "") :
    Typed (fail sql stage type message identifier suggestion cost plan tables) :=
  fun _ => ⟨⟨type, message, rfl, known, rfl⟩, named⟩

theorem typed_unnamed {sql : String} {stage : ValidationStage} {type message : String}
    {suggestion : Option String} {cost : Option PyFloat} {plan : Option String}
    {tables : List String} (known : type ∈ refusalTypes) :
    Typed (fail sql stage type message none suggestion cost plan tables) :=
  typed_fail known nofun

theorem typed_valid {result : ValidationResult} (valid : result.valid = true) : Typed result := by
  intro refused
  rw [valid] at refused
  cases refused

theorem typed_checkReadOnly {sql : String} {root : Node} {failure : ValidationResult}
    (failed : checkReadOnly sql root = some failure) : Typed failure := by
  unfold checkReadOnly at failed
  split at failed
  · cases failed
    exact typed_unnamed (by decide)
  · split at failed
    · rename_i found
      cases failed
      obtain ⟨node, -, here⟩ := List.exists_of_findSome?_eq_some found
      unfold nodeFailure at here
      split_ifs at here
      all_goals
        cases here
        exact typed_unnamed (by decide)
    · split_ifs at failed
      cases failed
      exact typed_unnamed (by decide)

variable {Cell : Type} {p : Platform} {db : Validator.Database Cell} {settings : ExecutionSettings}
  {catalog : SchemaCatalog}

theorem typed_checkIdentifiers {sql : String} {root : Node} {tables : List String}
    (named : ∀ table ∈ tables, table ≠ "") {failure : ValidationResult}
    (failed : checkIdentifiers p catalog sql root tables = some failure) : Typed failure := by
  unfold checkIdentifiers at failed
  split_ifs at failed
  split at failed
  · rename_i found
    cases failed
    obtain ⟨table, listed, here⟩ := List.exists_of_findSome?_eq_some found
    unfold tableFailure at here
    split_ifs at here
    cases here
    exact typed_fail (by decide) fun same => named table listed (Option.some.inj same)
  · dsimp only at failed
    split_ifs at failed
    obtain ⟨column, -, here⟩ := List.exists_of_findSome?_eq_some failed
    unfold columnFailure at here
    dsimp only at here
    split_ifs at here with unnamed
    all_goals
      cases here
      refine typed_fail (by decide) fun same => unnamed (Or.inl (Option.some.inj same))

theorem typed_validateStatic (sql : String) : Typed (validateStatic p catalog sql) := by
  unfold validateStatic
  dsimp only
  split_ifs
  · exact typed_unnamed (by decide)
  · exact typed_unnamed (by decide)
  · split
    · exact typed_unnamed (by decide)
    · split
      · rename_i root _
        unfold checkStatement
        split
        · rename_i failed
          exact typed_checkReadOnly failed
        · dsimp only
          split
          · rename_i failed
            refine typed_checkIdentifiers (fun table listed => ?_) failed
            have named := List.mem_filter.mp (List.mem_eraseDups.mp listed)
            simpa using named.2
          · exact typed_valid rfl
      · exact typed_unnamed (by decide)
      · exact typed_unnamed (by decide)

theorem typed_validate {sql : String} {result : ValidationResult}
    (answered : Validator.validate p db settings catalog sql = .ok result) : Typed result := by
  unfold Validator.validate at answered
  dsimp only at answered
  split_ifs at answered
  · unfold explain at answered
    split at answered
    · obtain rfl := Except.ok.inj answered
      refine typed_unnamed ?_
      cases found : errorTypes.find? fun e => e.1 == _ with
      | none => decide
      | some entry =>
        have listed := List.mem_of_find?_eq_some found
        have all : ∀ entry ∈ errorTypes, entry.2 ∈ refusalTypes := by decide
        exact all entry listed
    · cases answered
    · split at answered
      · cases answered
      · split at answered
        · split_ifs at answered
          · obtain rfl := Except.ok.inj answered
            exact typed_unnamed (by decide)
          · obtain rfl := Except.ok.inj answered
            exact typed_valid rfl
        · obtain rfl := Except.ok.inj answered
          exact typed_valid rfl
  · obtain rfl := Except.ok.inj answered
    exact typed_validateStatic sql

end Refusals
