import TextToSqlAgent.Core.JsonText

/-!
# What verification hands to the evaluation

Each gold query that was executed on both engines has an outcome. A report gives
one entry for every check, usable or not, and the entries of all reports are
written to one file, an object a line.
-/

namespace Verify

open Python JsonText

/-- Why one gold query did or did not confirm the conversion. -/
inductive Outcome
  | matched
  | mismatch
  | goldError
  | transpileError
  | dialectError
  | ambiguousOrder
  | undeterminedLimit
  | postgresError
  deriving DecidableEq, Repr

def Outcome.value : Outcome → String
  | matched => "match"
  | mismatch => "mismatch"
  | goldError => "gold_error"
  | transpileError => "transpile_error"
  | dialectError => "dialect_error"
  | ambiguousOrder => "ambiguous_order"
  | undeterminedLimit => "undetermined_limit"
  | postgresError => "postgres_error"

/-- `COMPARABLE`: the outcomes with a PostgreSQL answer to compare against. -/
def comparable : List Outcome := [.matched, .mismatch, .ambiguousOrder]

/-- One gold query, and its form as PostgreSQL when it got that far. -/
structure QueryCheck where
  questionId : String
  outcome : Outcome
  postgresSql : String := ""
  deriving DecidableEq, Repr

/-- `check.outcome in COMPARABLE`. -/
def QueryCheck.isComparable (check : QueryCheck) : Bool := comparable.contains check.outcome

/-- The checks of one database. -/
structure VerificationReport where
  dbId : String
  schema : String
  checks : List QueryCheck := []

namespace VerificationReport

/-- The members of one entry. -/
def goldMembers (report : VerificationReport) (check : QueryCheck) : List (String × Json) :=
  [("question_id", .str check.questionId), ("db_id", .str report.dbId),
    ("schema", .str report.schema), ("outcome", .str check.outcome.value),
    ("scoreable", .bool check.isComparable), ("sql", .str check.postgresSql)]

/-- Every checked question, as the eval harness needs to receive it. -/
def goldEntries (report : VerificationReport) : List Json :=
  report.checks.map fun check => .obj (report.goldMembers check)

theorem plain_goldMembers (report : VerificationReport) (check : QueryCheck) :
    Plain (.obj (report.goldMembers check)) := by
  constructor
  · simp [goldMembers]
  · simp only [goldMembers, List.forall_mem_cons]
    exact ⟨.str _, .str _, .str _, .str _, .bool _, .str _, nofun⟩

theorem plain_goldEntries (report : VerificationReport) :
    ∀ row ∈ report.goldEntries, Plain row := by
  intro row listed
  obtain ⟨check, -, rfl⟩ := List.mem_map.mp listed
  exact report.plain_goldMembers check

end VerificationReport

section Writing

variable (floatText : Rat → String)

/-- `_write_jsonl`: one object per line. -/
def writeJsonl (rows : List Json) : String :=
  String.join (rows.map fun row => dumps floatText row ++ "\n")

variable {floatText}

/-- What is visible is on one line. -/
theorem unbroken_of_visible {line : List Char} (visible : Visible line) :
    ∀ c ∈ line, isLineBreak c = false := by
  intro c listed
  obtain ⟨low, high⟩ := visible c listed
  simp only [isLineBreak, Bool.or_eq_false_iff, Bool.and_eq_false_iff, decide_eq_false_iff_not,
    beq_eq_false_iff_ne]
  omega

/-- The lines of the file are the rows, whatever texts are in them. -/
theorem splitlines_writeJsonl {rows : List Json} (plain : ∀ row ∈ rows, Plain row) :
    splitlines (writeJsonl floatText rows) = rows.map (dumps floatText) := by
  have unbroken : ∀ line ∈ rows.map (dumps floatText), ∀ c ∈ line.toList,
      isLineBreak c = false := by
    intro line listed
    obtain ⟨row, own, rfl⟩ := List.mem_map.mp listed
    rw [dumps, String.toList_ofList]
    exact unbroken_of_visible (visible_dumpsChars (plain row own))
  have framed := splitlines_joined unbroken
  rw [List.map_map] at framed
  exact framed

end Writing

end Verify
