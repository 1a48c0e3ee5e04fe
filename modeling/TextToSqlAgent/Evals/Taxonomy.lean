import TextToSqlAgent.Evals.Comparison
import TextToSqlAgent.Evals.Recall

/-!
# Why a question failed

One category a question, the earliest cause first.
-/

namespace Taxonomy

open Python Compare Recall

inductive FailureCategory
  | none
  | retrievalMiss
  | unknownIdentifier
  | syntaxUnrecoverable
  | notReadOnly
  | timeout
  | rowOrder
  | wrongShape
  | wrongValues
  | goldError
  | unanswerable
  | executionFailed
  | infrastructure
  | uncategorised
  deriving DecidableEq, Repr

def FailureCategory.value : FailureCategory → String
  | none => "none"
  | retrievalMiss => "retrieval_miss"
  | unknownIdentifier => "unknown_identifier"
  | syntaxUnrecoverable => "syntax_unrecoverable"
  | notReadOnly => "not_read_only"
  | timeout => "timeout"
  | rowOrder => "row_order"
  | wrongShape => "wrong_shape"
  | wrongValues => "wrong_values"
  | goldError => "gold_error"
  | unanswerable => "unanswerable"
  | executionFailed => "execution_failed"
  | infrastructure => "infrastructure"
  | uncategorised => "uncategorised"

/-- Every error type any component produces, mapped to a cause. -/
def fromErrorType : List (String × FailureCategory) :=
  [("unknown_identifier", .unknownIdentifier), ("syntax_error", .syntaxUnrecoverable),
    ("multiple_statements", .syntaxUnrecoverable), ("explain_failed", .syntaxUnrecoverable),
    ("not_read_only", .notReadOnly), ("statement_timeout", .timeout),
    ("permission_denied", .notReadOnly), ("table_not_found", .unknownIdentifier),
    ("cost_exceeded", .timeout), ("execution_failed", .executionFailed),
    ("llm_failed", .infrastructure), ("scope_unavailable", .infrastructure),
    ("retrieval_failed", .infrastructure), ("internal_error", .infrastructure)]

/-- Error types meaning the system under test never got to answer. -/
def infrastructureTypes : List String :=
  ["llm_failed", "scope_unavailable", "retrieval_failed", "internal_error"]

def fromVerdict : Verdict → Option FailureCategory
  | .orderMismatch => some .rowOrder
  | .shapeMismatch => some .wrongShape
  | .valueMismatch => some .wrongValues
  | .noColumnBijection => some .wrongValues
  | .matched => Option.none

/-- Whether this failure means the system under test was never asked. -/
def isInfrastructure (errorType : Option String) : Bool :=
  match errorType with
  | Option.none => false
  | some e => infrastructureTypes.contains e

/-- The two tables agree on what is infrastructure. -/
theorem infrastructure_agrees :
    infrastructureTypes = (fromErrorType.filter fun e => e.2 = .infrastructure).map Prod.fst := by
  decide

/-- Whether retrieval was measured, and at its best fell short of the floor. -/
def fellShort (recalled : Option RecallResult) (recallFloor : Rat) : Bool :=
  match recalled with
  | Option.none => false
  | some r =>
    !r.skipped && match r.atK with
      | [] => false
      | best :: rest => (rest.map Prod.snd).foldl max best.2 < recallFloor

def classify (comparison : Option Comparison) (recalled : Option RecallResult)
    (errorType : Option String) (goldFailed : Bool) (recallFloor : Rat := 1) : FailureCategory :=
  if goldFailed then .goldError
  else if isInfrastructure errorType then .infrastructure
  else if errorType = some "unanswerable" then .unanswerable
  else if fellShort recalled recallFloor then .retrievalMiss
  else
    match errorType with
    | some e =>
      if e ≠ "" then
        ((fromErrorType.find? fun entry => entry.1 == e).map Prod.snd).getD .uncategorised
      else ofComparison
    | Option.none => ofComparison
where
  ofComparison : FailureCategory :=
    match comparison with
    | Option.none => .uncategorised
    | some c => if c.matched then .none else (fromVerdict c.verdict).getD .uncategorised

/-! ## Reading categories back -/

/-- The members in the order of their definition. -/
def FailureCategory.all : List FailureCategory :=
  [none, retrievalMiss, unknownIdentifier, syntaxUnrecoverable, notReadOnly, timeout, rowOrder,
    wrongShape, wrongValues, goldError, unanswerable, executionFailed, infrastructure,
    uncategorised]

/-- A category read back from an artifact; anything unfamiliar is tolerated. -/
def parseCategory : Json → FailureCategory
  | .str s => (FailureCategory.all.find? fun c => c.value == s).getD .uncategorised
  | _ => .uncategorised

theorem parseCategory_value (c : FailureCategory) : parseCategory (.str c.value) = c := by
  cases c <;> decide

theorem FailureCategory.value_injective {c d : FailureCategory} (same : c.value = d.value) :
    c = d := by
  rw [← parseCategory_value c, same, parseCategory_value]

/-- `tally[name] += 1`. -/
def increment (tally : List (String × Nat)) (name : String) : List (String × Nat) :=
  tally.map fun entry => if entry.1 = name then (entry.1, entry.2 + 1) else entry

/-- Category counts, with every category present even at zero. -/
def counts (categories : List FailureCategory) : List (String × Nat) :=
  categories.foldl (fun tally c => increment tally c.value)
    (FailureCategory.all.map fun c => (c.value, 0))

theorem counts_eq (categories : List FailureCategory) :
    counts categories = FailureCategory.all.map fun c => (c.value, categories.count c) := by
  have tallied : ∀ start : FailureCategory → Nat,
      categories.foldl (fun tally c => increment tally c.value)
          (FailureCategory.all.map fun c => (c.value, start c)) =
        FailureCategory.all.map fun c => (c.value, start c + categories.count c) := by
    induction categories with
    | nil => simp
    | cons first rest ih =>
      intro start
      have once : increment (FailureCategory.all.map fun c => (c.value, start c)) first.value =
          FailureCategory.all.map fun c => (c.value, start c + if first = c then 1 else 0) := by
        rw [increment, List.map_map]
        refine List.map_congr_left fun c _ => ?_
        by_cases same : first = c
        · simp [same]
        · have differ : c.value ≠ first.value :=
            fun equal => same (FailureCategory.value_injective equal.symm)
          simp [same, differ]
      rw [List.foldl_cons, once, ih]
      refine List.map_congr_left fun c _ => ?_
      rw [List.count_cons]
      simp only [beq_iff_eq]
      congr 1
      omega
  simpa [counts] using tallied fun _ => 0

/-- Every category counted is one of the members. -/
theorem sum_counts (categories : List FailureCategory) :
    ((counts categories).map Prod.snd).sum = categories.length := by
  rw [counts_eq, List.map_map]
  induction categories with
  | nil => simp [FailureCategory.all]
  | cons first rest ih =>
    have more : ∀ c, (first :: rest).count c = rest.count c + if first = c then 1 else 0 := by
      intro c
      simp [List.count_cons]
    have one : (FailureCategory.all.map fun c => if first = c then 1 else 0).sum = 1 := by
      cases first <;> decide
    simp only [Function.comp_def, more] at ih ⊢
    rw [List.sum_map_add, ih, one, List.length_cons]

end Taxonomy
