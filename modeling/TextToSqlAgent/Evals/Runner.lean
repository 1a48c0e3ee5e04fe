import TextToSqlAgent.Evals.Artifacts

/-!
# Running a split, one question at a time

`EvalRunner`: ask, execute, compare, classify, record, and survive a stop. What
the answerer and the database do is given for each evaluation; a run may be
interrupted between any two questions. The summary goes to a file of its own,
which no run reads, and is left out.
-/

namespace Runner

open Python Exceptions Canonical Validator Compare Recall Taxonomy Artifacts

/-- One benchmark question and its reference answer. -/
structure Question where
  questionId : String
  question : String
  goldSql : String
  dataset : String := "default"
  split : String := "dev"
  dbId : String := ""
  deriving DecidableEq, Repr

/-- What an answerer produced for one question; `retrieved` is in rank order. -/
structure Attempt where
  sql : Option String := none
  errorType : Option String := none
  errorMessage : String := ""
  validationAttempts : Int := 0
  retrieved : List (String × Option String) := []
  inputTokens : Int := 0
  outputTokens : Int := 0
  answeringModel : String := ""

abbrev Rows := List (List PyValue)

/-- What an evaluation meets outside: the answerer, which may raise an exception
of some class, the queries it runs, numbered, and the time it takes. -/
structure Outside where
  answerer : Question → Except String Attempt
  runQuery : Nat → String → String → Option Rows
  elapsed : PyFloat

/-- The parts a run is made of. -/
structure Harness where
  platform : Platform
  repr : Canon → String
  str : PyValue → String
  hashing : Hashing
  extractGoldElements : String → GoldElements

variable (harness : Harness)

/-! ## One question -/

/-- An answerer that raises is a result as well. -/
def answer (outside : Outside) (question : Question) : Attempt :=
  match outside.answerer question with
  | .ok attempt => attempt
  | .error type => { errorType := some "internal_error", errorMessage := type }

/-- What became of the generated query: it was not run, it failed, or it gave
rows and a comparison with the gold ones. -/
inductive Prediction
  | notRun
  | failed
  | compared (rows : Rows) (comparison : Comparison)

def predict (outside : Outside) (question : Question) (gold : Option Rows) (attempt : Attempt) :
    Except Raised Prediction :=
  match gold, attempt.sql with
  | some goldRows, some sql =>
    if sql = "" then .ok .notRun
    else
      match outside.runQuery 1 sql question.dbId with
      | none => .ok .failed
      | some rows => do
        let comparison ← Compare.compare harness.platform harness.repr rows goldRows
          (some question.goldSql)
        return .compared rows comparison
  | _, _ => .ok .notRun

namespace Prediction

def comparison : Prediction → Option Comparison
  | .compared _ comparison => some comparison
  | _ => none

def rows : Prediction → Rows
  | .compared rows _ => rows
  | _ => []

/-- `error_type or "execution_failed"` where the query did not run. -/
def errorType (prediction : Prediction) (attempt : Attempt) : Option String :=
  match prediction with
  | .failed => some (orText attempt.errorType "execution_failed")
  | _ => attempt.errorType

def errorMessage (prediction : Prediction) (attempt : Attempt) : String :=
  match prediction with
  | .failed => orText (some attempt.errorMessage) "the generated query did not execute"
  | _ => attempt.errorMessage

end Prediction

/-- Evaluate one question. It raises where a comparison does. -/
def evaluate (outside : Outside) (question : Question) : Except Raised QuestionArtifact := do
  let gold := outside.runQuery 0 question.goldSql question.dbId
  let attempt := answer outside question
  let recalled := computeRecall harness.platform.toNames
    (harness.extractGoldElements question.goldSql) attempt.retrieved
  let prediction ← predict harness outside question gold attempt
  let errorType := prediction.errorType attempt
  let category := classify prediction.comparison (some recalled) errorType gold.isNone
  return {
    questionId := question.questionId
    question := question.question
    goldSql := question.goldSql
    generatedSql := attempt.sql
    matched := prediction.comparison.map Comparison.matched
    verdict := (prediction.comparison.map fun c => c.verdict.value).getD ""
    failureCategory := category.value
    validationAttempts := attempt.validationAttempts
    errorType := errorType
    errorMessage := prediction.errorMessage attempt
    recallAtK := recalled.atK
    goldElementCount := recalled.goldSize
    unresolvedReferences := recalled.unresolvedCount
    durationMs := outside.elapsed
    inputTokens := attempt.inputTokens
    outputTokens := attempt.outputTokens
    answeringModel := attempt.answeringModel
    goldRows := gold.getD []
    predictedRows := prediction.rows }

/-! ## A run -/

/-- One call of `EvalRunner.run`. The constructor refuses a `halt_after` under
one. Nothing is asked from the position `stopAt` on: the run is interrupted. -/
structure Invocation where
  store : RunStore
  questions : List Question
  haltAfter : Option Nat
  halts : ∀ n, haltAfter = some n → 1 ≤ n
  outside : Nat → Outside
  stopAt : Option Nat

/-- The fingerprint a run is made under. -/
def Invocation.fingerprint (harness : Harness) (invocation : Invocation) : String :=
  invocation.store.manifest.configFingerprint harness.hashing

inductive Ending
  | refused (e : Raised)
  | interrupted
  | raised (e : Raised)
  | halted
  | completed

/-- What the loop over the pending questions leaves: the files, the ids asked,
the artifacts recorded, and how it ended. -/
structure Progress where
  questions : AList fun _ : String => FileContent
  asked : List String
  recorded : List QuestionArtifact
  ending : Ending

/-- The infrastructure failures in a row, after one more question. -/
def inARow (consecutive : Nat) (artifact : QuestionArtifact) : Nat :=
  if isInfrastructure artifact.errorType then consecutive + 1 else 0

/-- Ask and record the pending questions, with the number of infrastructure
failures in a row so far. -/
def attemptAll (invocation : Invocation) : Nat → Nat → List Question →
    (AList fun _ : String => FileContent) → Progress
  | _, _, [], files => ⟨files, [], [], .completed⟩
  | position, consecutive, question :: rest, files =>
    if invocation.stopAt = some position then ⟨files, [], [], .interrupted⟩
    else
      match evaluate harness (invocation.outside position) question with
      | .error e => ⟨files, [question.questionId], [], .raised e⟩
      | .ok artifact =>
        let files := record harness.hashing harness.str files artifact
        if invocation.haltAfter.any fun n => n ≤ inARow consecutive artifact then
          ⟨files, [question.questionId], [artifact], .halted⟩
        else
          let later := attemptAll invocation (position + 1) (inARow consecutive artifact) rest files
          ⟨later.questions, question.questionId :: later.asked, artifact :: later.recorded,
            later.ending⟩

/-- The questions not answered in the directory. -/
def pending (invocation : Invocation) (done : List String) : List Question :=
  invocation.questions.filter fun question => !done.contains question.questionId

/-- What a run leaves behind. -/
structure Report where
  directory : RunDirectory
  asked : List String
  recorded : List QuestionArtifact
  ending : Ending

/-- Evaluate every question not already recorded. -/
def run (invocation : Invocation) (d : RunDirectory) : Report :=
  let started := invocation.store.start harness.hashing d
  match invocation.store.resume harness.hashing harness.platform started with
  | .error e => ⟨started, [], [], .refused e⟩
  | .ok done =>
    let progress := attemptAll harness invocation 0 0 (pending invocation done) started.questions
    ⟨{ started with questions := progress.questions }, progress.asked, progress.recorded,
      progress.ending⟩

theorem evaluate_questionId {harness : Harness} {outside : Outside} {question : Question}
    {artifact : QuestionArtifact} (evaluated : evaluate harness outside question = .ok artifact) :
    artifact.questionId = question.questionId := by
  simp only [evaluate] at evaluated
  cases predicted : predict harness outside question
      (outside.runQuery 0 question.goldSql question.dbId) (answer outside question) with
  | error e =>
    rw [predicted] at evaluated
    cases evaluated
  | ok prediction =>
    rw [predicted] at evaluated
    rw [← Except.ok.inj evaluated]

end Runner
