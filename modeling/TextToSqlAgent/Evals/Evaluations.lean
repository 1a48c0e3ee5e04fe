import TextToSqlAgent.Evals.Summary

/-!
# Evaluated questions

An evaluation is a question with what it met outside and the record that came
of it. Its record is read here off its inputs: what was retrieved, what the
answerer reported and how the results compare.
-/

namespace Evaluations

open Python Exceptions Canonical Validator Compare Recall Taxonomy Artifacts Runner Summary

/-! ## Records in memory -/

/-- A record in memory, as the summary sees it. -/
def stored (a : QuestionArtifact) : StoredArtifact where
  matched := optional .bool a.matched
  failureCategory := .str a.failureCategory
  recallAtK := (a.recallAtK.map fun r =>
    (⟨(r.1 : Int), .float (.finite r.2)⟩ : Sigma fun _ : Int => Json)).toAList
  unresolvedReferences := .int a.unresolvedReferences
  durationMs := .float a.durationMs
  inputTokens := .int a.inputTokens
  outputTokens := .int a.outputTokens
  answeringModel := .str a.answeringModel

theorem isOf_stored (a : QuestionArtifact) (c : FailureCategory) :
    (stored a).isOf c = decide (a.failureCategory = c.value) := rfl

/-- The recall of a record at a cut-off. -/
def recallOf (a : QuestionArtifact) (k : Int) : Option Rat :=
  (a.recallAtK.find? fun r => (r.1 : Int) = k).map Prod.snd

theorem lookup_stored (a : QuestionArtifact) (k : Int) :
    (stored a).recallAtK.lookup k = (recallOf a k).map fun q => .float (.finite q) := by
  rw [stored, AList.lookup_to_alist, recallOf]
  induction a.recallAtK with
  | nil => rfl
  | cons first rest ih =>
    obtain ⟨j, q⟩ := first
    by_cases same : (j : Int) = k
    · subst same
      simp
    · have other : k ≠ (j : Int) := fun equal => same equal.symm
      rw [List.map_cons, List.dlookup_cons_ne _ _ other, ih,
        List.find?_cons_of_neg (by simpa using same)]

theorem summable_stored (a : QuestionArtifact) : Summable (stored a) where
  category := rfl
  model _ := rfl
  unresolved := rfl
  recalls := by
    intro k value found
    rw [lookup_stored] at found
    obtain ⟨q, -, rfl⟩ := Option.map_eq_some_iff.mp found
    rfl
  input := rfl
  output := rfl
  duration := rfl

/-- Records in memory always have a summary. -/
theorem summarise_stored (artifacts : List QuestionArtifact) :
    ∃ s, summarise (artifacts.map stored) = .ok s := by
  refine summarise_isOk_iff.mpr fun a ha => ?_
  obtain ⟨artifact, -, rfl⟩ := List.mem_map.mp ha
  exact summable_stored artifact

/-- A harness for fixed inputs: names are folded as in ASCII, and every query
names the same elements. -/
def plainHarness (gold : GoldElements) : Harness where
  platform :=
    { casefold := fun text => String.ofList (text.toList.map Char.toLower)
      closeMatch := fun _ _ => none
      parse := fun _ => .error ""
      sql := fun _ => ""
      str := fun _ => ""
      float := fun _ => none }
  repr _ := ""
  str _ := ""
  hashing :=
    { sha256 := fun _ => "e3b0c44298fc1c149afbf4c8996fb92427ae41e4649b934ca495991b7852b855"
      dumps := fun _ => ""
      length_sha256 := by
        intro text
        decide }
  extractGoldElements _ := gold

/-! ## One evaluation -/

/-- A question that was evaluated. -/
structure Evaluation (harness : Harness) where
  outside : Outside
  question : Question
  artifact : QuestionArtifact
  evaluated : evaluate harness outside question = .ok artifact

namespace Evaluation

variable {harness : Harness} (e : Evaluation harness)

/-- The rows of the reference query, where it ran. -/
def gold : Option Rows := e.outside.runQuery 0 e.question.goldSql e.question.dbId

/-- What the answerer came back with. -/
def attempt : Attempt := answer e.outside e.question

/-- Recall over what was retrieved. -/
def recalled : RecallResult :=
  computeRecall harness.platform.toNames (harness.extractGoldElements e.question.goldSql)
    e.attempt.retrieved

/-- The generated query ran, and its result is the gold one's. -/
def Matches : Prop :=
  ∃ rows comparison, predict harness e.outside e.question e.gold e.attempt =
    .ok (.compared rows comparison) ∧ comparison.matched = true

/-- The answerer reported no error. -/
def NoError : Prop := e.attempt.errorType = none ∨ e.attempt.errorType = some ""

/-- The category a prediction is filed under. -/
def categoryOf (prediction : Prediction) : FailureCategory :=
  classify prediction.comparison (some e.recalled) (prediction.errorType e.attempt) e.gold.isNone

/-- What the record holds of the evaluation. -/
structure Holds (prediction : Prediction) : Prop where
  predicted : predict harness e.outside e.question e.gold e.attempt = .ok prediction
  category : e.artifact.failureCategory = (e.categoryOf prediction).value
  matched : e.artifact.matched = prediction.comparison.map Comparison.matched
  recalls : e.artifact.recallAtK = e.recalled.atK

theorem holds : ∃ prediction, e.Holds prediction := by
  have evaluated := e.evaluated
  simp only [evaluate] at evaluated
  obtain ⟨prediction, predicted, recorded⟩ := Fallible.bind_ok_iff.mp evaluated
  have artifact := Except.ok.inj recorded
  exact ⟨prediction, predicted, by rw [← artifact]; rfl, by rw [← artifact],
    by rw [← artifact]; rfl⟩

/-- A comparison is made only where both queries ran. -/
theorem gold_of_compared {rows : Rows} {comparison : Comparison}
    (predicted : predict harness e.outside e.question e.gold e.attempt =
      .ok (.compared rows comparison)) : e.gold.isNone = false := by
  cases ran : e.gold with
  | some goldRows => rfl
  | none =>
    simp only [ran, predict] at predicted
    cases predicted

theorem matched_iff : e.artifact.matched = some true ↔ e.Matches := by
  obtain ⟨prediction, predicted, -, matched, -⟩ := e.holds
  rw [matched]
  constructor
  · intro same
    cases prediction with
    | notRun => cases same
    | failed => cases same
    | compared rows comparison => exact ⟨rows, comparison, predicted, Option.some.inj same⟩
  · rintro ⟨rows, comparison, compared, same⟩
    obtain rfl := Except.ok.inj (predicted.symm.trans compared)
    simp [Prediction.comparison, same]

end Evaluation

/-- The records of a list of evaluations, as the summary takes them. -/
def records {harness : Harness} (evaluations : List (Evaluation harness)) :
    List StoredArtifact :=
  evaluations.map fun e => stored e.artifact

end Evaluations
