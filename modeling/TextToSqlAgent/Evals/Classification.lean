import TextToSqlAgent.Evals.Evaluations

/-!
# The categories and the score

A question is filed under the first cause that is found, and the result is the
last one looked at. So a question that matched is filed under no failure exactly
when nothing that is looked at before its result says otherwise.
-/

namespace Classification

open Python Exceptions Canonical Validator Compare Recall Taxonomy Artifacts Runner Summary
open Evaluations

/-! ## Filed under no failure -/

theorem fromErrorType_ne_none {entry : String × FailureCategory} (listed : entry ∈ fromErrorType) :
    entry.2 ≠ .none := by
  revert entry
  decide

theorem ofComparison_none_iff {comparison : Option Comparison} :
    classify.ofComparison comparison = .none ↔ ∃ c, comparison = some c ∧ c.matched = true := by
  cases comparison with
  | none => simp [classify.ofComparison]
  | some c =>
    by_cases matched : c.matched = true
    · simp [classify.ofComparison, matched]
    · have failed : (fromVerdict c.verdict).getD .uncategorised ≠ .none := by
        cases c.verdict <;> decide
      simp [classify.ofComparison, matched, failed]

theorem classify_none_iff {comparison : Option Comparison} {recalled : Option RecallResult}
    {errorType : Option String} {goldFailed : Bool} {floor : Rat} :
    classify comparison recalled errorType goldFailed floor = .none ↔
      goldFailed = false ∧ fellShort recalled floor = false ∧
        (errorType = none ∨ errorType = some "") ∧
        ∃ c, comparison = some c ∧ c.matched = true := by
  rw [← ofComparison_none_iff]
  unfold classify
  cases goldFailed with
  | true => simp
  | false =>
    by_cases asked : isInfrastructure errorType = true
    · have reported : ¬(errorType = none ∨ errorType = some "") := by
        rintro (rfl | rfl)
        · cases asked
        · exact absurd asked (by decide)
      simp [asked, reported]
    · by_cases refused : errorType = some "unanswerable"
      · rw [refused] at asked ⊢
        simp [asked]
      · by_cases short : fellShort recalled floor = true
        · simp [asked, refused, short]
        · cases errorType with
          | none => simp [asked, short]
          | some e =>
            by_cases empty : e = ""
            · subst empty
              simp [asked, short]
            · have mapped : ((fromErrorType.find? fun entry => entry.1 == e).map Prod.snd).getD
                  .uncategorised ≠ .none := by
                cases found : fromErrorType.find? fun entry => entry.1 == e with
                | none => simp
                | some entry => exact fromErrorType_ne_none (List.mem_of_find?_eq_some found)
              simp [asked, refused, short, empty, mapped]

/-! ## One question -/

variable {harness : Harness}

/-- Nothing but the result is left to file a question by: no error was reported,
and retrieval missed nothing that recall measures. -/
def Clear (e : Evaluation harness) : Prop := e.NoError ∧ fellShort (some e.recalled) 1 = false

/-- What the classification of a question should agree with. -/
def Agrees (e : Evaluation harness) : Prop :=
  e.artifact.failureCategory = FailureCategory.none.value ↔ e.artifact.matched = some true

theorem categoryOf_none_iff (e : Evaluation harness) {prediction : Prediction}
    (predicted : predict harness e.outside e.question e.gold e.attempt = .ok prediction) :
    e.categoryOf prediction = .none ↔ e.Matches ∧ Clear e := by
  rw [Evaluation.categoryOf, classify_none_iff]
  constructor
  · rintro ⟨-, covered, clean, c, compared, matched⟩
    cases prediction with
    | notRun => cases compared
    | failed => cases compared
    | compared rows comparison =>
      obtain rfl := Option.some.inj compared
      exact ⟨⟨rows, comparison, predicted, matched⟩, clean, covered⟩
  · rintro ⟨⟨rows, comparison, compared, matched⟩, clean, covered⟩
    obtain rfl := Except.ok.inj (predicted.symm.trans compared)
    exact ⟨e.gold_of_compared predicted, covered, clean, comparison, rfl, matched⟩

theorem category_none_iff (e : Evaluation harness) :
    e.artifact.failureCategory = FailureCategory.none.value ↔ e.Matches ∧ Clear e := by
  obtain ⟨prediction, predicted, category, -, -⟩ := e.holds
  rw [category, ← categoryOf_none_iff e predicted]
  constructor
  · intro same
    exact FailureCategory.value_injective same
  · intro same
    rw [same]

theorem agrees_iff (e : Evaluation harness) : Agrees e ↔ (e.Matches → Clear e) := by
  rw [Agrees, category_none_iff, e.matched_iff]
  constructor
  · intro agrees matched
    exact (agrees.mpr matched).2
  · intro clear
    constructor
    · intro both
      exact both.1
    · intro matched
      exact ⟨matched, clear matched⟩

/-! ## A list of questions -/

/-- A record is of one category at most. -/
theorem isOf_apart (a : StoredArtifact) :
    ¬(a.isOf .goldError = true ∧ a.isOf .infrastructure = true) := by
  rintro ⟨gold, infrastructure⟩
  cases value : a.failureCategory with
  | str s =>
    simp only [StoredArtifact.isOf, value, decide_eq_true_iff] at gold infrastructure
    exact absurd (gold.symm.trans infrastructure) (by decide)
  | _ => simp [StoredArtifact.isOf, value] at gold

/-- Scored, gold errors and infrastructure errors are all there is. -/
theorem scored_add (l : List StoredArtifact) :
    (l.filter StoredArtifact.scorable).length + l.countP (fun a => a.isOf .goldError) +
        l.countP (fun a => a.isOf .infrastructure) = l.length := by
  rw [← List.countP_eq_length_filter]
  induction l with
  | nil => rfl
  | cons a rest ih =>
    have apart := isOf_apart a
    have scorable : a.scorable = (!a.isOf .goldError && !a.isOf .infrastructure) := by
      simp [StoredArtifact.scorable, unscored]
    simp only [List.countP_cons, List.length_cons, scorable]
    cases gold : a.isOf .goldError <;> cases infrastructure : a.isOf .infrastructure
    · simp
      omega
    · simp
      omega
    · simp
      omega
    · exact absurd ⟨gold, infrastructure⟩ apart

/-- The summary counts the questions filed under no failure. -/
theorem none_count (evaluations : List (Evaluation harness)) :
    (counts ((records evaluations).map fun a => parseCategory a.failureCategory)).lookup
        FailureCategory.none.value =
      some (evaluations.countP fun e =>
        e.artifact.failureCategory = FailureCategory.none.value) := by
  have first : ∀ categories, (counts categories).lookup FailureCategory.none.value =
      some (categories.count .none) := by
    intro categories
    rw [counts_eq]
    rfl
  rw [first, List.count_eq_countP, records, List.map_map, List.countP_map]
  congr 1
  refine List.countP_congr fun e _ => ?_
  obtain ⟨prediction, -, category, -, -⟩ := e.holds
  simp only [Function.comp_apply, stored, category, parseCategory_value, beq_iff_eq,
    decide_eq_true_iff]
  constructor
  · intro same
    rw [same]
  · exact FailureCategory.value_injective

/-- The failure categories agree with the score: question by question, and in
the summary. -/
structure AgreesWithScore (evaluations : List (Evaluation harness)) : Prop where
  each : ∀ e ∈ evaluations, Agrees e
  summary : ∃ s, summarise (records evaluations) = .ok s ∧
    s.failures.lookup FailureCategory.none.value = some s.matched ∧
    (s.failures.map Prod.snd).sum = s.total ∧
    s.scored + s.goldErrors + s.infrastructureErrors = s.total

/-- Where every question agrees, those that matched are those filed under no
failure. -/
theorem matched_count {evaluations : List (Evaluation harness)}
    (each : ∀ e ∈ evaluations, Agrees e) :
    ((records evaluations).filter StoredArtifact.scorable).countP (fun a => a.matched.truthy) =
      evaluations.countP fun e => e.artifact.failureCategory = FailureCategory.none.value := by
  rw [List.countP_filter, records, List.countP_map]
  refine List.countP_congr fun e he => ?_
  have agrees := each e he
  have truthy : (stored e.artifact).matched.truthy = true ↔ e.artifact.matched = some true := by
    rcases value : e.artifact.matched with - | - | - <;>
      simp [stored, value, Artifacts.optional, Json.truthy]
  have kept : e.artifact.failureCategory = FailureCategory.none.value →
      (stored e.artifact).scorable = true := by
    intro same
    simp only [StoredArtifact.scorable, unscored, List.any_cons, List.any_nil, isOf_stored, same]
    decide
  simp only [Function.comp_apply, Bool.and_eq_true, truthy, decide_eq_true_iff]
  constructor
  · rintro ⟨matched, -⟩
    exact agrees.mpr matched
  · intro same
    exact ⟨agrees.mp same, kept same⟩

/-- For every list of evaluated questions: the categories agree with the score
exactly when each question that matched is clear of every other cause. -/
theorem agreesWithScore_iff (evaluations : List (Evaluation harness)) :
    AgreesWithScore evaluations ↔ ∀ e ∈ evaluations, e.Matches → Clear e := by
  constructor
  · intro agrees e he
    exact (agrees_iff e).mp (agrees.each e he)
  · intro clear
    have each : ∀ e ∈ evaluations, Agrees e := fun e he => (agrees_iff e).mpr (clear e he)
    obtain ⟨s, done⟩ := summarise_stored (evaluations.map Evaluation.artifact)
    rw [List.map_map] at done
    have sums := aggregates done
    refine ⟨each, s, done, ?_, ?_, ?_⟩
    · rw [sums.failures, sums.matched]
      exact (none_count evaluations).trans (congrArg some (matched_count each).symm)
    · rw [sums.failures, sums.total, sum_counts, List.length_map]
    · rw [sums.scored, sums.goldErrors, sums.infrastructureErrors, sums.total]
      exact scored_add _

private def guessHarness : Harness :=
  plainHarness { tables := {"customers"}, columns := {("customers", "name")} }

/-- The model names a table that retrieval did not show it. -/
private def guess : Outside where
  answerer q := .ok { sql := some q.goldSql, retrieved := [("orders", none)] }
  runQuery _ _ _ := some [[.str "Ada"]]
  elapsed := .finite 1

private def whoBought : Question where
  questionId := "q1"
  question := "who bought?"
  goldSql := "SELECT name FROM customers"

private theorem guess_fellShort :
    fellShort (some (computeRecall guessHarness.platform.toNames
      (guessHarness.extractGoldElements whoBought.goldSql)
      (answer guess whoBought).retrieved)) 1 = true := by
  decide +kernel

/-- A question that matched is counted as a retrieval miss. -/
theorem matched_retrieval_miss :
    ∃ e : Evaluation guessHarness, e.outside = guess ∧ e.question = whoBought ∧
      e.artifact.matched = some true ∧
      e.artifact.failureCategory = FailureCategory.retrievalMiss.value ∧
      ¬AgreesWithScore [e] := by
  have recorded : ((evaluate guessHarness guess whoBought).toOption.map
      QuestionArtifact.failureCategory) = some "retrieval_miss" := by decide +kernel
  obtain ⟨artifact, evaluated, category⟩ := Option.map_eq_some_iff.mp recorded
  cases done : evaluate guessHarness guess whoBought with
  | error exc =>
    rw [done] at evaluated
    cases evaluated
  | ok found =>
    rw [done] at evaluated
    obtain rfl := Option.some.inj evaluated
    have matched : (Evaluation.mk guess whoBought found done).Matches := ⟨_, _, rfl, rfl⟩
    refine ⟨⟨guess, whoBought, found, done⟩, rfl, rfl, (Evaluation.matched_iff _).mpr matched,
      category, ?_⟩
    intro agrees
    have clear := (agrees_iff _).mp (agrees.each _ List.mem_cons_self) matched
    exact absurd (guess_fellShort.symm.trans clear.2) (by decide)

end Classification
