import TextToSqlAgent.Evals.Neutrality
import TextToSqlAgent.Evals.Pipeline
import TextToSqlAgent.Validation.Refusals

/-!
# What validation does to a score

The answers of the baseline that validates are those of the one that retrieves only,
each passed through a gate that takes statements away. No statement is added, so that
no question is matched that was not matched without it.
-/

namespace Baselines

open Python Exceptions Schema Patterns Identifiers Taxonomy Artifacts Summary Evaluations Scoping
  Pipeline Answerer Generator Fallible
open Runner hiding answer
open Validator hiding Failure
open Refusals (Typed typed_validate refusalTypes)

/-! ## The gate -/

section gate

variable {unicode : Unicode} {words : Words} {Cell : Type} {parts : Parts Cell}

/-- What validation makes of an answer that it did not see the making of. -/
def gated (parts : Parts Cell) (scope : DatabaseScope RetrievalResult) (attempt : Attempt) :
    Except String Attempt :=
  match attempt.sql with
  | none => .ok attempt
  | some sql =>
    match parts.activates scope.schema with
    | .error exc => .error (parts.typeOf exc)
    | .ok () =>
      match validate parts.platform (parts.database scope.schema) parts.settings scope.catalog
          sql with
      | .error exc => .error (parts.typeOf exc)
      | .ok result => .ok (judged attempt result)

/-- The gate of the scope that a question is answered in; none where it has no scope. -/
def screened (start : ScopeRegistry unicode RetrievalResult) (parts : Parts Cell)
    (question : Question) (attempt : Attempt) : Except String Attempt :=
  match (cleared start).scope question.dbId with
  | .error _ => .ok attempt
  | .ok (scope, _) => gated parts scope attempt

/-- An answer without a statement passes. -/
theorem bind_gated {scope : DatabaseScope RetrievalResult} {answer : Except String Attempt}
    (wordless : ∀ attempt, answer = .ok attempt → attempt.sql = none) :
    answer >>= gated parts scope = answer := by
  cases answer with
  | error type => rfl
  | ok attempt =>
    change gated parts scope attempt = .ok attempt
    rw [gated, wordless attempt rfl]

theorem sql_scopeUnavailable {exc : Raised} {attempt : Attempt}
    (caught : parts.scopeUnavailable exc = .ok attempt) : attempt.sql = none := by
  unfold Parts.scopeUnavailable at caught
  split at caught
  · split_ifs at caught
    cases caught
    rfl
  · cases caught
    rfl

theorem sql_retrievalFailed {exc : Raised} {attempt : Attempt}
    (caught : parts.retrievalFailed exc = .ok attempt) : attempt.sql = none := by
  unfold Parts.retrievalFailed at caught
  split at caught
  · split_ifs at caught
    cases caught
    rfl
  · cases caught

theorem sql_generationFailed {retrieved : List (String × Option String)}
    {failure : Generator.Failure} {attempt : Attempt}
    (caught : parts.generationFailed retrieved failure = .ok attempt) : attempt.sql = none := by
  unfold Parts.generationFailed at caught
  split at caught
  · split_ifs at caught
    · cases caught
      rfl
    · cases caught
      rfl
  · cases caught

/-- To validate within a scope is to answer in it and then to pass the gate. -/
theorem answerIn_validated {scope : DatabaseScope RetrievalResult} (plain : scope.validator = none)
    (question path : String) :
    (answerIn unicode words parts { scope with validator := some scope.catalog } question path).1 =
      (answerIn unicode words parts scope question path).1 >>= gated parts scope := by
  simp only [answerIn, plain]
  cases (⟨parts.context scope.source, parts.generator⟩ : QuestionAnswerer).retrieve question with
  | error exc => exact (bind_gated fun attempt caught => sql_retrievalFailed caught).symm
  | ok context =>
    dsimp only
    cases (⟨parts.context scope.source, parts.generator⟩ : QuestionAnswerer).generate unicode words
        question context with
    | error failure => exact (bind_gated fun attempt caught => sql_generationFailed caught).symm
    | ok candidate =>
      dsimp only
      change _ = gated parts scope (answered candidate (some candidate.sql))
      simp only [gated, answered]
      cases parts.activates scope.schema with
      | error exc => rfl
      | ok done =>
        dsimp only [ScopeRegistry.activate]
        cases validate parts.platform (parts.database scope.schema) parts.settings scope.catalog
          candidate.sql <;> rfl

variable {owner : Owner RetrievalResult} {topK : Nat} {pre : String}

theorem scope_validated (dbId : String) :
    ((openRegistry unicode owner topK pre .withValidation).scope dbId).map Prod.fst =
      ((openRegistry unicode owner topK pre .retrievalOnly).scope dbId).map fun found =>
        { found.1 with validator := some found.1.catalog } :=
  scope_congr (fun _ => id) (fun scope => { scope with validator := some scope.catalog })
    (fun _ => rfl) (fun _ => rfl) (fun _ => (congrFun Except.map_id _).symm) (fun _ _ _ => rfl)
    rfl rfl

theorem scope_plain {dbId : String} {scope : DatabaseScope RetrievalResult}
    {next : ScopeRegistry unicode RetrievalResult}
    (given : (openRegistry unicode owner topK pre .retrievalOnly).scope dbId = .ok (scope, next)) :
    scope.validator = none := by
  rw [ScopeRegistry.scope] at given
  split at given
  · cases given
  · split at given
    · rename_i cached listed
      cases listed
    · split at given
      · cases given
      · split at given
        · cases given
        · split at given
          · cases given
          · cases given
            rfl

/-- The answers of the two baselines, question by question. -/
theorem firstAnswer_validated (parts : Parts Cell) (question : Question) :
    firstAnswer unicode words (openRegistry unicode owner topK pre .withValidation) parts
        question =
      firstAnswer unicode words (openRegistry unicode owner topK pre .retrievalOnly) parts
          question >>=
        screened (openRegistry unicode owner topK pre .retrievalOnly) parts question := by
  have scopes : ((openRegistry unicode owner topK pre .withValidation).scope
      question.dbId).map Prod.fst =
        ((openRegistry unicode owner topK pre .retrievalOnly).scope question.dbId).map fun found =>
          { found.1 with validator := some found.1.catalog } := scope_validated question.dbId
  have opened (baseline : Baseline) : cleared (openRegistry unicode owner topK pre baseline) =
      openRegistry unicode owner topK pre baseline := rfl
  rw [firstAnswer, firstAnswer, call, call]
  simp only [opened]
  cases plain : (openRegistry unicode owner topK pre .retrievalOnly).scope question.dbId with
  | error exc =>
    cases validated : (openRegistry unicode owner topK pre .withValidation).scope
        question.dbId with
    | ok found =>
      rw [plain, validated] at scopes
      cases scopes
    | error other =>
      rw [plain, validated] at scopes
      obtain rfl : other = exc := Except.error.inj scopes
      have screens : screened (openRegistry unicode owner topK pre .retrievalOnly) parts
          question = Except.ok := by
        funext attempt
        rw [screened, opened, plain]
      rw [screens]
      dsimp only
      cases parts.scopeUnavailable other <;> rfl
  | ok found =>
    obtain ⟨scope, next⟩ := found
    cases validated : (openRegistry unicode owner topK pre .withValidation).scope
        question.dbId with
    | error other =>
      rw [plain, validated] at scopes
      cases scopes
    | ok other =>
      obtain ⟨other, later⟩ := other
      rw [plain, validated] at scopes
      obtain rfl : other = { scope with validator := some scope.catalog } := Except.ok.inj scopes
      have screens : screened (openRegistry unicode owner topK pre .retrievalOnly) parts
          question = gated parts scope := by
        funext attempt
        rw [screened, opened, plain]
      rw [screens]
      exact answerIn_validated (scope_plain plain) question.question ""

/-- An answer with a statement was given in a scope. -/
theorem scope_of_sql {start : ScopeRegistry unicode RetrievalResult} {question : Question}
    {attempt : Attempt} {sql : String}
    (answers : firstAnswer unicode words start parts question = .ok attempt)
    (written : attempt.sql = some sql) :
    ∃ found, (cleared start).scope question.dbId = .ok found := by
  rw [firstAnswer, call] at answers
  split at answers
  · rw [sql_scopeUnavailable answers] at written
    cases written
  · rename_i scope next given
    exact ⟨(scope, next), given⟩

/-- Where nothing is validated, an answer with a statement reports no error. -/
theorem errorType_of_sql {question : Question} {attempt : Attempt} {sql : String}
    (answers : firstAnswer unicode words (openRegistry unicode owner topK pre .retrievalOnly)
      parts question = .ok attempt)
    (written : attempt.sql = some sql) : attempt.errorType = none := by
  rw [firstAnswer, call] at answers
  split at answers
  · rw [sql_scopeUnavailable answers] at written
    cases written
  · rename_i scope next given
    simp only [answerIn, scope_plain given] at answers
    split at answers
    · rw [sql_retrievalFailed answers] at written
      cases written
    · split at answers
      · rw [sql_generationFailed answers] at written
        cases written
      · cases answers
        rfl

end gate

/-! ## A scored question -/

section scored

variable {harness : Harness}

theorem infrastructure_orText (type : Option String) :
    isInfrastructure (some (orText type "execution_failed")) = isInfrastructure type := by
  cases type with
  | none => decide
  | some type =>
    by_cases empty : type = ""
    · subst empty
      decide
    · rw [orText, if_neg empty]

theorem isInfrastructure_errorType (prediction : Prediction) (attempt : Attempt) :
    isInfrastructure (prediction.errorType attempt) = isInfrastructure attempt.errorType := by
  cases prediction with
  | failed => exact infrastructure_orText attempt.errorType
  | _ => rfl

theorem fromErrorType_ne_goldError {entry : String × FailureCategory}
    (listed : entry ∈ fromErrorType) : entry.2 ≠ .goldError := by
  revert entry
  decide

theorem ofComparison_ne {comparison : Option Compare.Comparison} :
    classify.ofComparison comparison ≠ .goldError ∧
      classify.ofComparison comparison ≠ .infrastructure := by
  cases comparison with
  | none => decide
  | some c =>
    obtain ⟨verdict, same⟩ := c
    cases same <;> cases verdict <;> simp [classify.ofComparison, fromVerdict]

/-- An error type that is filed as infrastructure is one of its types. -/
theorem isInfrastructure_of_found {type : String}
    (found : ((fromErrorType.find? fun entry => entry.1 == type).map Prod.snd).getD .uncategorised =
      .infrastructure) : isInfrastructure (some type) = true := by
  cases known : fromErrorType.find? fun entry => entry.1 == type with
  | none =>
    rw [known] at found
    cases found
  | some entry =>
    rw [known] at found
    obtain rfl : entry.1 = type := by simpa using List.find?_some known
    have listed : entry.1 ∈ (fromErrorType.filter fun e => e.2 = .infrastructure).map Prod.fst := by
      refine List.mem_map_of_mem (List.mem_filter.mpr ⟨List.mem_of_find?_eq_some known, ?_⟩)
      exact decide_eq_true found
    rw [← infrastructure_agrees] at listed
    exact List.contains_iff_mem.mpr listed

theorem classify_goldError_iff {comparison : Option Compare.Comparison}
    {recalled : Option Recall.RecallResult} {errorType : Option String} {goldFailed : Bool}
    {recallFloor : Rat} :
    classify comparison recalled errorType goldFailed recallFloor = .goldError ↔
      goldFailed = true := by
  constructor
  · intro filed
    by_contra ran
    unfold classify at filed
    rw [if_neg ran] at filed
    split_ifs at filed
    split at filed
    · split_ifs at filed
      · cases known : fromErrorType.find? fun entry => entry.1 == _ with
        | none =>
          rw [known] at filed
          cases filed
        | some entry =>
          rw [known] at filed
          exact fromErrorType_ne_goldError (List.mem_of_find?_eq_some known) filed
      · exact ofComparison_ne.1 filed
    · exact ofComparison_ne.1 filed
  · rintro rfl
    rfl

theorem classify_infrastructure_iff {comparison : Option Compare.Comparison}
    {recalled : Option Recall.RecallResult} {errorType : Option String} {goldFailed : Bool}
    {recallFloor : Rat} :
    classify comparison recalled errorType goldFailed recallFloor = .infrastructure ↔
      goldFailed = false ∧ isInfrastructure errorType = true := by
  constructor
  · intro filed
    unfold classify at filed
    split_ifs at filed with failed outage
    · exact ⟨by simpa using failed, outage⟩
    · split at filed
      · split_ifs at filed
        · exact absurd (isInfrastructure_of_found filed) outage
        · exact absurd filed ofComparison_ne.2
      · exact absurd filed ofComparison_ne.2
  · rintro ⟨rfl, outage⟩
    unfold classify
    rw [if_neg Bool.false_ne_true, if_pos outage]

/-- A question is scored where its reference query ran and the system was asked. -/
theorem scorable_iff (e : Evaluation harness) :
    (stored e.artifact).scorable = true ↔
      e.gold.isNone = false ∧ isInfrastructure e.attempt.errorType = false := by
  obtain ⟨prediction, holds⟩ := e.holds
  have filed (c : FailureCategory) :
      (stored e.artifact).isOf c = true ↔ e.categoryOf prediction = c := by
    rw [isOf_stored, holds.category, decide_eq_true_iff]
    exact ⟨FailureCategory.value_injective, congrArg _⟩
  have gold : (stored e.artifact).isOf .goldError = e.gold.isNone := by
    rw [Bool.eq_iff_iff, filed]
    exact classify_goldError_iff
  have infrastructure : (stored e.artifact).isOf .infrastructure =
      (!e.gold.isNone && isInfrastructure e.attempt.errorType) := by
    rw [Bool.eq_iff_iff, filed, ← isInfrastructure_errorType prediction]
    exact classify_infrastructure_iff.trans (by simp)
  simp only [StoredArtifact.scorable, unscored, List.any_cons, List.any_nil, gold, infrastructure]
  cases e.gold.isNone <;> cases isInfrastructure e.attempt.errorType <;> decide

/-- A question that matched had a statement, and a reference query that ran. -/
theorem of_matches {e : Evaluation harness} (matched : e.Matches) :
    e.gold.isNone = false ∧ ∃ sql, e.attempt.sql = some sql := by
  obtain ⟨rows, comparison, predicted, -⟩ := matched
  refine ⟨e.gold_of_compared predicted, ?_⟩
  unfold predict at predicted
  split at predicted
  · rename_i written
    exact ⟨_, written⟩
  · cases predicted

theorem attempt_of_ok {e : Evaluation harness} {attempt : Attempt}
    (answers : e.outside.answerer e.question = .ok attempt) : e.attempt = attempt := by
  rw [Evaluation.attempt, Runner.answer, answers]

theorem attempt_of_error {e : Evaluation harness} {type : String}
    (answers : e.outside.answerer e.question = .error type) :
    e.attempt = { errorType := some "internal_error", errorMessage := type } := by
  rw [Evaluation.attempt, Runner.answer, answers]

theorem predict_wordless {outside : Outside} {question : Question} {gold : Option Rows}
    {attempt : Attempt} (wordless : attempt.sql = none) :
    predict harness outside question gold attempt = .ok .notRun := by
  obtain ⟨sql, type, message, attempts, retrieved, input, output, model⟩ := attempt
  obtain rfl : sql = none := wordless
  cases gold <;> rfl

/-- An evaluation is made wherever a comparison does not raise. -/
theorem exists_evaluation {outside : Outside} {question : Question} {prediction : Prediction}
    (predicted : predict harness outside question
      (outside.runQuery 0 question.goldSql question.dbId) (Runner.answer outside question) =
        .ok prediction) :
    ∃ e : Evaluation harness, e.outside = outside ∧ e.question = question := by
  have evaluated : ∃ artifact, evaluate harness outside question = .ok artifact := by
    simp only [evaluate, predicted]
    exact ⟨_, rfl⟩
  obtain ⟨artifact, evaluated⟩ := evaluated
  exact ⟨⟨outside, question, artifact, evaluated⟩, rfl, rfl⟩

end scored

/-! ## Two baselines over the same questions -/

/-- One question evaluated under both baselines, with the same met outside. -/
structure Twin (harness : Harness) (unicode : Unicode) (words : Words) (Cell : Type)
    (owner : Owner RetrievalResult) (topK : Nat) (pre : String) where
  parts : Parts Cell
  plain : Evaluation harness
  validated : Evaluation harness
  question : validated.question = plain.question
  queries : validated.outside.runQuery = plain.outside.runQuery
  plainAnswers : plain.outside.answerer plain.question =
    firstAnswer unicode words (openRegistry unicode owner topK pre .retrievalOnly) parts
      plain.question
  validatedAnswers : validated.outside.answerer plain.question =
    firstAnswer unicode words (openRegistry unicode owner topK pre .withValidation) parts
      plain.question

namespace Twin

variable {harness : Harness} {unicode : Unicode} {words : Words} {Cell : Type}
  {owner : Owner RetrievalResult} {topK : Nat} {pre : String}
  (t : Twin harness unicode words Cell owner topK pre)

/-- Validation gives a verdict, and does not raise. -/
def Decided : Prop :=
  ∀ attempt, t.plain.outside.answerer t.plain.question = .ok attempt →
    ∃ after, screened (openRegistry unicode owner topK pre .retrievalOnly) t.parts
      t.plain.question attempt = .ok after

/-- The validator of the question's database accepts the statement. -/
def Accepts : Prop :=
  ∃ scope next sql result,
    (openRegistry unicode owner topK pre .retrievalOnly).scope t.plain.question.dbId =
        .ok (scope, next) ∧
      t.plain.attempt.sql = some sql ∧
      validate t.parts.platform (t.parts.database scope.schema) t.parts.settings scope.catalog sql =
        .ok result ∧ result.valid = true

/-- The answer came through the gate with what it had. -/
structure Kept : Prop where
  sql : t.validated.attempt.sql = t.plain.attempt.sql
  errorType : t.validated.attempt.errorType = t.plain.attempt.errorType
  accepts : ∀ sql, t.plain.attempt.sql = some sql → t.Accepts

/-- The gate took a statement away. -/
structure Refused : Prop where
  sql : t.validated.attempt.sql = none
  rejects : ¬t.Accepts
  asked : isInfrastructure t.validated.attempt.errorType = false
  askedPlain : isInfrastructure t.plain.attempt.errorType = false

variable {t}

theorem asked_of_mem {type : String} (known : type ∈ refusalTypes) :
    isInfrastructure (some type) = false := by
  revert type
  decide

theorem kept_or_refused (decided : t.Decided) : t.Kept ∨ t.Refused := by
  have validated := t.validatedAnswers
  rw [firstAnswer_validated, ← t.plainAnswers] at validated
  cases plain : t.plain.outside.answerer t.plain.question with
  | error type =>
    rw [plain, ← t.question] at validated
    have one : t.plain.attempt = _ := attempt_of_error plain
    have other : t.validated.attempt = _ := attempt_of_error validated
    refine .inl ⟨by rw [one, other], by rw [one, other], ?_⟩
    intro sql written
    rw [one] at written
    cases written
  | ok attempt =>
    obtain ⟨after, screens⟩ := decided attempt plain
    rw [plain] at validated
    have told : t.validated.outside.answerer t.validated.question = .ok after := by
      rw [t.question]
      exact validated.trans screens
    have one : t.plain.attempt = attempt := attempt_of_ok plain
    have other : t.validated.attempt = after := attempt_of_ok told
    cases written : attempt.sql with
    | none =>
      have same : after = attempt := by
        unfold screened at screens
        split at screens
        · exact (Except.ok.inj screens).symm
        · rw [gated, written] at screens
          exact (Except.ok.inj screens).symm
      refine .inl ⟨by rw [one, other, same], by rw [one, other, same], ?_⟩
      intro sql kept
      rw [one, written] at kept
      cases kept
    | some sql =>
      have reported : attempt.errorType = none :=
        errorType_of_sql (t.plainAnswers.symm.trans plain) written
      obtain ⟨found, built⟩ := scope_of_sql (t.plainAnswers.symm.trans plain) written
      unfold screened at screens
      split at screens
      · rename_i unscoped
        rw [built] at unscoped
        cases unscoped
      · rename_i scope next given
        rw [gated, written] at screens
        dsimp only at screens
        split at screens
        · cases screens
        · split at screens
          · cases screens
          · rename_i result judgement
            obtain rfl := Except.ok.inj screens
            cases verdict : result.valid with
            | true =>
              refine .inl ⟨?_, ?_, ?_⟩
              · rw [one, other, judged, if_pos verdict]
              · rw [one, other, judged, if_pos verdict]
              · intro sql' kept
                rw [one, written] at kept
                obtain rfl := Option.some.inj kept
                exact ⟨scope, next, sql, result, given, one ▸ written, judgement, verdict⟩
            | false =>
              obtain ⟨⟨type, message, typed, known, -⟩, -⟩ := typed_validate judgement verdict
              have turned : judged attempt result = { attempt with
                  sql := none
                  errorType := result.errorType
                  errorMessage := result.feedback
                  validationAttempts := 1 } := by
                rw [judged, if_neg (by simp [verdict])]
              refine .inr ⟨?_, ?_, ?_, ?_⟩
              · rw [other, turned]
              · rintro ⟨scope', next', sql', result', given', written', judgement', verdict'⟩
                obtain ⟨rfl, rfl⟩ := Prod.mk.inj (Except.ok.inj (given.symm.trans given'))
                rw [one, written] at written'
                obtain rfl := Option.some.inj written'
                obtain rfl := Except.ok.inj (judgement.symm.trans judgement')
                rw [verdict] at verdict'
                cases verdict'
              · rw [other, turned, typed]
                exact asked_of_mem known
              · rw [one, reported]
                rfl

theorem gold_eq : t.validated.gold = t.plain.gold := by
  rw [Evaluation.gold, Evaluation.gold, t.question, t.queries]

theorem scorable_eq (decided : t.Decided) :
    (stored t.validated.artifact).scorable = (stored t.plain.artifact).scorable := by
  rw [Bool.eq_iff_iff, scorable_iff, scorable_iff, t.gold_eq]
  refine and_congr_right fun _ => ?_
  rcases kept_or_refused decided with kept | refused
  · rw [kept.errorType]
  · rw [refused.asked, refused.askedPlain]

theorem matches_iff (decided : t.Decided) :
    t.validated.Matches ↔ t.plain.Matches ∧ t.Accepts := by
  rcases kept_or_refused decided with kept | refused
  · have same : t.validated.Matches ↔ t.plain.Matches := by
      rw [Evaluation.Matches, Evaluation.Matches, gold_eq]
      simp only [predict, kept.sql, t.question, t.queries]
    rw [same, iff_self_and]
    intro matched
    obtain ⟨-, sql, written⟩ := of_matches matched
    exact kept.accepts sql written
  · constructor
    · intro matched
      obtain ⟨-, sql, written⟩ := of_matches matched
      rw [refused.sql] at written
      cases written
    · rintro ⟨-, accepts⟩
      exact absurd accepts refused.rejects

/-- A question that matched was scored. -/
theorem scorable_of_matches (matched : t.plain.Matches) :
    (stored t.plain.artifact).scorable = true := by
  obtain ⟨ran, sql, written⟩ := of_matches matched
  refine (scorable_iff t.plain).mpr ⟨ran, ?_⟩
  cases plain : t.plain.outside.answerer t.plain.question with
  | error type =>
    rw [attempt_of_error plain] at written
    cases written
  | ok attempt =>
    rw [attempt_of_ok plain] at written ⊢
    rw [errorType_of_sql (t.plainAnswers.symm.trans plain) written]
    rfl

end Twin

/-! ## The two scores -/

section scores

variable {harness : Harness} {unicode : Unicode} {words : Words} {Cell : Type}
  {owner : Owner RetrievalResult} {topK : Nat} {pre : String}

theorem truthy_matched (a : QuestionArtifact) :
    (stored a).matched.truthy = true ↔ a.matched = some true := by
  rcases value : a.matched with - | - | - <;> simp [stored, value, Artifacts.optional, Json.truthy]

/-- How many questions a summary counts as matched. -/
theorem matched_eq {α : Type} (e : α → Evaluation harness) (asked : List α)
    (scored : ∀ a ∈ asked, (e a).Matches → (stored (e a).artifact).scorable = true)
    {s : RunSummary} (done : summarise (records (asked.map e)) = .ok s) :
    s.matched = asked.countP fun a => (e a).artifact.matched = some true := by
  rw [(aggregates done).matched, List.countP_filter, records, List.map_map, List.countP_map]
  refine List.countP_congr fun a listed => ?_
  simp only [Function.comp_apply, Bool.and_eq_true, truthy_matched, decide_eq_true_iff]
  constructor
  · exact fun both => both.1
  · exact fun matched => ⟨matched, scored a listed ((e a).matched_iff.mp matched)⟩

end scores

def shop : Owner RetrievalResult where
  loadCatalog _ := ⟨[("customers", ["name"])]⟩
  readFullSchema _ := ⟨[], []⟩

def statement : String := "SELECT name FROM customers"

/-- The parser does not know the statement that the model gives. -/
def unparsed : Parts Unit where
  retriever _ _ _ := .ok ⟨[⟨"column", "customers", some "name", some "text", none, "", .finite 1⟩], []⟩
  server _ _ _ := .error (.unexpected "no server")
  generator := { complete := fun _ => .ok { text := statement } }
  platform := (plainHarness {}).platform
  settings := .default
  activates _ := .ok ()
  database _ := ⟨fun _ _ => .ok none, fun _ _ => .ok ([], [])⟩
  typeName := id

def whoBought : Question where
  questionId := "q1"
  question := "who bought?"
  goldSql := statement
  dbId := "shop"

def registryOf (baseline : Baseline) : ScopeRegistry plainUnicode RetrievalResult :=
  openRegistry plainUnicode shop 10 "" baseline

/-- Both queries give one row. -/
private def outsideOf (baseline : Baseline) : Outside where
  answerer := firstAnswer plainUnicode plainWords (registryOf baseline) unparsed
  runQuery _ _ _ := some [[.str "Ada"]]
  elapsed := .finite 1

private theorem sql_plain : ((firstAnswer plainUnicode plainWords (registryOf .retrievalOnly)
    unparsed whoBought).toOption.map Attempt.sql) = some (some statement) := by
  decide +kernel

theorem sql_validated : ((firstAnswer plainUnicode plainWords (registryOf .withValidation)
    unparsed whoBought).toOption.map Attempt.sql) = some none := by
  decide +kernel

private theorem predict_shop (baseline : Baseline) {attempt : Attempt}
    (written : attempt.sql = some statement) :
    predict (plainHarness {}) (outsideOf baseline) whoBought (some [[.str "Ada"]]) attempt =
      .ok (.compared [[.str "Ada"]] ⟨.matched, true, "", false, false⟩) := by
  obtain ⟨sql, type, message, attempts, retrieved, input, output, model⟩ := attempt
  obtain rfl : sql = some statement := written
  rfl

private theorem answer_shop {baseline : Baseline} {attempt : Attempt}
    (answers : firstAnswer plainUnicode plainWords (registryOf baseline) unparsed whoBought =
      .ok attempt) : Runner.answer (outsideOf baseline) whoBought = attempt := by
  have same : (outsideOf baseline).answerer whoBought = .ok attempt := answers
  rw [Runner.answer, same]

end Baselines
