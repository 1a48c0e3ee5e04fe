import Mathlib.Algebra.BigOperators.Ring.Finset
import TextToSqlAgent.Evals.Baselines

/-!
# What a run reports of retrieval and of cost

Recall is a matter of what retrieval surfaced, whatever came of it. The bill is that of
the completed calls, but for those with nothing in their reply and those whose question
raised afterwards.
-/

namespace Reports

open Python Exceptions Schema Prompts Patterns Identifiers Formatting Recall Artifacts Summary
  Evaluations Scoping Pipeline Answerer Generator Fallible
open Runner hiding answer
open Validator hiding Failure
open Baselines (unparsed whoBought registryOf sql_validated)

section answers

variable {unicode : Unicode} {words : Words} {Cell : Type}

/-! ## What an answer is made of -/

/-- The completed call for a context, where one is made. -/
def heard (generator : SQLGenerator) (question : String) (context : RetrievalResult) :
    Option LLMResponse :=
  if strip question = "" then none
  else (generator.complete
    (buildMessages question context generator.dialect generator.maxRows)).toOption

/-- What is reported of its cost: nothing for a reply with nothing in it. -/
def reported (words : Words) (response : Option LLMResponse) : Usage :=
  match response with
  | none => {}
  | some r => if stripFormatting words r.text = "" then {} else r.usage

theorem usage_of_generated {generator : SQLGenerator} {question : String}
    {context : RetrievalResult} {generated : Generated}
    (done : generateDetailed unicode words generator question context = .ok generated) :
    reported words (heard generator question context) = generated.usage := by
  rw [generateDetailed] at done
  split_ifs at done with blank
  obtain ⟨response, completed, read⟩ := bind_ok_iff.mp done
  obtain ⟨rfl, written, -⟩ := read_ok_iff.mp read
  cases reply : generator.complete
      (buildMessages question context generator.dialect generator.maxRows) with
  | error exc =>
    rw [reply] at completed
    cases completed
  | ok other =>
    rw [reply] at completed
    obtain rfl := Except.ok.inj completed
    dsimp only at written
    rw [heard, if_neg blank, reply, Except.toOption, reported, if_neg written]

theorem emptyReply_eq (response : LLMResponse) :
    ∃ message, emptyReply unicode response = responseError message := by
  rw [emptyReply]
  split
  · exact ⟨_, rfl⟩
  · exact ⟨_, rfl⟩

/-- A failure carries a cost only as a refusal. -/
structure Charged (failure : Generator.Failure) : Prop where
  free : (∀ exc, failure.exc = .domain exc →
    exc.cls.isinstance .unanswerableQuestionError = false) → failure.usage = {}

theorem usage_of_failed {generator : SQLGenerator} {question : String}
    {context : RetrievalResult} {failure : Generator.Failure}
    (done : generateDetailed unicode words generator question context = .error failure) :
    reported words (heard generator question context) = failure.usage ∧ Charged failure := by
  rw [generateDetailed] at done
  split_ifs at done with blank
  · obtain rfl := Except.error.inj done
    rw [heard, if_pos blank]
    exact ⟨rfl, ⟨fun _ => rfl⟩⟩
  · cases reply : generator.complete
        (buildMessages question context generator.dialect generator.maxRows) with
    | error exc =>
      rw [reply] at done
      obtain rfl := Except.error.inj done
      rw [heard, if_neg blank, reply]
      exact ⟨rfl, ⟨fun _ => rfl⟩⟩
    | ok response =>
      rw [reply] at done
      simp only [Except.mapError, bind, Except.bind, Generator.read] at done
      rw [heard, if_neg blank, reply, Except.toOption, reported]
      generalize stripFormatting words response.text = sql at done ⊢
      by_cases empty : sql = ""
      · obtain ⟨message, same⟩ : ∃ message, emptyReply unicode response = responseError message :=
          emptyReply_eq response
        rw [if_pos empty] at done ⊢
        obtain rfl := Except.error.inj done
        rw [same]
        exact ⟨rfl, ⟨fun _ => rfl⟩⟩
      · rw [if_neg empty] at done ⊢
        split_ifs at done
        obtain rfl := Except.error.inj done
        refine ⟨rfl, ⟨fun other => ?_⟩⟩
        exact absurd (other _ rfl) (by decide)

/-- What an attempt holds of what was retrieved, and what it reports of a cost. -/
structure Holds (retrieved : List (String × Option String)) (usage : Usage) (attempt : Attempt) :
    Prop where
  retrieved : attempt.retrieved = retrieved
  input : attempt.inputTokens = usage.inputTokens
  output : attempt.outputTokens = usage.outputTokens

variable {parts : Parts Cell}

theorem holds_scopeUnavailable {exc : Raised} {attempt : Attempt}
    (caught : parts.scopeUnavailable exc = .ok attempt) : Holds [] {} attempt := by
  unfold Parts.scopeUnavailable at caught
  split at caught
  · split_ifs at caught
    cases caught
    exact ⟨rfl, rfl, rfl⟩
  · cases caught
    exact ⟨rfl, rfl, rfl⟩

theorem holds_retrievalFailed {exc : Raised} {attempt : Attempt}
    (caught : parts.retrievalFailed exc = .ok attempt) : Holds [] {} attempt := by
  unfold Parts.retrievalFailed at caught
  split at caught
  · split_ifs at caught
    cases caught
    exact ⟨rfl, rfl, rfl⟩
  · cases caught

theorem holds_generationFailed {retrieved : List (String × Option String)}
    {failure : Generator.Failure} {attempt : Attempt} (charged : Charged failure)
    (caught : parts.generationFailed retrieved failure = .ok attempt) :
    Holds retrieved failure.usage attempt := by
  unfold Parts.generationFailed at caught
  split at caught
  · rename_i domain raised
    split_ifs at caught with refused
    · cases caught
      exact ⟨rfl, rfl, rfl⟩
    · cases caught
      have free : failure.usage = {} := charged.free fun exc same => by
        obtain rfl := Raised.domain.inj (raised.symm.trans same)
        simpa using refused
      rw [free]
      exact ⟨rfl, rfl, rfl⟩
  · cases caught

theorem holds_judged {retrieved : List (String × Option String)} {usage : Usage}
    {attempt : Attempt} (holds : Holds retrieved usage attempt) (result : ValidationResult) :
    Holds retrieved usage (judged attempt result) := by
  rw [judged]
  split
  · exact ⟨holds.retrieved, holds.input, holds.output⟩
  · exact ⟨holds.retrieved, holds.input, holds.output⟩

/-- What retrieval found for the question, where it has a scope. -/
def found (start : ScopeRegistry unicode RetrievalResult) (parts : Parts Cell)
    (question : Question) : Option RetrievalResult :=
  match (cleared start).scope question.dbId with
  | .error _ => none
  | .ok (scope, _) => (parts.context scope.source question.question).toOption

/-- What was retrieved, for recall to be computed over. -/
def seen (start : ScopeRegistry unicode RetrievalResult) (parts : Parts Cell)
    (question : Question) : List (String × Option String) :=
  ((found start parts question).map surfaced).getD []

/-- The completed call of a question, where one was made. -/
def completed (start : ScopeRegistry unicode RetrievalResult) (parts : Parts Cell)
    (question : Question) : Option LLMResponse :=
  (found start parts question).bind (heard parts.generator question.question)

theorem failed_of_generate {answerer : QuestionAnswerer} {question : String}
    {context : RetrievalResult} {failure : Generator.Failure}
    (failed : answerer.generate unicode words question context = .error failure) :
    generateDetailed unicode words answerer.generator question context = .error failure := by
  rw [QuestionAnswerer.generate] at failed
  cases done : generateDetailed unicode words answerer.generator question context with
  | error other =>
    rw [done] at failed
    exact congrArg Except.error (Except.error.inj failed)
  | ok generated =>
    rw [done] at failed
    cases failed

/-- Every answer that is given holds what was retrieved, and reports its call. -/
theorem holds_firstAnswer {start : ScopeRegistry unicode RetrievalResult} {question : Question}
    {attempt : Attempt} (answers : firstAnswer unicode words start parts question = .ok attempt) :
    Holds (seen start parts question) (reported words (completed start parts question))
      attempt := by
  rw [firstAnswer, call] at answers
  rw [seen, completed, found]
  split at answers
  · rename_i exc unscoped
    rw [unscoped]
    exact holds_scopeUnavailable answers
  · rename_i scope next given
    rw [given]
    simp only [answerIn, QuestionAnswerer.retrieve] at answers
    cases searched : parts.context scope.source question.question with
    | error exc =>
      simp only [searched] at answers
      simp only [searched, Except.toOption]
      exact holds_retrievalFailed answers
    | ok context =>
      simp only [searched] at answers
      simp only [searched, Except.toOption]
      change Holds (surfaced context)
        (reported words (heard parts.generator question.question context)) attempt
      cases made : (⟨parts.context scope.source, parts.generator⟩ : QuestionAnswerer).generate
          unicode words question.question context with
      | error failure =>
        simp only [made] at answers
        obtain ⟨cost, charged⟩ := usage_of_failed (failed_of_generate made)
        rw [cost]
        exact holds_generationFailed charged answers
      | ok candidate =>
        simp only [made] at answers
        obtain ⟨generated, done, rfl⟩ := generate_ok_iff.mp made
        rw [usage_of_generated done]
        have made : Holds (surfaced context) generated.usage (answered ⟨generated.sql,
            retrievedColumns context, generated.usage, generated.model, context⟩
              (some generated.sql)) := ⟨rfl, rfl, rfl⟩
        split at answers
        · cases answers
          exact made
        · split at answers
          · cases answers
          · split at answers
            · cases answers
            · cases answers
              exact holds_judged made _

end answers

/-! ## A question that was asked -/

/-- One evaluated question of a run, with what it met outside. -/
structure Asked (harness : Harness) (words : Words) (Cell : Type) {unicode : Unicode}
    (start : ScopeRegistry unicode RetrievalResult) where
  parts : Parts Cell
  evaluation : Evaluation harness
  answers : evaluation.outside.answerer evaluation.question =
    firstAnswer unicode words start parts evaluation.question

namespace Asked

variable {harness : Harness} {words : Words} {Cell : Type} {unicode : Unicode}
  {start : ScopeRegistry unicode RetrievalResult} (a : Asked harness words Cell start)

/-- The answerer did not raise. -/
def Answered : Prop :=
  ∃ attempt, a.evaluation.outside.answerer a.evaluation.question = .ok attempt

def surfaced : List (String × Option String) := seen start a.parts a.evaluation.question

/-- The completed call, where one was made. -/
def reply : Option LLMResponse := completed start a.parts a.evaluation.question

/-- What the provider counts for the question. -/
def billed : Usage :=
  match a.reply with
  | none => {}
  | some r => r.usage

/-- The call is not reported: its reply has nothing in it, or the question raised later. -/
def Lost : Prop := (∃ r ∈ a.reply, stripFormatting words r.text = "") ∨ ¬a.Answered

variable {a}

theorem holds (answered : a.Answered) :
    Holds a.surfaced (reported words a.reply) a.evaluation.attempt := by
  obtain ⟨attempt, given⟩ := answered
  rw [Baselines.attempt_of_ok given]
  exact holds_firstAnswer (a.answers.symm.trans given)

theorem reported_of_not_lost (kept : ¬a.Lost) : reported words a.reply = a.billed := by
  rw [billed]
  cases made : a.reply with
  | none => rfl
  | some r =>
    have written : stripFormatting words r.text ≠ "" := fun empty => kept (.inl ⟨r, made, empty⟩)
    rw [reported, if_neg written]

theorem tokens_of_lost (lost : a.Lost) :
    a.evaluation.attempt.inputTokens = 0 ∧ a.evaluation.attempt.outputTokens = 0 := by
  by_cases answered : a.Answered
  · have holding := holds answered
    rcases lost with ⟨r, made, empty⟩ | raised
    · have nothing : reported words a.reply = {} := by
        rw [Option.mem_def.mp made, reported, if_pos empty]
      rw [holding.input, holding.output, nothing]
      exact ⟨rfl, rfl⟩
    · exact absurd answered raised
  · cases given : a.evaluation.outside.answerer a.evaluation.question with
    | ok attempt => exact absurd ⟨attempt, given⟩ answered
    | error type =>
      rw [Baselines.attempt_of_error given]
      exact ⟨rfl, rfl⟩

theorem tokens_of_not_lost (kept : ¬a.Lost) :
    a.evaluation.attempt.inputTokens = a.billed.inputTokens ∧
      a.evaluation.attempt.outputTokens = a.billed.outputTokens := by
  have answered : a.Answered := by
    by_contra raised
    exact kept (.inr raised)
  rw [← reported_of_not_lost kept]
  exact ⟨(holds answered).input, (holds answered).output⟩

end Asked

/-! ## The summary -/

section summaries

variable {harness : Harness} {words : Words} {Cell : Type} {unicode : Unicode}
  {start start' : ScopeRegistry unicode RetrievalResult}

theorem sumOf_nat (numbers : List Nat) :
    sumOf (numbers.map fun n : Nat => Json.int n) = .ok (.finite (numbers.sum : Nat)) := by
  have floats := sumOf_finite (numbers.map fun n : Nat => (n : Rat))
  have same : sumOf (numbers.map fun n : Nat => Json.int n) =
      sumOf ((numbers.map fun n : Nat => (n : Rat)).map fun q => .float (.finite q)) := by
    simp only [sumOf, List.mapM_map]
    congr 2
  rw [same, floats, Nat.cast_list_sum]

/-- Sums of which the one is nowhere above the other are the same where nothing is below. -/
theorem sum_eq_iff_of_le {α : Type} {f g : α → Nat} {l : List α} (below : ∀ a ∈ l, f a ≤ g a) :
    (l.map f).sum = (l.map g).sum ↔ ∀ a ∈ l, f a = g a := by
  constructor
  · intro same a listed
    by_contra differs
    have less := List.sum_lt_sum f g below ⟨a, listed, lt_of_le_of_ne (below a listed) differs⟩
    omega
  · intro same
    rw [List.map_congr_left same]

open Classical in
/-- What is recorded of one side of the bill. -/
noncomputable def recordedTokens (side : Usage → Nat) (a : Asked harness words Cell start) : Nat :=
  if a.Lost then 0 else side a.billed

theorem recordedTokens_le (side : Usage → Nat) (a : Asked harness words Cell start) :
    recordedTokens side a ≤ side a.billed := by
  rw [recordedTokens]
  split
  · exact Nat.zero_le _
  · exact le_rfl

theorem recordedTokens_eq_iff (side : Usage → Nat) (a : Asked harness words Cell start) :
    recordedTokens side a = side a.billed ↔ (a.Lost → side a.billed = 0) := by
  rw [recordedTokens]
  by_cases lost : a.Lost
  · rw [if_pos lost]
    constructor
    · exact fun same _ => same.symm
    · exact fun free => (free lost).symm
  · rw [if_neg lost]
    exact ⟨fun _ lost' => absurd lost' lost, fun _ => rfl⟩

theorem tokens_artifact (a : Asked harness words Cell start) :
    a.evaluation.artifact.inputTokens = recordedTokens Usage.inputTokens a ∧
      a.evaluation.artifact.outputTokens = recordedTokens Usage.outputTokens a := by
  have kept : a.evaluation.artifact.inputTokens = a.evaluation.attempt.inputTokens ∧
      a.evaluation.artifact.outputTokens = a.evaluation.attempt.outputTokens := by
    have evaluated := a.evaluation.evaluated
    simp only [evaluate] at evaluated
    obtain ⟨prediction, -, artifact⟩ := bind_ok_iff.mp evaluated
    rw [← Except.ok.inj artifact]
    exact ⟨rfl, rfl⟩
  rw [kept.1, kept.2, recordedTokens, recordedTokens]
  by_cases lost : a.Lost
  · rw [if_pos lost, if_pos lost]
    exact Asked.tokens_of_lost lost
  · rw [if_neg lost, if_neg lost]
    exact Asked.tokens_of_not_lost lost

theorem tokens_of_summary (asked : List (Asked harness words Cell start)) {s : RunSummary}
    (done : summarise (records (asked.map Asked.evaluation)) = .ok s) :
    s.inputTokens = .finite ((asked.map (recordedTokens Usage.inputTokens)).sum : Nat) ∧
      s.outputTokens = .finite ((asked.map (recordedTokens Usage.outputTokens)).sum : Nat) := by
  have inputs : (records (asked.map Asked.evaluation)).map StoredArtifact.inputTokens =
      (asked.map (recordedTokens Usage.inputTokens)).map fun n : Nat => Json.int n := by
    simp only [records, List.map_map]
    exact List.map_congr_left fun a _ => congrArg Json.int (tokens_artifact a).1
  have outputs : (records (asked.map Asked.evaluation)).map StoredArtifact.outputTokens =
      (asked.map (recordedTokens Usage.outputTokens)).map fun n : Nat => Json.int n := by
    simp only [records, List.map_map]
    exact List.map_congr_left fun a _ => congrArg Json.int (tokens_artifact a).2
  obtain ⟨⟨⟩, -, done⟩ := bind_ok_iff.mp done
  obtain ⟨⟨⟩, -, done⟩ := bind_ok_iff.mp done
  obtain ⟨unresolved, -, done⟩ := bind_ok_iff.mp done
  obtain ⟨recalls, -, done⟩ := bind_ok_iff.mp done
  obtain ⟨input, inputSum, done⟩ := bind_ok_iff.mp done
  obtain ⟨output, outputSum, done⟩ := bind_ok_iff.mp done
  obtain ⟨duration, -, done⟩ := bind_ok_iff.mp done
  obtain rfl := Except.ok.inj done
  rw [inputs, sumOf_nat] at inputSum
  rw [outputs, sumOf_nat] at outputSum
  exact ⟨(Except.ok.inj inputSum).symm, (Except.ok.inj outputSum).symm⟩

/-- The token figures of a summary, over every question of a run: they are what the provider
counts exactly when no call that is lost cost anything. -/
theorem bill_exact (asked : List (Asked harness words Cell start)) {s : RunSummary}
    (done : summarise (records (asked.map Asked.evaluation)) = .ok s) :
    (s.inputTokens = .finite ((asked.map fun a => a.billed.inputTokens).sum : Nat) ∧
        s.outputTokens = .finite ((asked.map fun a => a.billed.outputTokens).sum : Nat)) ↔
      ∀ a ∈ asked, a.Lost → a.billed.inputTokens = 0 ∧ a.billed.outputTokens = 0 := by
  have side (tokens : Usage → Nat) :
      (PyFloat.finite ((asked.map (recordedTokens tokens)).sum : Nat) =
          .finite ((asked.map fun a => tokens a.billed).sum : Nat)) ↔
        ∀ a ∈ asked, a.Lost → tokens a.billed = 0 := by
    rw [PyFloat.finite.injEq, Nat.cast_inj,
      sum_eq_iff_of_le fun a _ => recordedTokens_le tokens a]
    exact forall₂_congr fun a _ => recordedTokens_eq_iff tokens a
  obtain ⟨input, output⟩ := tokens_of_summary asked done
  rw [input, output, side, side]
  constructor
  · rintro ⟨free, freeToo⟩ a listed lost
    exact ⟨free a listed lost, freeToo a listed lost⟩
  · intro free
    exact ⟨fun a listed lost => (free a listed lost).1, fun a listed lost => (free a listed lost).2⟩

/-- A model that spends its allowance on thinking. -/
def thinking : Parts Unit where
  __ := unparsed
  generator := { complete := fun _ => .ok { text := "", usage := ⟨12, 45, 0⟩, truncated := true } }

private theorem sql_thinking : ((firstAnswer plainUnicode plainWords (registryOf .retrievalOnly)
    thinking whoBought).toOption.map Attempt.sql) = some none := by
  decide +kernel

/-- A question whose answer has no statement is evaluated whatever the database gives. -/
private theorem exists_asked {baseline : Baseline} {parts : Parts Unit}
    (given : ((firstAnswer plainUnicode plainWords (registryOf baseline) parts
      whoBought).toOption.map Attempt.sql) = some none) :
    ∃ a : Asked (plainHarness {}) plainWords Unit (registryOf baseline),
      a.parts = parts ∧ a.evaluation.question = whoBought ∧ a.Answered := by
  obtain ⟨attempt, given, wordless⟩ := Option.map_eq_some_iff.mp given
  let outside : Outside :=
    { answerer := firstAnswer plainUnicode plainWords (registryOf baseline) parts
      runQuery := fun _ _ _ => none
      elapsed := .finite 1 }
  have answers : outside.answerer whoBought = .ok attempt := toOption_eq_some_iff.mp given
  have unasked : predict (plainHarness {}) outside whoBought
      (outside.runQuery 0 whoBought.goldSql whoBought.dbId) (Runner.answer outside whoBought) =
        .ok .notRun := by
    rw [Runner.answer, answers]
    exact Baselines.predict_wordless wordless
  obtain ⟨e, met, asked⟩ := Baselines.exists_evaluation unasked
  have own : e.outside.answerer e.question =
      firstAnswer plainUnicode plainWords (registryOf baseline) parts e.question := by
    rw [met]
  refine ⟨⟨parts, e, own⟩, rfl, asked, attempt, ?_⟩
  rw [met, asked]
  exact answers

private theorem completed_thinking : completed (registryOf .retrievalOnly) thinking whoBought =
    some { text := "", usage := ⟨12, 45, 0⟩, truncated := true } := by
  decide +kernel

private theorem stripped_nothing : stripFormatting plainWords "" = "" := by
  decide +kernel

/-- What the thinking cost is not in the figures. -/
theorem bill_exact_thinking :
    ∃ (a : Asked (plainHarness {}) plainWords Unit (registryOf .retrievalOnly)) (s : RunSummary),
      summarise (records [a.evaluation]) = .ok s ∧ a.billed.outputTokens = 45 ∧
        ¬(s.inputTokens = .finite (12 : Nat) ∧ s.outputTokens = .finite (45 : Nat)) := by
  obtain ⟨a, parts, asked, -⟩ := exists_asked sql_thinking
  have reply : a.reply = some { text := "", usage := ⟨12, 45, 0⟩, truncated := true } := by
    rw [Asked.reply, parts, asked]
    exact completed_thinking
  have billed : a.billed = ⟨12, 45, 0⟩ := by
    rw [Asked.billed, reply]
  have lost : a.Lost := .inl ⟨_, reply, stripped_nothing⟩
  obtain ⟨s, done⟩ := summarise_stored [a.evaluation.artifact]
  refine ⟨a, s, done, by rw [billed], ?_⟩
  rintro ⟨input, output⟩
  have exact := (bill_exact [a] done).mp (by
    simp only [List.map_cons, List.map_nil, billed]
    exact ⟨input, output⟩)
  have free := (exact a List.mem_cons_self lost).1
  rw [billed] at free
  exact absurd free (by decide)

/-- The same reference query, and the same retrieved for it; neither answerer raised. -/
structure Alike (a : Asked harness words Cell start) (b : Asked harness words Cell start') :
    Prop where
  gold : a.evaluation.question.goldSql = b.evaluation.question.goldSql
  surfaced : a.surfaced = b.surfaced
  answered : a.Answered
  alsoAnswered : b.Answered

/-- Recall is of the reference query and of what was retrieved. -/
theorem recallOf_eq {a : Asked harness words Cell start} {b : Asked harness words Cell start'}
    (alike : Alike a b) (k : Int) :
    recallOf a.evaluation.artifact k = recallOf b.evaluation.artifact k := by
  rw [recallOf, recallOf, Neutrality.recallAtK_eq, Neutrality.recallAtK_eq, Evaluation.recalled,
    Evaluation.recalled, alike.gold, (Asked.holds alike.answered).retrieved,
    (Asked.holds alike.alsoAnswered).retrieved, alike.surfaced]

/-- Two runs that retrieved the same for the same reference queries report the same recall:
whatever the models replied and whatever was validated, as long as nothing raised. -/
theorem recall_of_retrieval {one : List (Asked harness words Cell start)}
    {other : List (Asked harness words Cell start')}
    (alike : List.Forall₂ Alike one other) {s t : RunSummary}
    (done : summarise (records (one.map Asked.evaluation)) = .ok s)
    (alsoDone : summarise (records (other.map Asked.evaluation)) = .ok t) :
    s.recalls = t.recalls := by
  have measured : (∃ e ∈ one.map Asked.evaluation, Neutrality.Measured e) ↔
      ∃ e ∈ other.map Asked.evaluation, Neutrality.Measured e := by
    clear done alsoDone
    induction alike with
    | nil => rfl
    | cons same _ ih =>
      rw [List.map_cons, List.map_cons, List.exists_mem_cons_iff, List.exists_mem_cons_iff, ih]
      refine or_congr_left ?_
      rw [Neutrality.Measured, Neutrality.Measured, same.gold]
  have averages (k : Int) : Neutrality.values (one.map Asked.evaluation) k =
      Neutrality.values (other.map Asked.evaluation) k := by
    clear done alsoDone measured
    induction alike with
    | nil => rfl
    | cons same _ ih =>
      rw [Neutrality.values, Neutrality.values] at ih
      rw [Neutrality.values, Neutrality.values, List.map_cons, List.map_cons, List.filterMap_cons,
        List.filterMap_cons, recallOf_eq same, ih]
  rw [Neutrality.recall_eq done, Neutrality.recall_eq alsoDone, Neutrality.cutoffs_congr measured]
  refine List.map_congr_left fun k _ => ?_
  rw [Neutrality.average, Neutrality.average, averages k]

private theorem seen_alike : seen (registryOf .retrievalOnly) thinking whoBought =
    seen (registryOf .withValidation) unparsed whoBought := by
  decide +kernel

/-- A model that thinks only, and another one whose statement is refused. -/
theorem recall_of_retrieval_thinking :
    ∃ (a : Asked (plainHarness {}) plainWords Unit (registryOf .retrievalOnly))
      (b : Asked (plainHarness {}) plainWords Unit (registryOf .withValidation)) (s t : RunSummary),
      summarise (records [a.evaluation]) = .ok s ∧ summarise (records [b.evaluation]) = .ok t ∧
        s.recalls = t.recalls := by
  obtain ⟨a, parts, asked, answered⟩ := exists_asked sql_thinking
  obtain ⟨b, otherParts, alsoAsked, alsoAnswered⟩ := exists_asked sql_validated
  obtain ⟨s, done⟩ := summarise_stored [a.evaluation.artifact]
  obtain ⟨t, alsoDone⟩ := summarise_stored [b.evaluation.artifact]
  have surfaced : a.surfaced = b.surfaced := by
    rw [Asked.surfaced, Asked.surfaced, parts, asked, otherParts, alsoAsked]
    exact seen_alike
  have gold : a.evaluation.question.goldSql = b.evaluation.question.goldSql := by
    rw [asked, alsoAsked]
  have alike : List.Forall₂ Alike [a] [b] :=
    .cons ⟨gold, surfaced, answered, alsoAnswered⟩ .nil
  exact ⟨a, b, s, t, done, alsoDone, recall_of_retrieval alike done alsoDone⟩

end summaries

end Reports
