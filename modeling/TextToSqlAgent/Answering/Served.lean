import TextToSqlAgent.Api.Agreement
import TextToSqlAgent.Evals.Baselines

/-!
# What is measured is what is served

The benchmark keeps what is between the two steps of the answerer and files its failures;
the API takes the steps as one and publishes them. Over one source and one generator both
tell of the same statement, the same cost and the same failure.
-/

namespace Served

open Python Exceptions Schema Prompts Patterns Identifiers Errors Query Agreement Pipeline Scoping
open Runner (Question Attempt)
open Baselines (whoBought registryOf unparsed shop)

section served

variable (unicode : Unicode) (words : Words)

/-- `build_answerer`, as the service calls it. -/
def served (answerer : Answerer.QuestionAnswerer) : Query.QuestionAnswerer RetrievalResult where
  retrieve question := liftRaised (answerer.retrieve question)
  generate question context :=
    match answerer.generate unicode words question context with
    | .error failure => .error (.raised failure.exc)
    | .ok made => .ok ⟨made.sql, ⟨made.usage.inputTokens, made.usage.outputTokens⟩⟩

end served

/-- The codes under which the API publishes what the benchmark files. -/
def codesOf : Option String → List ErrorCode
  | some "retrieval_failed" => [ambiguousQuestion]
  | some "unanswerable" => [llmUnavailable]
  | some "llm_failed" => [rateLimited, llmUnavailable]
  | _ => []

/-- An answer of the benchmark, and the events of the API for the same question. -/
structure Alike {Cell : Type} (told : Except String Attempt) (events : List (Event Cell)) :
    Prop where
  statement : events.filterMap sqlOf = (told.toOption.bind Attempt.sql).toList
  usage : ∀ done ∈ events.filterMap doneOf, ∃ attempt, told = .ok attempt ∧
    attempt.inputTokens = done.2.2.2.inputTokens ∧ attempt.outputTokens = done.2.2.2.outputTokens
  failure : ∀ attempt, told = .ok attempt → attempt.sql = none →
    ∃ code ∈ codesOf attempt.errorType, ∃ named message, attempt.errorMessage = named ++ message ∧
      events.filterMap errorOf = [(code.code, message)]
  raised : ∀ type, told = .error type → ∃ shown, events.filterMap errorOf = [shown]

/-! ## How a failure is published -/

section failures

variable {Cell : Type} {requestId : String}

theorem codeFor_retrievalError {exc : DomainError}
    (retrieval : exc.cls.isinstance .retrievalError = true) : codeFor exc = ambiguousQuestion := by
  obtain ⟨cls, message, errorType, identifier⟩ := exc
  cases cls <;> first | rfl | cases retrieval

theorem codeFor_unanswerable {exc : DomainError}
    (refused : exc.cls.isinstance .unanswerableQuestionError = true) :
    codeFor exc = llmUnavailable := by
  obtain ⟨cls, message, errorType, identifier⟩ := exc
  cases cls <;> first | rfl | cases refused

theorem codeFor_llmError {exc : DomainError} (llm : exc.cls.isinstance .llmError = true) :
    codeFor exc = rateLimited ∨ codeFor exc = llmUnavailable := by
  obtain ⟨cls, message, errorType, identifier⟩ := exc
  cases cls <;> first | exact .inl rfl | exact .inr rfl | cases llm

theorem failureEvent_raised (exc : Raised) : ∃ code message,
    (failureEvent requestId (.raised exc) : Event Cell) = .error code message requestId :=
  ⟨_, _, failureEvent_handle requestId (fun _ => Exn.noConfusion) Exn.noConfusion⟩

/-- A failure that has a code of its own keeps its message. -/
theorem failureEvent_coded {exc : DomainError} (coded : codeFor exc ≠ internalError)
    (own : codeFor exc ≠ sqlValidationFailed) :
    (failureEvent requestId (.raised (.domain exc)) : Event Cell) =
      .error (codeFor exc).code exc.message requestId := by
  rw [failureEvent]
  split
  · rename_i invalid
    obtain ⟨cls, message, errorType, identifier⟩ := exc
    cases cls <;> first | exact absurd rfl own | cases invalid
  · rw [published, if_neg coded]
    rfl

end failures

/-! ## One question -/

section question

variable {unicode : Unicode} {words : Words} {Cell : Type} {parts : Parts Cell}
  {service : QueryService RetrievalResult Cell} {request : QueryRequest} {requestId : String}

/-- A failure of the answerer ends the stream, and nothing else is told but the stages. -/
theorem produce_failed {events : List (Event Cell)} {steps : List QueryStep} {exc : Raised}
    (work : answerWork service request requestId = ⟨events, steps, .error (.raised exc)⟩)
    (stages : ∀ event ∈ events, ∃ stage status, event = .stage stage status) :
    (produce service request requestId).filterMap sqlOf = [] ∧
      (produce service request requestId).filterMap doneOf = [] ∧
      (produce service request requestId).filterMap errorOf =
        [(failureEvent requestId (.raised exc) : Event Cell)].filterMap errorOf := by
  obtain ⟨code, message, published⟩ : ∃ code message,
    (failureEvent requestId (.raised exc) : Event Cell) = .error code message requestId :=
    failureEvent_raised exc
  have quiet {α : Type} (told : Event Cell → Option α)
      (silent : ∀ stage status, told (.stage stage status) = none) : events.filterMap told = [] := by
    rw [List.filterMap_eq_nil_iff]
    intro event listed
    obtain ⟨stage, status, rfl⟩ := stages event listed
    exact silent stage status
  simp only [produce, work, terminalEvent, List.filterMap_append, published]
  rw [quiet sqlOf fun _ _ => rfl, quiet doneOf fun _ _ => rfl, quiet errorOf fun _ _ => rfl]
  exact ⟨rfl, rfl, rfl⟩

/-- What is filed for a failure, and the stream that the same failure ends. -/
theorem alike_failed {told : Except String Attempt} {exc : Raised}
    {events : List (Event Cell)} {steps : List QueryStep}
    (work : answerWork service request requestId = ⟨events, steps, .error (.raised exc)⟩)
    (stages : ∀ event ∈ events, ∃ stage status, event = .stage stage status)
    (filed : ∀ attempt, told = .ok attempt → attempt.sql = none ∧ ∃ domain, exc = .domain domain ∧
      codeFor domain ∈ codesOf attempt.errorType ∧
      ∃ named, attempt.errorMessage = named ++ domain.message) :
    Alike told (produce service request requestId) := by
  obtain ⟨unsaid, unfinished, ended⟩ := produce_failed work stages
  refine ⟨?_, ?_, ?_, ?_⟩
  · rw [unsaid]
    cases told with
    | error type => rfl
    | ok attempt =>
      obtain ⟨wordless, -⟩ := filed attempt rfl
      rw [Except.toOption, Option.bind_some, wordless]
      rfl
  · rw [unfinished]
    intro done listed
    cases listed
  · intro attempt given _
    obtain ⟨-, domain, rfl, coded, named, message⟩ := filed attempt given
    have shown : codeFor domain ≠ internalError ∧ codeFor domain ≠ sqlValidationFailed := by
      revert coded
      unfold codesOf
      split <;> intro coded <;> simp only [List.mem_cons, List.not_mem_nil, or_false] at coded
      · rw [coded]
        decide
      · rw [coded]
        decide
      · rcases coded with coded | coded <;> rw [coded] <;> decide
    refine ⟨codeFor domain, coded, named, domain.message, message, ?_⟩
    rw [ended, failureEvent_coded shown.1 shown.2]
    rfl
  · intro type _
    obtain ⟨code, message, published⟩ : ∃ code message,
      (failureEvent requestId (.raised exc) : Event Cell) = .error code message requestId :=
      failureEvent_raised exc
    rw [ended, published]
    exact ⟨_, rfl⟩

theorem filed_retrieval {exc : Raised} {attempt : Attempt}
    (filed : parts.retrievalFailed exc = .ok attempt) :
    attempt.sql = none ∧ ∃ domain, exc = .domain domain ∧
      codeFor domain ∈ codesOf attempt.errorType ∧
      ∃ named, attempt.errorMessage = named ++ domain.message := by
  cases exc with
  | unexpected text => cases filed
  | domain domain =>
    rw [Parts.retrievalFailed] at filed
    split at filed
    · rename_i retrieval
      obtain rfl := Except.ok.inj filed
      exact ⟨rfl, domain, rfl, List.mem_singleton.mpr (codeFor_retrievalError retrieval), "",
        (String.empty_append).symm⟩
    · cases filed

theorem filed_generation {retrieved : List (String × Option String)} {failure : Generator.Failure}
    {attempt : Attempt} (filed : parts.generationFailed retrieved failure = .ok attempt) :
    attempt.sql = none ∧ ∃ domain, failure.exc = .domain domain ∧
      codeFor domain ∈ codesOf attempt.errorType ∧
      ∃ named, attempt.errorMessage = named ++ domain.message := by
  obtain ⟨exc, usage, model⟩ := failure
  cases exc with
  | unexpected text => cases filed
  | domain domain =>
    rw [Parts.generationFailed] at filed
    dsimp only at filed
    split at filed
    · rename_i refused
      obtain rfl := Except.ok.inj filed
      exact ⟨rfl, domain, rfl, List.mem_singleton.mpr (codeFor_unanswerable refused), "",
        (String.empty_append).symm⟩
    · split at filed
      · rename_i llm
        obtain rfl := Except.ok.inj filed
        refine ⟨rfl, domain, rfl, ?_, domain.cls.name ++ ": ", rfl⟩
        rcases codeFor_llmError llm with coded | coded
        · rw [coded]
          exact List.mem_cons_self
        · rw [coded]
          exact List.mem_cons_of_mem _ List.mem_cons_self
      · cases filed

/-- A candidate's events, however the rest of the work goes. -/
theorem alike_candidate {attempt : Attempt} {candidate : Query.Candidate}
    {context : RetrievalResult} (retrieves : service.answerer.retrieve request.question = .ok context)
    (generates : service.answerer.generate request.question context = .ok candidate)
    (statement : attempt.sql = some candidate.sql)
    (input : attempt.inputTokens = candidate.usage.inputTokens)
    (output : attempt.outputTokens = candidate.usage.outputTokens) :
    Alike (.ok attempt) (produce service request requestId) := by
  have told : (produce service request requestId).filterMap sqlOf = [candidate.sql] ∧
      ∀ done ∈ (produce service request requestId).filterMap doneOf,
        done.2.2.2 = candidate.usage := by
    simp only [produce, answerWork, retrieves, generates]
    split
    · rw [explainCandidate]
      generalize (Executor.explainOnly _ _ _ _ _ _).result = outcome
      cases outcome with
      | error exc =>
        obtain ⟨code, message, published⟩ : ∃ code message,
          (failureEvent requestId (.raised exc) : Event Cell) = .error code message requestId :=
          failureEvent_raised exc
        simp only [liftRaised, terminalEvent, published]
        exact ⟨rfl, fun done listed => absurd listed List.not_mem_nil⟩
      | ok result =>
        refine ⟨rfl, fun done listed => ?_⟩
        obtain rfl := List.mem_singleton.mp listed
        rfl
    · rw [executeCandidate]
      generalize (Executor.execute _ _ _ _ _ _ _ _).result = outcome
      cases outcome with
      | error exc =>
        obtain ⟨code, message, published⟩ : ∃ code message,
          (failureEvent requestId (.raised exc) : Event Cell) = .error code message requestId :=
          failureEvent_raised exc
        simp only [liftRaised, terminalEvent, published]
        exact ⟨rfl, fun done listed => absurd listed List.not_mem_nil⟩
      | ok result =>
        refine ⟨rfl, fun done listed => ?_⟩
        obtain rfl := List.mem_singleton.mp listed
        rfl
  refine ⟨?_, ?_, ?_, ?_⟩
  · rw [told.1, Except.toOption, Option.bind_some, statement]
    rfl
  · intro done listed
    rw [told.2 done listed]
    exact ⟨attempt, rfl, input, output⟩
  · intro other given wordless
    obtain rfl := Except.ok.inj given
    rw [statement] at wordless
    cases wordless
  · intro type given
    cases given

/-- Within a scope that does not validate. -/
theorem alike_answerIn {scope : DatabaseScope RetrievalResult} (unvalidated : scope.validator = none)
    (built : service.answerer =
      served unicode words ⟨parts.context scope.source, parts.generator⟩) (path : String) :
    Alike (answerIn unicode words parts scope request.question path).1
      (produce service request requestId) := by
  rw [answerIn]
  dsimp only
  cases retrieves : Answerer.QuestionAnswerer.retrieve
      ⟨parts.context scope.source, parts.generator⟩ request.question with
  | error exc =>
    have work : answerWork service request requestId =
        ⟨[], [⟨"answer", "error"⟩], .error (.raised exc)⟩ := by
      rw [answerWork, built, served]
      simp only [retrieves, liftRaised]
    refine alike_failed work (fun event listed => absurd listed List.not_mem_nil) ?_
    intro attempt filed
    exact filed_retrieval filed
  | ok context =>
    have first : service.answerer.retrieve request.question = .ok context := by
      rw [built, served]
      simp only [retrieves, liftRaised]
    cases generates : Answerer.QuestionAnswerer.generate unicode words
        ⟨parts.context scope.source, parts.generator⟩ request.question context with
    | error failure =>
      have second : service.answerer.generate request.question context =
          .error (.raised failure.exc) := by
        rw [built, served]
        simp only [generates]
      have work : answerWork service request requestId =
          ⟨[.stage "retrieve" "ok"], [⟨"answer", "error"⟩], .error (.raised failure.exc)⟩ := by
        rw [answerWork]
        simp only [first, second]
      refine alike_failed work ?_ ?_
      · intro event listed
        exact ⟨_, _, List.mem_singleton.mp listed⟩
      · intro attempt filed
        simp only [generates] at filed
        exact filed_generation filed
    | ok made =>
      have second : service.answerer.generate request.question context =
          .ok ⟨made.sql, ⟨made.usage.inputTokens, made.usage.outputTokens⟩⟩ := by
        rw [built, served]
        simp only [generates]
      simp only [generates, unvalidated]
      exact alike_candidate first second rfl rfl rfl

end question

/-! ## A run, and the service -/

section runs

variable {unicode : Unicode} {words : Words} {Cell : Type} {owner : Owner RetrievalResult}
  {topK : Nat} {pre : String}

end runs

/-- The provider's quota is spent. -/
def spent : Parts Unit where
  __ := unparsed
  generator :=
    { complete := fun _ => .error (.domain ⟨.llmQuotaExceededError, "no calls left", none, none⟩) }

def serving : QueryService RetrievalResult Unit where
  answerer := served plainUnicode plainWords ⟨spent.retriever "shop" 10, spent.generator⟩
  platform := spent.platform
  database := spent.database ""
  settings := .default
  catalog := shop.loadCatalog "shop"

def whoBoughtIt : QueryRequest where
  question := "who bought?"
  asked := by decide

private theorem resolved_shop : ((registryOf .retrievalOnly).scope "shop").toOption.map
    (fun found => found.1.dataset) = some "shop" := by
  decide +kernel

private theorem filed_spent : (firstAnswer plainUnicode plainWords (registryOf .retrievalOnly)
    spent whoBought).toOption.map (fun attempt => (attempt.sql, attempt.errorType)) =
      some (none, some "llm_failed") := by
  decide +kernel

end Served
