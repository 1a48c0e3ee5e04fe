import TextToSqlAgent.Answering.Answerer
import TextToSqlAgent.Evals.Scoping

/-!
# The pipeline that a benchmark asks

`PipelineAnswerer.__call__` over the scope registry: resolve the database, retrieve,
generate, and validate where the baseline does. The registry keeps what it built, and
validation points the read-only session at a schema for good; neither shows in an
answer.
-/

namespace Pipeline

open Python Exceptions Schema Prompts Patterns Identifiers Catalog Settings Generator Answerer Scoping
open Validator hiding Failure
open Runner (Question Attempt)

/-! ## One question -/

/-- What a question meets outside: the two ways to search a dataset, the model behind the
generator, the session that is pointed at a schema and the database it then sees, and the
class names of the exceptions outside the hierarchy. -/
structure Parts (Cell : Type) where
  retriever : String → Nat → String → Except Raised RetrievalResult
  server : String → Nat → String → Except Raised RetrievalResult
  generator : SQLGenerator
  platform : Platform
  settings : ExecutionSettings
  activates : String → Except Raised Unit
  database : String → Database Cell
  typeName : String → String

namespace Parts

variable {Cell : Type} (parts : Parts Cell)

/-- The context of a source: the whole catalog, or what a search finds. -/
def context : ContextSource RetrievalResult → String → Except Raised RetrievalResult
  | .fullSchema _ result, _ => .ok result
  | .retriever dataset topK, question => parts.retriever dataset topK question
  | .mcp dataset topK, question => parts.server dataset topK question

def typeOf : Raised → String
  | .domain exc => exc.cls.name
  | .unexpected text => parts.typeName text

/-- `except (RetrievalError, ValueError)`: the registry raises no other exception from
outside the hierarchy than the `ValueError`. -/
def scopeUnavailable (exc : Raised) : Except String Attempt :=
  match exc with
  | .domain domain =>
    if domain.cls.isinstance .retrievalError then
      .ok { errorType := some "scope_unavailable", errorMessage := domain.message }
    else .error (parts.typeOf exc)
  | .unexpected text => .ok { errorType := some "scope_unavailable", errorMessage := text }

/-- `except RetrievalError`. -/
def retrievalFailed (exc : Raised) : Except String Attempt :=
  match exc with
  | .domain domain =>
    if domain.cls.isinstance .retrievalError then
      .ok { errorType := some "retrieval_failed", errorMessage := domain.message }
    else .error (parts.typeOf exc)
  | .unexpected _ => .error (parts.typeOf exc)

/-- `except UnanswerableQuestionError`, then `except LLMError`. -/
def generationFailed (retrieved : List (String × Option String)) (failure : Failure) :
    Except String Attempt :=
  match failure.exc with
  | .domain domain =>
    if domain.cls.isinstance .unanswerableQuestionError then
      .ok { errorType := some "unanswerable"
            errorMessage := domain.message
            retrieved := retrieved
            inputTokens := failure.usage.inputTokens
            outputTokens := failure.usage.outputTokens
            answeringModel := failure.model }
    else if domain.cls.isinstance .llmError then
      .ok { errorType := some "llm_failed"
            errorMessage := domain.cls.name ++ ": " ++ domain.message
            retrieved := retrieved }
    else .error (parts.typeOf failure.exc)
  | .unexpected _ => .error (parts.typeOf failure.exc)

end Parts

/-- What retrieval surfaced, as an attempt holds it. -/
def surfaced (context : RetrievalResult) : List (String × Option String) :=
  (retrievedColumns context).map fun column => (column.1, some column.2)

/-- `answered`. -/
def answered (candidate : Candidate) (sql : Option String) : Attempt where
  sql := sql
  retrieved := candidate.retrieved.map fun column => (column.1, some column.2)
  inputTokens := candidate.usage.inputTokens
  outputTokens := candidate.usage.outputTokens
  answeringModel := candidate.model

/-- What validation leaves of an attempt that has a statement. -/
def judged (attempt : Attempt) (result : ValidationResult) : Attempt :=
  if result.valid then { attempt with validationAttempts := 1 }
  else
    { attempt with
      sql := none
      errorType := result.errorType
      errorMessage := result.feedback
      validationAttempts := 1 }

section call

variable (unicode : Unicode) (words : Words) {Cell : Type} (parts : Parts Cell)

/-- The attempt within a scope, and the search path of the session after it. -/
def answerIn (scope : DatabaseScope RetrievalResult) (question path : String) :
    Except String Attempt × String :=
  let answerer : QuestionAnswerer := ⟨parts.context scope.source, parts.generator⟩
  match answerer.retrieve question with
  | .error exc => (parts.retrievalFailed exc, path)
  | .ok context =>
    match answerer.generate unicode words question context with
    | .error failure => (parts.generationFailed (surfaced context) failure, path)
    | .ok candidate =>
      match scope.validator with
      | none => (.ok (answered candidate (some candidate.sql)), path)
      | some catalog =>
        match parts.activates scope.schema with
        | .error exc => (.error (parts.typeOf exc), path)
        | .ok () =>
          let path := (ScopeRegistry.activate scope).2
          match validate parts.platform (parts.database path) parts.settings catalog
              candidate.sql with
          | .error exc => (.error (parts.typeOf exc), path)
          | .ok result => (.ok (judged (answered candidate (some candidate.sql)) result), path)

/-- The scopes built so far, and the search path of the read-only session. -/
structure State where
  registry : ScopeRegistry unicode RetrievalResult
  path : String

/-- `PipelineAnswerer.__call__`; an exception that it lets through is its class name. -/
def call (s : State unicode) (question : Question) : Except String Attempt × State unicode :=
  match s.registry.scope question.dbId with
  | .error exc => (parts.scopeUnavailable exc, s)
  | .ok (scope, registry) =>
    let done := answerIn unicode words parts scope question.question s.path
    (done.1, ⟨registry, done.2⟩)

/-- The registry of a run, as it is opened: only a baseline that embeds has an embedder. -/
def openRegistry (owner : Owner RetrievalResult) (topK : Nat) (pre : String)
    (baseline : Baseline) : ScopeRegistry unicode RetrievalResult where
  owner := owner
  baseline := baseline
  topK := topK
  hasEmbedder := baseline = .retrievalOnly || baseline = .withValidation
  pre := pre
  scopes := .empty
  named := by
    intro dbId scope listed
    cases listed

/-- The answers to questions asked one after the other, and what is left after them. -/
def session : State unicode → List (Parts Cell × Question) →
    List (Except String Attempt) × State unicode
  | s, [] => ([], s)
  | s, (parts, question) :: rest =>
    let first := call unicode words parts s question
    let later := session first.2 rest
    (first.1 :: later.1, later.2)

end call

/-! ## What is kept between questions -/

section kept

variable {unicode : Unicode} {Context : Type} {registry : ScopeRegistry unicode Context}

/-- The registry before its first question. -/
def cleared (registry : ScopeRegistry unicode Context) : ScopeRegistry unicode Context :=
  { registry with
    scopes := .empty
    named := by
      intro dbId scope listed
      cases listed }

/-- Every scope that is kept is the one that would be built. -/
def Derived (registry : ScopeRegistry unicode Context) : Prop :=
  ∀ dbId scope, registry.scopes.get? dbId = some scope →
    ∃ next, (cleared registry).scope dbId = .ok (scope, next)

theorem derived_cleared : Derived (cleared registry) := by
  intro dbId scope listed
  cases listed

/-- Two registries that read, name and resolve alike build their scopes alike, where
neither keeps one of the database. -/
theorem scope_congr {other : ScopeRegistry unicode Context} {dbId : String}
    (resource : String → ContextSource Context → ContextSource Context)
    (retype : DatabaseScope Context → DatabaseScope Context)
    (named : ∀ dbId, other.datasetFor dbId = registry.datasetFor dbId)
    (catalogs : ∀ dataset, other.owner.loadCatalog dataset = registry.owner.loadCatalog dataset)
    (sources : ∀ dataset,
      other.buildSource dataset = (registry.buildSource dataset).map (resource dataset))
    (builds : ∀ dbId dataset source, other.build dbId dataset (resource dataset source) =
      retype (registry.build dbId dataset source))
    (uncached : registry.scopes.get? dbId = none) (fresh : other.scopes.get? dbId = none) :
    (other.scope dbId).map Prod.fst = (registry.scope dbId).map fun found => retype found.1 := by
  rw [ScopeRegistry.scope, ScopeRegistry.scope]
  by_cases blank : dbId = ""
  · rw [if_pos blank, if_pos blank]
    rfl
  · rw [if_neg blank, if_neg blank, uncached, fresh]
    dsimp only
    split
    · rename_i exc unnamed
      rw [named] at unnamed
      split
      · rename_i other same
        cases unnamed.symm.trans same
        rfl
      · rename_i other same
        cases unnamed.symm.trans same
    · rename_i dataset known
      rw [named] at known
      by_cases unindexed : (registry.owner.loadCatalog dataset).isEmpty = true
      · rw [catalogs, if_pos unindexed]
        split
        · rename_i other same
          cases known.symm.trans same
        · rename_i other same
          obtain rfl := Except.ok.inj (known.symm.trans same)
          rw [if_pos unindexed]
          rfl
      · rw [catalogs, if_neg unindexed]
        split
        · rename_i exc unbuilt
          rw [sources] at unbuilt
          split
          · rename_i other same
            cases known.symm.trans same
          · rename_i other same
            obtain rfl := Except.ok.inj (known.symm.trans same)
            rw [if_neg unindexed]
            split
            · rename_i other same
              rw [same] at unbuilt
              cases unbuilt
              rfl
            · rename_i other same
              rw [same] at unbuilt
              cases unbuilt
        · rename_i source built
          rw [sources] at built
          split
          · rename_i other same
            cases known.symm.trans same
          · rename_i other same
            obtain rfl := Except.ok.inj (known.symm.trans same)
            rw [if_neg unindexed]
            split
            · rename_i other same
              rw [same] at built
              cases built
            · rename_i own same
              rw [same] at built
              obtain rfl : resource dataset own = source := Except.ok.inj built
              exact congrArg Except.ok (builds dbId dataset own)

/-- A scope that is kept is not built again, and none is kept that was not built. -/
theorem scope_cases {dbId : String} {found : DatabaseScope Context}
    {next : ScopeRegistry unicode Context} (given : registry.scope dbId = .ok (found, next)) :
    cleared next = cleared registry ∧ ∀ other scope, next.scopes.get? other = some scope →
      registry.scopes.get? other = some scope ∨ other = dbId ∧ scope = found := by
  rw [ScopeRegistry.scope] at given
  split at given
  · cases given
  · split at given
    · cases given
      exact ⟨rfl, fun other scope listed => .inl listed⟩
    · split at given
      · cases given
      · split at given
        · cases given
        · split at given
          · cases given
          · cases given
            refine ⟨rfl, ?_⟩
            intro other scope listed
            dsimp only [ScopeRegistry.keep] at listed
            rw [Dictionary.get?_set] at listed
            split at listed
            · rename_i same
              exact .inr ⟨same, (Option.some.inj listed).symm⟩
            · exact .inl listed

/-- A registry gives what it would have given first. -/
theorem scope_eq (derived : Derived registry) (dbId : String) :
    (registry.scope dbId).map Prod.fst = ((cleared registry).scope dbId).map Prod.fst := by
  cases cached : registry.scopes.get? dbId with
  | none =>
    have built : ((cleared registry).scope dbId).map Prod.fst =
        (registry.scope dbId).map fun found => id found.1 :=
      scope_congr (fun _ => id) id (fun _ => rfl) (fun _ => rfl)
        (fun _ => (congrFun Except.map_id _).symm) (fun _ _ _ => rfl) cached rfl
    exact built.symm
  | some scope =>
    obtain ⟨next, built⟩ := derived dbId scope cached
    have asked : dbId ≠ "" := by
      rintro rfl
      rw [ScopeRegistry.scope, if_pos rfl] at built
      cases built
    rw [built, ScopeRegistry.scope, if_neg asked, cached]
    rfl

theorem Derived.scope (derived : Derived registry) {dbId : String}
    {found : DatabaseScope Context} {next : ScopeRegistry unicode Context}
    (given : registry.scope dbId = .ok (found, next)) : Derived next := by
  obtain ⟨same, kept⟩ := scope_cases given
  intro other scope listed
  rw [same]
  rcases kept other scope listed with before | ⟨rfl, rfl⟩
  · exact derived other scope before
  · have first := scope_eq derived other
    rw [given] at first
    cases built : (cleared registry).scope other with
    | error exc =>
      rw [built] at first
      cases first
    | ok pair =>
      rw [built] at first
      obtain ⟨scope', next'⟩ := pair
      obtain rfl : scope = scope' := Except.ok.inj first
      exact ⟨next', rfl⟩

/-- A scope's source is the one its baseline resolves to. -/
theorem scope_source {owner : Owner RetrievalResult} {topK : Nat} {pre : String}
    {baseline : Baseline} {dbId : String} {scope : DatabaseScope RetrievalResult}
    {next : ScopeRegistry unicode RetrievalResult}
    (given : (openRegistry unicode owner topK pre baseline).scope dbId = .ok (scope, next)) :
    (openRegistry unicode owner topK pre baseline).buildSource scope.dataset = .ok scope.source := by
  rw [ScopeRegistry.scope] at given
  split at given
  · cases given
  · split at given
    · rename_i cached listed
      cases listed
    · split at given
      · cases given
      · split at given
        · cases given
        · split at given
          · cases given
          · rename_i source built
            cases given
            exact built

end kept

/-! ## An answer and its history -/

section histories

variable {unicode : Unicode} {words : Words} {Cell : Type}

/-- The search path of the session when a question comes is not seen by it. -/
theorem answerIn_path (parts : Parts Cell) (scope : DatabaseScope RetrievalResult)
    (question path other : String) :
    (answerIn unicode words parts scope question path).1 =
      (answerIn unicode words parts scope question other).1 := by
  simp only [answerIn]
  split
  · rfl
  · split
    · rfl
    · split
      · rfl
      · split
        · rfl
        · split <;> rfl

/-- A state that answers have led to from a registry as it was opened. -/
structure FollowsFrom (start : ScopeRegistry unicode RetrievalResult) (s : State unicode) :
    Prop where
  cleared : Pipeline.cleared s.registry = Pipeline.cleared start
  derived : Derived s.registry

theorem FollowsFrom.call {start : ScopeRegistry unicode RetrievalResult} {s : State unicode}
    (follows : FollowsFrom start s) (parts : Parts Cell) (question : Question) :
    FollowsFrom start (call unicode words parts s question).2 := by
  rw [Pipeline.call]
  cases given : s.registry.scope question.dbId with
  | error exc => exact follows
  | ok pair =>
    obtain ⟨scope, next⟩ := pair
    exact ⟨(scope_cases given).1.trans follows.cleared, follows.derived.scope given⟩

/-- What a question is answered with where nothing was asked before it. -/
def firstAnswer (unicode : Unicode) (words : Words) (start : ScopeRegistry unicode RetrievalResult)
    (parts : Parts Cell) (question : Question) : Except String Attempt :=
  (call unicode words parts ⟨cleared start, ""⟩ question).1

theorem call_eq {start : ScopeRegistry unicode RetrievalResult} {s : State unicode}
    (follows : FollowsFrom start s) (parts : Parts Cell) (question : Question) :
    (call unicode words parts s question).1 = firstAnswer unicode words start parts question := by
  have resolved := scope_eq follows.derived question.dbId
  rw [follows.cleared] at resolved
  rw [firstAnswer, call, call]
  cases given : s.registry.scope question.dbId with
  | error exc =>
    cases fresh : (cleared start).scope question.dbId with
    | error other =>
      rw [given, fresh] at resolved
      rw [Except.error.inj resolved]
    | ok pair =>
      rw [given, fresh] at resolved
      cases resolved
  | ok pair =>
    cases fresh : (cleared start).scope question.dbId with
    | error other =>
      rw [given, fresh] at resolved
      cases resolved
    | ok other =>
      rw [given, fresh] at resolved
      have same : pair.1 = other.1 := Except.ok.inj resolved
      obtain ⟨scope, next⟩ := pair
      obtain ⟨scope', next'⟩ := other
      obtain rfl : scope = scope' := same
      exact answerIn_path parts scope question.question s.path ""

theorem answers_eq {start : ScopeRegistry unicode RetrievalResult} {s : State unicode}
    (follows : FollowsFrom start s) (asked : List (Parts Cell × Question)) :
    (session unicode words s asked).1 =
      asked.map fun one => firstAnswer unicode words start one.1 one.2 := by
  induction asked generalizing s with
  | nil => rfl
  | cons one rest ih =>
    rw [session, List.map_cons, call_eq follows, ih (follows.call one.1 one.2)]

theorem followsFrom_opened {start : ScopeRegistry unicode RetrievalResult} (path : String) :
    FollowsFrom start ⟨cleared start, path⟩ :=
  ⟨rfl, derived_cleared⟩

end histories

end Pipeline
