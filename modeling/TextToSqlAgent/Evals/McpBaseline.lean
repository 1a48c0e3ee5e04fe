import TextToSqlAgent.Evals.Pipeline
import TextToSqlAgent.McpServers.Contracts

/-!
# The baseline that retrieves through a server

It is the one that retrieves in its own process with a single hop changed. The hop drops
what no prompt and no recall reads, so that a run over it gives the same answers.
-/

namespace McpBaseline

open Python Exceptions Schema Prompts Patterns Identifiers Generator Answerer Scoping Pipeline
  McpServers Discovery McpTools Contracts
open Runner (Question Attempt)
open McpRetrieval (Builtins Client searchTool)
open WireTrip (receivedElement receivedEdge renderContext_received retrievedColumns_received)

/-! ## The hop -/

section hop

variable {Cell : Type} (validate : Payload → Payload → Option ValidationError) (py : Builtins)
  (client : String → Client) (structured : Bool) (searches : String → Searches)

/-- The servers answer for their datasets as the retrievers of the other baseline do. -/
structure Hop (parts : Parts Cell) : Prop where
  inProcess : ∀ dataset topK question,
    parts.retriever dataset topK question = searches dataset question (some topK) none
  served : ∀ dataset topK question,
    parts.server dataset topK question =
      McpRetrieval.search py (client dataset) .answerable (.answered [searchTool]
        (.ok (deliver structured (toCallResult (answer validate (search (searches dataset))
          (searchArguments question topK))))))

end hop

/-- What is received of a context. -/
def received (context : RetrievalResult) : RetrievalResult :=
  ⟨context.elements.map receivedElement, context.foreignKeys.map receivedEdge⟩

section same

variable {unicode : Unicode} {words : Words} {Cell : Type} {parts : Parts Cell}

theorem surfaced_received (context : RetrievalResult) :
    surfaced (received context) = surfaced context := by
  rw [surfaced, surfaced, received, retrievedColumns_received _ context.foreignKeys]

/-- What is received is answered like what was sent. -/
theorem answerIn_received {scope : DatabaseScope RetrievalResult}
    {other : ContextSource RetrievalResult} {question : String} {context : RetrievalResult}
    (own : parts.context scope.source question = .ok context)
    (hopped : parts.context other question = .ok (received context)) (path : String) :
    (answerIn unicode words parts { scope with source := other } question path).1 =
      (answerIn unicode words parts scope question path).1 := by
  have generated : generateDetailed unicode words parts.generator question (received context) =
      generateDetailed unicode words parts.generator question context :=
    generateDetailed_congr (renderContext_received _ _) none none
  have columns : retrievedColumns (received context) = retrievedColumns context :=
    retrievedColumns_received _ _ _
  simp only [answerIn, QuestionAnswerer.retrieve, own, hopped, QuestionAnswerer.generate, generated,
    surfaced_received]
  cases generateDetailed unicode words parts.generator question context with
  | error failure => rfl
  | ok made =>
    simp only [Except.map, answered, columns]
    cases scope.validator with
    | none => rfl
    | some catalog =>
      dsimp only
      cases parts.activates scope.schema with
      | error exc => rfl
      | ok done =>
        dsimp only [ScopeRegistry.activate]

variable {owner : Owner RetrievalResult} {topK : Nat} {pre : String}

/-- The scope of a database under this baseline asks its server. -/
theorem scope_mcp (dbId : String) :
    ((openRegistry unicode owner topK pre .mcpRetrieval).scope dbId).map Prod.fst =
      ((openRegistry unicode owner topK pre .retrievalOnly).scope dbId).map fun found =>
        { found.1 with source := .mcp found.1.dataset topK } :=
  scope_congr (fun dataset _ => .mcp dataset topK)
    (fun scope => { scope with source := .mcp scope.dataset topK })
    (fun _ => rfl) (fun _ => rfl) (fun _ => rfl) (fun _ _ _ => rfl) rfl rfl

variable {validate : Payload → Payload → Option ValidationError} {py : Builtins}
  {client : String → Client} {structured : Bool} {searches : String → Searches}

/-- What the search of the question's database comes to, where it has a scope. -/
def Searched (owner : Owner RetrievalResult) (topK : Nat) (pre : String)
    (searches : String → Searches) (unicode : Unicode) (question : Question)
    (outcome : Except Raised RetrievalResult) : Prop :=
  ∀ scope next, (openRegistry unicode owner topK pre .retrievalOnly).scope question.dbId =
    .ok (scope, next) → searches scope.dataset question.question (some topK) none = outcome

/-- A question whose search succeeds is answered alike under both baselines. -/
theorem firstAnswer_mcp (reads : ReadsJson py)
    (hop : Hop validate py client structured searches parts) {question : Question}
    (accepted : validate (searchArguments question.question topK) searchSchema = none)
    {context : RetrievalResult}
    (searched : Searched owner topK pre searches unicode question (.ok context))
    (named : ∀ e ∈ context.elements, e.table ≠ "") (scored : Scored context) :
    firstAnswer unicode words (openRegistry unicode owner topK pre .mcpRetrieval) parts question =
      firstAnswer unicode words (openRegistry unicode owner topK pre .retrievalOnly) parts
        question := by
  have opened (baseline : Baseline) : cleared (openRegistry unicode owner topK pre baseline) =
      openRegistry unicode owner topK pre baseline := rfl
  have scopes : ((openRegistry unicode owner topK pre .mcpRetrieval).scope
      question.dbId).map Prod.fst =
        ((openRegistry unicode owner topK pre .retrievalOnly).scope question.dbId).map fun found =>
          { found.1 with source := .mcp found.1.dataset topK } := scope_mcp question.dbId
  rw [firstAnswer, firstAnswer, call, call]
  simp only [opened]
  cases plain : (openRegistry unicode owner topK pre .retrievalOnly).scope question.dbId with
  | error exc =>
    cases remote : (openRegistry unicode owner topK pre .mcpRetrieval).scope question.dbId with
    | ok found =>
      rw [plain, remote] at scopes
      cases scopes
    | error other =>
      rw [plain, remote] at scopes
      obtain rfl : other = exc := Except.error.inj scopes
      rfl
  | ok found =>
    obtain ⟨scope, next⟩ := found
    cases remote : (openRegistry unicode owner topK pre .mcpRetrieval).scope question.dbId with
    | error other =>
      rw [plain, remote] at scopes
      cases scopes
    | ok other =>
      obtain ⟨other, later⟩ := other
      rw [plain, remote] at scopes
      obtain rfl : other = { scope with source := .mcp scope.dataset topK } :=
        Except.ok.inj scopes
      have found := searched scope next plain
      have own : parts.context scope.source question.question = .ok context := by
        have source : ContextSource.retriever scope.dataset topK = scope.source :=
          Except.ok.inj (scope_source plain)
        rw [← source]
        exact (hop.inProcess _ _ _).trans found
      have hopped : parts.context (.mcp scope.dataset topK) question.question =
          .ok (received context) :=
        (hop.served _ _ _).trans
          (search_found validate reads _ structured accepted found named scored)
      exact answerIn_received own hopped ""

/-- A search that raises is a failed retrieval over the hop, whatever it raised. -/
theorem firstAnswer_raised (reads : ReadsJson py)
    (hop : Hop validate py client structured searches parts) {question : Question}
    (accepted : validate (searchArguments question.question topK) searchSchema = none)
    {scope : DatabaseScope RetrievalResult} {next : ScopeRegistry unicode RetrievalResult}
    (resolved : (openRegistry unicode owner topK pre .mcpRetrieval).scope question.dbId =
      .ok (scope, next)) {exc : Raised}
    (failed : searches scope.dataset question.question (some topK) none = .error exc) :
    firstAnswer unicode words (openRegistry unicode owner topK pre .mcpRetrieval) parts question =
      .ok { errorType := some "retrieval_failed"
            errorMessage := searchTool ++ " returned " ++
              orText (some (errorType (handlerError exc))) "an error" ++ ": " ++
              shownMessage (handlerError exc) } := by
  have source : ContextSource.mcp scope.dataset topK = scope.source :=
    Except.ok.inj (scope_source resolved)
  have raised : parts.context (.mcp scope.dataset topK) question.question =
      .error (McpRetrieval.retrievalError (searchTool ++ " returned " ++
        orText (some (errorType (handlerError exc))) "an error" ++ ": " ++
        shownMessage (handlerError exc))) :=
    (hop.served _ _ _).trans (search_raised validate reads _ structured accepted failed)
  rw [source] at raised
  have opened : cleared (openRegistry unicode owner topK pre .mcpRetrieval) =
      openRegistry unicode owner topK pre .mcpRetrieval := rfl
  rw [firstAnswer, opened, call, resolved]
  simp only [answerIn, QuestionAnswerer.retrieve, raised, McpRetrieval.retrievalError,
    Parts.retrievalFailed]
  rfl

/-- A question that the server takes, and for which the search finds a context. -/
structure Served (validate : Payload → Payload → Option ValidationError)
    (owner : Owner RetrievalResult) (topK : Nat) (pre : String) (searches : String → Searches)
    (unicode : Unicode) (question : Question) : Prop where
  accepted : validate (searchArguments question.question topK) searchSchema = none
  found : ∃ context, Searched owner topK pre searches unicode question (.ok context) ∧
    (∀ e ∈ context.elements, e.table ≠ "") ∧ Scored context

/-- A whole run over the hop gives, question by question, the attempts of the run that
retrieves in its own process: the statements, the errors, what was retrieved and the cost. -/
theorem run_over_mcp (reads : ReadsJson py) (asked : List (Parts Cell × Question))
    (hops : ∀ one ∈ asked, Hop validate py client structured searches one.1)
    (served : ∀ one ∈ asked, Served validate owner topK pre searches unicode one.2)
    (path other : String) :
    (session unicode words ⟨openRegistry unicode owner topK pre .mcpRetrieval, path⟩ asked).1 =
      (session unicode words ⟨openRegistry unicode owner topK pre .retrievalOnly, other⟩
        asked).1 := by
  have follows (baseline : Baseline) (path : String) :
      FollowsFrom (openRegistry unicode owner topK pre baseline)
        ⟨openRegistry unicode owner topK pre baseline, path⟩ := followsFrom_opened path
  rw [answers_eq (follows .mcpRetrieval path), answers_eq (follows .retrievalOnly other)]
  refine List.map_congr_left fun one listed => ?_
  obtain ⟨accepted, context, searched, named, scored⟩ := served one listed
  exact firstAnswer_mcp reads (hops one listed) accepted searched named scored

end same

def concerts : Owner RetrievalResult where
  loadCatalog _ := ⟨[("singer", [])]⟩
  readFullSchema _ := ⟨[], []⟩

/-- A retriever that finds one table, here and behind a server. -/
def counting : Parts Unit where
  retriever _ topK question := singerSearch question (some topK) none
  server dataset topK question :=
    McpRetrieval.search jsonBuiltins ⟨dataset, 300, 120⟩ .answerable (.answered [searchTool]
      (.ok (deliver false (toCallResult (answer (fun _ _ => none) (search singerSearch)
        (searchArguments question topK))))))
  generator := { complete := fun _ => .ok { text := "SELECT count(*) FROM singer" } }
  platform := blankPlatform
  settings := .default
  activates _ := .ok ()
  database _ := ⟨fun _ _ => .ok none, fun _ _ => .ok ([], [])⟩
  typeName := id

def howMany : Question where
  questionId := "q1"
  question := "how many singers?"
  goldSql := "SELECT count(*) FROM singer"
  dbId := "concert_singer"

private theorem sql_counting :
    ((session plainUnicode plainWords
      ⟨openRegistry plainUnicode concerts 10 "" .retrievalOnly, ""⟩ [(counting, howMany)]).1.map
        fun answer => answer.toOption.map Attempt.sql) =
      [some (some "SELECT count(*) FROM singer")] := by
  decide +kernel

/-- One question over a server that answers. -/
theorem run_over_mcp_counting :
    ((session plainUnicode plainWords
      ⟨openRegistry plainUnicode concerts 10 "" .mcpRetrieval, ""⟩ [(counting, howMany)]).1.map
        fun answer => answer.toOption.map Attempt.sql) =
      [some (some "SELECT count(*) FROM singer")] := by
  have hops : ∀ one ∈ [(counting, howMany)], Hop (fun _ _ => none) jsonBuiltins
      (fun dataset => ⟨dataset, 300, 120⟩) false (fun _ => singerSearch) one.1 := by
    intro one listed
    obtain rfl := List.mem_singleton.mp listed
    exact ⟨fun _ _ _ => rfl, fun _ _ _ => rfl⟩
  have served : ∀ one ∈ [(counting, howMany)], Served (fun _ _ => none) concerts 10 ""
      (fun _ => singerSearch) plainUnicode one.2 := by
    intro one listed
    obtain rfl := List.mem_singleton.mp listed
    refine ⟨rfl, _, fun _ _ _ => rfl, by decide, ?_⟩
    intro element found
    obtain rfl := List.mem_singleton.mp found
    exact .finite (by decide +kernel)
  rw [run_over_mcp reads_jsonBuiltins [(counting, howMany)] hops served "" ""]
  exact sql_counting

end McpBaseline
