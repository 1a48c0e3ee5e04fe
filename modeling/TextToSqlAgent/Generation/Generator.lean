import TextToSqlAgent.Benchmark.Identifiers
import TextToSqlAgent.Core.Exceptions
import TextToSqlAgent.Generation.Formatting
import TextToSqlAgent.Generation.Prompts

/-!
# A question and its context in, a statement out

`SQLGenerator.generate_detailed`: a prompt, one call, and the reply without its
formatting. A refusal is a completed call as well and carries what it cost; no other
failure does.
-/

namespace Generator

open Python Exceptions Schema Prompts Formatting Patterns Identifiers

structure Usage where
  inputTokens : Nat := 0
  outputTokens : Nat := 0
  cacheReadTokens : Nat := 0
  deriving DecidableEq, Repr

/-- A completed call. `truncated` says that it ended at the token limit. -/
structure LLMResponse where
  text : String
  usage : Usage := {}
  model : String := ""
  truncated : Bool := false
  deriving DecidableEq, Repr

/-- An exception, and what an `UnanswerableQuestionError` carries. No client raises one
that carries anything. -/
structure Failure where
  exc : Raised
  usage : Usage := {}
  model : String := ""
  deriving DecidableEq, Repr

/-- Cleaned SQL, what producing it cost and which model produced it. -/
structure Generated where
  sql : String
  usage : Usage
  model : String
  deriving DecidableEq, Repr

/-- How the model replies to a call, and what the prompt states of the database. -/
structure SQLGenerator where
  complete : List Message → Except Raised LLMResponse
  dialect : String := "PostgreSQL"
  maxRows : Option Int := none

def cannotAnswer : String := "CANNOT_ANSWER"

def responseError (message : String) : Failure :=
  ⟨.domain ⟨.llmResponseError, message, none, none⟩, {}, ""⟩

def unanswerableMessage : String :=
  "the model reported that the retrieved schema cannot answer this question"

variable (unicode : Unicode) (words : Words)

/-- `sql.upper().startswith(CANNOT_ANSWER)`. -/
def refuses (sql : String) : Bool := cannotAnswer.toList.isPrefixOf (unicode.upper sql).toList

/-- Why a reply with nothing in it is none. -/
def emptyReply (response : LLMResponse) : Failure :=
  if response.truncated then
    let model := repr unicode response.model
    responseError (s!"model {model} hit the token limit before producing any " ++
      s!"SQL ({response.usage.outputTokens} output tokens, all of them " ++
      "reasoning). Raise LLM_MAX_TOKENS.")
  else responseError "the model returned an empty response"

/-- What is made of a reply. -/
def read (response : LLMResponse) : Except Failure Generated :=
  let sql := stripFormatting words response.text
  if sql = "" then .error (emptyReply unicode response)
  else if refuses unicode sql then
    .error ⟨.domain ⟨.unanswerableQuestionError, unanswerableMessage, none, none⟩, response.usage,
      response.model⟩
  else .ok ⟨sql, response.usage, response.model⟩

variable (generator : SQLGenerator)

/-- `generate_detailed`. -/
def generateDetailed (question : String) (context : RetrievalResult)
    (feedback : Option String := none) (previousSql : Option String := none) :
    Except Failure Generated :=
  if strip question = "" then .error (responseError "the question is empty")
  else do
    let response ← (generator.complete (buildMessages question context generator.dialect
      generator.maxRows feedback previousSql)).mapError fun exc => ⟨exc, {}, ""⟩
    read unicode words response

/-- `generate`. -/
def generate (question : String) (context : RetrievalResult) (feedback : Option String := none)
    (previousSql : Option String := none) : Except Failure String :=
  (generateDetailed unicode words generator question context feedback previousSql).map Generated.sql

variable {unicode words generator}

theorem read_ok_iff {response : LLMResponse} {generated : Generated} :
    read unicode words response = .ok generated ↔
      generated = ⟨stripFormatting words response.text, response.usage, response.model⟩ ∧
        generated.sql ≠ "" ∧ refuses unicode generated.sql = false := by
  simp only [read]
  generalize stripFormatting words response.text = sql
  by_cases empty : sql = ""
  · rw [if_pos empty]
    constructor
    · intro done
      cases done
    · rintro ⟨rfl, some, -⟩
      exact absurd empty some
  · rw [if_neg empty]
    cases refused : refuses unicode sql with
    | true =>
      rw [if_pos rfl]
      constructor
      · intro done
        cases done
      · rintro ⟨rfl, -, kept⟩
        rw [refused] at kept
        cases kept
    | false =>
      rw [if_neg Bool.false_ne_true]
      constructor
      · intro done
        obtain rfl := Except.ok.inj done
        exact ⟨rfl, empty, refused⟩
      · rintro ⟨rfl, -, -⟩
        rfl

/-- The context is read as it is rendered, and in no other way. -/
theorem generateDetailed_congr {question : String} {context other : RetrievalResult}
    (same : renderContext context = renderContext other) (feedback previousSql : Option String) :
    generateDetailed unicode words generator question context feedback previousSql =
      generateDetailed unicode words generator question other feedback previousSql := by
  simp only [generateDetailed, buildMessages, same]

end Generator
