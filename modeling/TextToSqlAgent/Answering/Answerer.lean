import TextToSqlAgent.Generation.Generator

/-!
# Retrieve, then generate

The two steps both callers must perform identically: a request takes them as one, the
benchmark keeps what is between them. Failures are the components' own.
-/

namespace Answerer

open Python Exceptions Schema Prompts Patterns Identifiers Generator

/-- Generated SQL, plus everything a caller needs to explain or bill it. -/
structure Candidate where
  sql : String
  retrieved : List (String × String)
  usage : Usage
  model : String
  context : RetrievalResult

/-- A source of context, and the generator. -/
structure QuestionAnswerer where
  source : String → Except Raised RetrievalResult
  generator : SQLGenerator

variable (unicode : Unicode) (words : Words) (answerer : QuestionAnswerer)

/-- Phase 1. -/
def QuestionAnswerer.retrieve (question : String) : Except Raised RetrievalResult :=
  answerer.source question

/-- Phase 2. -/
def QuestionAnswerer.generate (question : String) (context : RetrievalResult)
    (feedback : Option String := none) (previousSql : Option String := none) :
    Except Failure Candidate :=
  (generateDetailed unicode words answerer.generator question context feedback previousSql).map
    fun generated =>
      { sql := generated.sql
        retrieved := retrievedColumns context
        usage := generated.usage
        model := generated.model
        context := context }

/-- The whole path, composed: the stages an observer is told of, in their order, and
the candidate. -/
def QuestionAnswerer.candidate (question : String) (feedback : Option String := none)
    (previousSql : Option String := none) : List String × Except Failure Candidate :=
  match answerer.retrieve question with
  | .error exc => ([], .error ⟨exc, {}, ""⟩)
  | .ok context =>
    match answerer.generate unicode words question context feedback previousSql with
    | .error failure => (["retrieve"], .error failure)
    | .ok candidate => (["retrieve", "generate"], .ok candidate)

variable {unicode words answerer}

theorem generate_ok_iff {question : String} {context : RetrievalResult}
    {feedback previousSql : Option String} {candidate : Candidate} :
    answerer.generate unicode words question context feedback previousSql = .ok candidate ↔
      ∃ generated, generateDetailed unicode words answerer.generator question context feedback
          previousSql = .ok generated ∧
        candidate = ⟨generated.sql, retrievedColumns context, generated.usage, generated.model,
          context⟩ := by
  rw [QuestionAnswerer.generate]
  cases generateDetailed unicode words answerer.generator question context feedback previousSql with
  | error failure =>
    constructor
    · intro done
      cases done
    · rintro ⟨generated, done, -⟩
      cases done
  | ok made =>
    constructor
    · intro done
      exact ⟨made, rfl, (Except.ok.inj done).symm⟩
    · rintro ⟨generated, done, rfl⟩
      obtain rfl := Except.ok.inj done
      rfl

end Answerer
