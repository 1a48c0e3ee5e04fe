import TextToSqlAgent.Benchmark.Plan
import TextToSqlAgent.Evals.Gold
import TextToSqlAgent.Validation.Catalog

/-!
# One database, one schema

The converter names the schema of a database, a verified-gold file records it,
the scope registry and the query runner name it again. This module compares the
four.
-/

namespace Scoping

open Python Exceptions Identifiers Plan Gold Runner Catalog

variable (unicode : Unicode)

/-! ## The scope registry -/

inductive Baseline
  | fullSchema
  | retrievalOnly
  | withValidation
  | mcpRetrieval
  deriving DecidableEq, Repr

/-- Where a question's context comes from: each source holds the dataset it was
built for, or what was read of it. -/
inductive ContextSource (Context : Type)
  | fullSchema (dataset : String) (result : Context)
  | retriever (dataset : String) (topK : Nat)
  | mcp (dataset : String) (topK : Nat)

def ContextSource.dataset {Context : Type} : ContextSource Context → String
  | .fullSchema dataset _ => dataset
  | .retriever dataset _ => dataset
  | .mcp dataset _ => dataset

/-- Every component that must agree on which database a question is about. -/
structure DatabaseScope (Context : Type) where
  dbId : String
  schema : String
  dataset : String
  catalog : SchemaCatalog
  validator : Option SchemaCatalog
  source : ContextSource Context

/-- The scope of a database under a prefix is the one of its schema. -/
structure DatabaseScope.Names {Context : Type} (pre : String) (scope : DatabaseScope Context) :
    Prop where
  named : schemaNameFor unicode scope.dbId pre = .ok scope.schema
  dataset : scope.dataset = scope.schema
  source : scope.source.dataset = scope.schema

/-- What the registry reads of the catalog, by dataset. -/
structure Owner (Context : Type) where
  loadCatalog : String → SchemaCatalog
  readFullSchema : String → Context

/-- Builds and keeps a scope for each database. -/
structure ScopeRegistry (Context : Type) where
  owner : Owner Context
  baseline : Baseline
  topK : Nat
  hasEmbedder : Bool
  pre : String
  scopes : Dictionary String (DatabaseScope Context)
  named : ∀ dbId scope, scopes.get? dbId = some scope → scope.dbId = dbId ∧ scope.Names unicode pre

namespace ScopeRegistry

variable {unicode} {Context : Type} (registry : ScopeRegistry unicode Context)

/-- The catalog namespace, which is also the PostgreSQL schema name. -/
def datasetFor (dbId : String) : Except DomainError String :=
  schemaNameFor unicode dbId registry.pre

/-- Resolve the baseline into the source a question will consult. A retriever
needs an embedder. -/
def buildSource (dataset : String) : Except DomainError (ContextSource Context) :=
  match registry.baseline with
  | .fullSchema => .ok (.fullSchema dataset (registry.owner.readFullSchema dataset))
  | .mcpRetrieval => .ok (.mcp dataset registry.topK)
  | _ =>
    if registry.hasEmbedder then .ok (.retriever dataset registry.topK)
    else .error ⟨.retrievalError, "retrieval was requested without an embedder", none, none⟩

def build (dbId dataset : String) (source : ContextSource Context) : DatabaseScope Context :=
  let catalog := registry.owner.loadCatalog dataset
  { dbId := dbId
    schema := dataset
    dataset := dataset
    catalog := catalog
    validator := if registry.baseline = .withValidation then some catalog else none
    source := source }

theorem dataset_buildSource {dataset : String} {source : ContextSource Context}
    (built : registry.buildSource dataset = .ok source) : source.dataset = dataset := by
  rw [buildSource] at built
  split at built
  · exact Except.ok.inj built ▸ rfl
  · exact Except.ok.inj built ▸ rfl
  · split at built
    · exact Except.ok.inj built ▸ rfl
    · cases built

theorem names_build {dbId dataset : String} {source : ContextSource Context}
    (known : registry.datasetFor dbId = .ok dataset)
    (built : registry.buildSource dataset = .ok source) :
    (registry.build dbId dataset source).Names unicode registry.pre :=
  ⟨known, rfl, registry.dataset_buildSource built⟩

/-- The registry with one more scope. -/
def keep (dbId : String) (scope : DatabaseScope Context)
    (fits : scope.dbId = dbId ∧ scope.Names unicode registry.pre) :
    ScopeRegistry unicode Context :=
  { registry with
    scopes := registry.scopes.set dbId scope
    named := by
      intro other found listed
      rw [Dictionary.get?_set] at listed
      split at listed
      · rename_i same
        obtain rfl := Option.some.inj listed
        exact same ▸ fits
      · exact registry.named other found listed }

/-- The components for one database, built on first use. -/
def scope (dbId : String) :
    Except Raised (DatabaseScope Context × ScopeRegistry unicode Context) :=
  if dbId = "" then
    .error (.unexpected "a benchmark question must name the database it is about")
  else
    match registry.scopes.get? dbId with
    | some cached => .ok (cached, registry)
    | none =>
      match known : registry.datasetFor dbId with
      | .error exc => .error (.domain exc)
      | .ok dataset =>
        if (registry.owner.loadCatalog dataset).isEmpty then
          let shownId := repr unicode dbId
          let shownName := repr unicode dataset
          .error (.domain ⟨.retrievalError,
            s!"no schema elements indexed for {shownId} (dataset {shownName}). " ++
              "Run `python -m benchmark.load index` over the converted schemas " ++
              "before evaluating -- without a catalog every identifier resolves " ++
              "to nothing and every question fails for the same uninformative reason.",
            none, none⟩)
        else
          match built : registry.buildSource dataset with
          | .error exc => .error (.domain exc)
          | .ok source =>
            .ok (registry.build dbId dataset source,
              registry.keep dbId (registry.build dbId dataset source)
                ⟨rfl, registry.names_build known built⟩)

/-- However often it was asked before, the registry gives a database's own scope. -/
theorem names_scope {dbId : String} {found : DatabaseScope Context}
    {next : ScopeRegistry unicode Context} (given : registry.scope dbId = .ok (found, next)) :
    found.dbId = dbId ∧ found.Names unicode registry.pre := by
  rw [scope] at given
  split at given
  · cases given
  · split at given
    · rename_i cached listed
      cases given
      exact registry.named dbId _ listed
    · split at given
      · cases given
      · rename_i dataset known
        split at given
        · cases given
        · split at given
          · cases given
          · rename_i source built
            cases given
            exact ⟨rfl, registry.names_build known built⟩

/-- The setting of the read-only session under which a candidate is validated. -/
def activate (scope : DatabaseScope Context) : String × String := ("search_path", scope.schema)

end ScopeRegistry

/-! ## The query runner -/

/-- One statement, and the settings of the transaction it runs in. -/
structure Transaction where
  settings : List (String × String)
  statement : String
  deriving DecidableEq, Repr

def Transaction.searchPath (transaction : Transaction) : Option String :=
  transaction.settings.lookup "search_path"

/-- Executes benchmark SQL against the schema its question belongs to. -/
structure SchemaScopedQueryRunner where
  schemaFor : Dictionary String String
  statementTimeoutMs : Nat
  maxRows : Nat := 100000
  pre : String := ""

namespace SchemaScopedQueryRunner

variable (runner : SchemaScopedQueryRunner)

/-- What a call hands to the connection. -/
def transaction (sql dbId : String) : Except Raised Transaction :=
  if dbId = "" then
    .error (.unexpected "a benchmark query must name the database it runs against")
  else
    let schema := orText (runner.schemaFor.get? dbId) (runner.pre ++ dbId)
    .ok ⟨[("search_path", schema), ("statement_timeout", toString runner.statementTimeoutMs)], sql⟩

/-- Run one statement in one database's schema: at most so many rows are read,
and one more to tell whether there are more. -/
def call (connection : Transaction → Except Raised (Option Rows)) (sql dbId : String) :
    Except Raised Rows := do
  let transaction ← runner.transaction sql dbId
  match ← connection transaction with
  | none => return []
  | some all =>
    let fetched := all.take (runner.maxRows + 1)
    if fetched.length > runner.maxRows then
      let most := grouped runner.maxRows
      throw (.unexpected (s!"the query returned more than {most} rows. Refused rather " ++
        "than truncated -- a truncated comparison scores correct answers wrong."))
    else return fetched

end SchemaScopedQueryRunner

/-! ## One name -/

variable {unicode}

/-- The four names of a database's schema are one: the converter's, the scope's
with its dataset and its source, and the search path of every statement, gold
or predicted, that the runner executes for the database. -/
structure OneName {Context : Type} (registry : ScopeRegistry unicode Context)
    (runner : SchemaScopedQueryRunner) (dbId schema : String) : Prop where
  converted : ∀ numerals (database : SqliteSource.SqliteDatabase) target plans,
    database.dbId = dbId →
      planDatabase unicode numerals database runner.pre = .ok (target, plans) → target = schema
  context : ∀ scope next, registry.scope dbId = .ok (scope, next) →
    scope.schema = schema ∧ scope.dataset = schema ∧ scope.source.dataset = schema
  executed : ∀ sql, ∃ transaction, runner.transaction sql dbId = .ok transaction ∧
    transaction.searchPath = some schema

/-- A verified-gold file, as it was read, and the split it is applied to. -/
structure GoldFile where
  entries : Dictionary String GoldEntry
  questions : List Question

variable (unicode) in
/-- Whatever schema an entry records is the one of its database under the prefix. -/
def GoldFile.WrittenUnder (pre : String) (file : GoldFile) : Prop :=
  ∀ id entry, file.entries.get? id = some entry → entry.schema ≠ "" →
    entry.dbId ≠ "" ∧ schemaNameFor unicode entry.dbId pre = .ok entry.schema

/-- A question of the split has an entry that records a schema for the database. -/
def GoldFile.Provides (file : GoldFile) (dbId : String) : Prop :=
  ∃ question ∈ file.questions, ∃ entry, file.entries.get? question.questionId = some entry ∧
    entry.schema ≠ "" ∧ entry.dbId = dbId

/-- The schemas the runner is given: those of the gold file, or none without one. -/
def schemasOf : Option GoldFile → Except String (Dictionary String String)
  | none => .ok .empty
  | some file => (applyVerifiedGold file.entries file.questions).map Applied.schemas

/-- The gold file gives a database no schema but its own, and gives it where a
question's entry records one. -/
theorem schemasOf_get? {pre dbId : String} {file : Option GoldFile}
    {schemas : Dictionary String String} (written : ∀ f ∈ file, f.WrittenUnder unicode pre)
    (given : schemasOf file = .ok schemas) :
    (∀ schema, schemas.get? dbId = some schema →
      schema ≠ "" ∧ schemaNameFor unicode dbId pre = .ok schema) ∧
    ((schemas.get? dbId).isSome = true ↔ ∃ f ∈ file, f.Provides dbId) := by
  cases file with
  | none =>
    cases given
    refine ⟨nofun, nofun, ?_⟩
    rintro ⟨file, listed, -⟩
    cases listed
  | some file =>
    have sound := written file rfl
    cases done : applyVerifiedGold file.entries file.questions with
    | error text =>
      rw [schemasOf, done] at given
      cases given
    | ok applied =>
      rw [schemasOf, done] at given
      obtain rfl := Except.ok.inj given
      have found := (appliedTo_of_ok _ done).schemas dbId
      have own {entry : GoldEntry} {question : Question}
          (listed : file.entries.get? question.questionId = some entry)
          (recorded : entry.schema ≠ "") :
          orText (some entry.dbId) question.dbId = dbId ↔ entry.dbId = dbId := by
        rw [orText, if_neg (sound _ entry listed recorded).1]
      constructor
      · intro schema kept
        rw [found] at kept
        obtain ⟨question, -, from_⟩ := List.exists_of_findSome?_eq_some kept
        obtain ⟨entry, listed, recorded, key, rfl⟩ := (schemaFor?_eq_some_iff _).mp from_
        exact ⟨recorded, (own listed recorded).mp key ▸ (sound _ entry listed recorded).2⟩
      · rw [found, List.findSome?_isSome_iff]
        constructor
        · rintro ⟨question, listed, provided⟩
          obtain ⟨schema, from_⟩ := Option.isSome_iff_exists.mp provided
          obtain ⟨entry, known, recorded, key, -⟩ := (schemaFor?_eq_some_iff _).mp from_
          exact ⟨file, rfl, question, listed, entry, known, recorded, (own known recorded).mp key⟩
        · rintro ⟨f, same, question, listed, entry, known, recorded, key⟩
          obtain rfl := Option.some.inj same
          refine ⟨question, listed, Option.isSome_iff_exists.mpr ⟨entry.schema, ?_⟩⟩
          exact (schemaFor?_eq_some_iff _).mpr
            ⟨entry, known, recorded, (own known recorded).mpr key, rfl⟩

/-- For every database id the converter accepts: its schema has one name exactly
when the gold file provides the name, or the prefix and the id are what they
become when they are stripped and lower-cased. -/
theorem one_name_iff {Context : Type} (registry : ScopeRegistry unicode Context)
    (runner : SchemaScopedQueryRunner) (samePrefix : registry.pre = runner.pre)
    {dbId schema : String} (named : dbId ≠ "")
    (accepted : schemaNameFor unicode dbId runner.pre = .ok schema)
    {file : Option GoldFile} (written : ∀ f ∈ file, f.WrittenUnder unicode runner.pre)
    (given : schemasOf file = .ok runner.schemaFor) :
    OneName registry runner dbId schema ↔
      (∃ f ∈ file, f.Provides dbId) ∨
        unicode.lower (strip (runner.pre ++ dbId)) = runner.pre ++ dbId := by
  have folded : schema = unicode.lower (strip (runner.pre ++ dbId)) := by
    rw [schemaNameFor] at accepted
    rw [toPgIdentifier_ok unicode accepted]
    split
    · rename_i none
      rw [none, String.empty_append]
    · rfl
  obtain ⟨kept, provides⟩ := schemasOf_get? written given
  have path (sql : String) : ∃ transaction, runner.transaction sql dbId = .ok transaction ∧
      transaction.searchPath =
        some (orText (runner.schemaFor.get? dbId) (runner.pre ++ dbId)) :=
    ⟨_, if_neg named, rfl⟩
  have executed : (∀ sql, ∃ transaction, runner.transaction sql dbId = .ok transaction ∧
      transaction.searchPath = some schema) ↔
      orText (runner.schemaFor.get? dbId) (runner.pre ++ dbId) = schema := by
    constructor
    · intro each
      obtain ⟨t, ran, same⟩ := each ""
      obtain ⟨u, again, other⟩ := path ""
      rw [ran] at again
      obtain rfl := Except.ok.inj again
      exact Option.some.inj (other.symm.trans same)
    · intro same sql
      rw [← same]
      exact path sql
  have reads : orText (runner.schemaFor.get? dbId) (runner.pre ++ dbId) = schema ↔
      (∃ f ∈ file, f.Provides dbId) ∨
        unicode.lower (strip (runner.pre ++ dbId)) = runner.pre ++ dbId := by
    rw [← provides, ← folded]
    cases found : runner.schemaFor.get? dbId with
    | none => simp [orText, eq_comm]
    | some recorded =>
      obtain ⟨nonempty, own⟩ := kept recorded found
      rw [accepted] at own
      simp [orText, nonempty, Except.ok.inj own]
  rw [← reads, ← executed]
  constructor
  · intro one
    exact one.executed
  · intro each
    refine ⟨fun numerals database target plans own planned => ?_, fun scope next found => ?_, each⟩
    · have planned := schema_of_planDatabase planned
      rw [own, accepted] at planned
      exact (Except.ok.inj planned).symm
    · obtain ⟨own, names⟩ := registry.names_scope found
      have same := names.named
      rw [own, samePrefix, accepted] at same
      exact ⟨(Except.ok.inj same).symm, names.dataset.trans (Except.ok.inj same).symm,
        names.source.trans (Except.ok.inj same).symm⟩

private def registry : ScopeRegistry plainUnicode Unit where
  owner := ⟨fun _ => ⟨[("template", ["template_id"])]⟩, fun _ => ()⟩
  baseline := .fullSchema
  topK := 10
  hasEmbedder := false
  pre := "spider_"
  scopes := .empty
  named := nofun

private def verified (entry : GoldEntry) : GoldFile where
  entries := Dictionary.empty.set "q1" entry
  questions := [{ questionId := "q1", question := "?", goldSql := "SELECT 1" }]

private theorem entry_verified {entry found : GoldEntry} {id : String}
    (listed : (verified entry).entries.get? id = some found) : found = entry := by
  rw [verified, Dictionary.get?_set] at listed
  split at listed
  · exact (Option.some.inj listed).symm
  · cases listed

private def folds : GoldEntry where
  questionId := "q1"
  sql := "SELECT 1"
  outcome := "match"
  scoreable := true
  dbId := "cre_Doc_Template_Mgt"
  schema := "spider_cre_doc_template_mgt"

private def mapped : SchemaScopedQueryRunner where
  schemaFor := Dictionary.empty.set "cre_Doc_Template_Mgt" "spider_cre_doc_template_mgt"
  statementTimeoutMs := 30000
  pre := "spider_"

/-- The gold file repairs the name. -/
theorem one_name_iff_recorded :
    OneName registry mapped "cre_Doc_Template_Mgt" "spider_cre_doc_template_mgt" := by
  have accepted : schemaNameFor plainUnicode "cre_Doc_Template_Mgt" "spider_" =
      .ok "spider_cre_doc_template_mgt" := by decide +kernel
  have written : ∀ file ∈ some (verified folds), file.WrittenUnder plainUnicode "spider_" := by
    rintro file ⟨⟩ id entry listed -
    obtain rfl := entry_verified listed
    exact ⟨by decide, accepted⟩
  refine (one_name_iff registry mapped rfl (by decide) accepted written rfl).mpr (Or.inl ?_)
  exact ⟨_, rfl, _, List.mem_singleton_self _, folds, rfl, by decide, rfl⟩

private def unnamed : GoldFile := verified { folds with dbId := "", schema := "" }

private def unmapped : SchemaScopedQueryRunner where
  schemaFor := .empty
  statementTimeoutMs := 30000
  pre := "spider_"

/-- An entry need not record a schema. The id of this database is converted
without its capital and the no-break space it ends in, and both are kept in the
search path. -/
theorem folded_name_missed :
    schemaNameFor plainUnicode "Movie\u00a0" "spider_" = .ok "spider_movie" ∧
      unnamed.WrittenUnder plainUnicode "spider_" ∧
      schemasOf (some unnamed) = .ok unmapped.schemaFor ∧
      unmapped.transaction "SELECT 1" "Movie\u00a0" =
        .ok ⟨[("search_path", "spider_Movie\u00a0"), ("statement_timeout", "30000")],
          "SELECT 1"⟩ ∧
      ¬OneName registry unmapped "Movie\u00a0" "spider_movie" := by
  have ran : unmapped.transaction "SELECT 1" "Movie\u00a0" =
      .ok ⟨[("search_path", "spider_Movie\u00a0"), ("statement_timeout", "30000")],
        "SELECT 1"⟩ := by
    decide +kernel
  refine ⟨by decide +kernel, ?_, rfl, ran, ?_⟩
  · intro id entry listed recorded
    obtain rfl := entry_verified listed
    exact absurd rfl recorded
  · intro one
    obtain ⟨transaction, again, path⟩ := one.executed "SELECT 1"
    rw [ran] at again
    obtain rfl := Except.ok.inj again
    exact absurd (Option.some.inj path) (by decide)

end Scoping
