import Mathlib.Data.List.AList
import TextToSqlAgent.Evals.Canonical
import TextToSqlAgent.Evals.Taxonomy

/-!
# What a run records

A directory for each run: a manifest, and a file for each question. Reading the
directory is the resume state. A file is what `json.loads` makes of it, or the
text of the exception that reading it raises.
-/

namespace Artifacts

open Python Exceptions Canonical Validator Taxonomy

/-- What is used of `hashlib` and `json`: hex digests of texts, and the text of
a value with sorted keys. -/
structure Hashing where
  sha256 : String → String
  dumps : Json → String
  length_sha256 : ∀ text, (sha256 text).toList.length = 64

/-- `text[:n]`. -/
def firstChars (n : Nat) (text : String) : String := String.ofList (text.toList.take n)

/-! ## The manifest -/

/-- Everything needed to reproduce a run, recorded before it starts. -/
structure RunManifest where
  runId : String
  dataset : String
  split : String
  model : String
  retrieverModelVersion : String
  promptVersion : String
  commit : String
  seed : Int := 0
  startedAt : String := ""
  notes : String := ""
  baseline : String := ""
  codeDigest : String := ""
  deriving DecidableEq, Repr

namespace RunManifest

variable (hashing : Hashing) (manifest : RunManifest)

/-- What a change of invalidates a partial run. -/
def configuration : Json :=
  .obj [("dataset", .str manifest.dataset), ("split", .str manifest.split),
    ("model", .str manifest.model),
    ("retriever_model_version", .str manifest.retrieverModelVersion),
    ("prompt_version", .str manifest.promptVersion), ("code_digest", .str manifest.codeDigest),
    ("seed", .int manifest.seed), ("baseline", .str manifest.baseline)]

def configFingerprint : String :=
  firstChars 16 (hashing.sha256 (hashing.dumps manifest.configuration))

def toDict : Json :=
  .obj [("run_id", .str manifest.runId), ("dataset", .str manifest.dataset),
    ("split", .str manifest.split), ("model", .str manifest.model),
    ("retriever_model_version", .str manifest.retrieverModelVersion),
    ("prompt_version", .str manifest.promptVersion), ("commit", .str manifest.commit),
    ("seed", .int manifest.seed), ("started_at", .str manifest.startedAt),
    ("notes", .str manifest.notes), ("baseline", .str manifest.baseline),
    ("code_digest", .str manifest.codeDigest),
    ("config_fingerprint", .str (manifest.configFingerprint hashing))]

end RunManifest

/-! ## A question's record -/

/-- Rows of each result set written to disk for a question. -/
def maxPersistedRows : Nat := 50

/-- One question's full record. -/
structure QuestionArtifact where
  questionId : String
  question : String
  goldSql : String
  generatedSql : Option String := none
  matched : Option Bool := none
  verdict : String := ""
  failureCategory : String := "none"
  validationAttempts : Int := 0
  errorType : Option String := none
  errorMessage : String := ""
  recallAtK : List (Nat × Rat) := []
  goldElementCount : Nat := 0
  unresolvedReferences : Nat := 0
  durationMs : PyFloat := .finite 0
  inputTokens : Int := 0
  outputTokens : Int := 0
  answeringModel : String := ""
  goldRows : List (List PyValue) := []
  predictedRows : List (List PyValue) := []
  rowsTruncated : Bool := false

mutual

/-- A cell as `json.dumps(.., default=str)` writes it: what JSON has no form for
is the text `str` gives. -/
def cellJson (str : PyValue → String) : PyValue → Json
  | .none => .null
  | .bool b => .bool b
  | .int n => .int n
  | .float x => .float x
  | .sequence items => .arr (cellsJson str items)
  | .dict members => .obj (membersJson str members)
  | .str s => .str s
  | value => .str (str value)

def cellsJson (str : PyValue → String) : List PyValue → List Json
  | [] => []
  | item :: rest => cellJson str item :: cellsJson str rest

def membersJson (str : PyValue → String) : List (String × PyValue) → List (String × Json)
  | [] => []
  | (key, value) :: rest => (key, cellJson str value) :: membersJson str rest

end

def optional {α : Type} (write : α → Json) : Option α → Json
  | none => .null
  | some a => write a

namespace QuestionArtifact

variable (str : PyValue → String) (artifact : QuestionArtifact)

/-- A copy with result sets clipped for storage. -/
def bounded (limit : Nat := maxPersistedRows) : QuestionArtifact :=
  { artifact with
    goldRows := artifact.goldRows.take limit
    predictedRows := artifact.predictedRows.take limit
    rowsTruncated := artifact.goldRows.length > limit || artifact.predictedRows.length > limit }

/-- The record as JSON. -/
def asdict : Json :=
  .obj [("question_id", .str artifact.questionId), ("question", .str artifact.question),
    ("gold_sql", .str artifact.goldSql), ("generated_sql", optional .str artifact.generatedSql),
    ("matched", optional .bool artifact.matched), ("verdict", .str artifact.verdict),
    ("failure_category", .str artifact.failureCategory),
    ("validation_attempts", .int artifact.validationAttempts),
    ("error_type", optional .str artifact.errorType),
    ("error_message", .str artifact.errorMessage),
    ("recall_at_k", .obj (artifact.recallAtK.map fun r => (toString r.1, .float (.finite r.2)))),
    ("gold_element_count", .int artifact.goldElementCount),
    ("unresolved_references", .int artifact.unresolvedReferences),
    ("duration_ms", .float artifact.durationMs), ("input_tokens", .int artifact.inputTokens),
    ("output_tokens", .int artifact.outputTokens),
    ("answering_model", .str artifact.answeringModel),
    ("gold_rows", .arr (artifact.goldRows.map fun row => .arr (cellsJson str row))),
    ("predicted_rows", .arr (artifact.predictedRows.map fun row => .arr (cellsJson str row))),
    ("rows_truncated", .bool artifact.rowsTruncated)]

def payload : Json := artifact.bounded.asdict str

end QuestionArtifact

/-! ## File names -/

def maxFilenameStem : Nat := 80

/-- Outside `[A-Za-z0-9_-]`. -/
def unsafeInFilename (c : Char) : Bool :=
  !(('A' ≤ c && c ≤ 'Z') || ('a' ≤ c && c ≤ 'z') || ('0' ≤ c && c ≤ '9') || c == '_' || c == '-')

/-- The first eight digits of the hash of an id. -/
def digest (hashing : Hashing) (questionId : String) : String :=
  firstChars 8 (hashing.sha256 questionId)

/-- A legal file name for a question's artifact; the hash of the whole id makes
it unique. -/
def artifactFilename (hashing : Hashing) (questionId : String) : String :=
  let stem := firstChars maxFilenameStem
    (String.ofList (questionId.toList.map fun c => if unsafeInFilename c then '-' else c))
  stem ++ "-" ++ digest hashing questionId ++ ".json"

theorem length_digest (hashing : Hashing) (questionId : String) :
    (digest hashing questionId).toList.length = 8 := by
  simp [digest, firstChars, hashing.length_sha256]

/-- The digest can be read off a file name. -/
theorem digest_of_artifactFilename {hashing : Hashing} {one other : String}
    (same : artifactFilename hashing one = artifactFilename hashing other) :
    digest hashing one = digest hashing other := by
  have characters := congrArg String.toList same
  simp only [artifactFilename, String.toList_append] at characters
  have tails := List.append_cancel_right characters
  have digests := (List.append_inj' tails (by rw [length_digest, length_digest])).2
  exact String.toList_inj.mp digests

/-! ## The store -/

/-- What reading a file and parsing it gives. -/
abbrev FileContent := Except String Json

/-- A run's directory: the manifest, and the files under `questions/`. -/
structure RunDirectory where
  manifest : Option FileContent
  questions : AList fun _ : String => FileContent

/-- A store: the directory's path, and the configuration of the run. -/
structure RunStore where
  root : String
  manifest : RunManifest

/-- The id of a question that a file records as answered. A file that cannot be
read so far, or whose error type is no text, is ignored. -/
def answeredId (p : Platform) (content : FileContent) : Option String :=
  match content with
  | .ok (.obj record) =>
    match Json.get? record "question_id" with
    | none => none
    | some id =>
      match Json.get? record "error_type" with
      | none | some .null => some (textOf id)
      | some (.str errorType) =>
        if isInfrastructure (some errorType) then none else some (textOf id)
      | some _ => none
  | _ => none
where
  textOf : Json → String
    | .str s => s
    | value => p.str value

/-- The ids of the questions answered in a directory. -/
def answeredIds (p : Platform) (questions : AList fun _ : String => FileContent) : List String :=
  questions.entries.filterMap fun file => answeredId p file.2

namespace RunStore

variable (hashing : Hashing) (p : Platform) (store : RunStore)

/-- Writes the manifest where there is none. -/
def start (d : RunDirectory) : RunDirectory :=
  match d.manifest with
  | some _ => d
  | none => { d with manifest := some (.ok (store.manifest.toDict hashing)) }

/-- `str(existing.get("config_fingerprint"))`. -/
def shown : Option Json → String
  | none | some .null => "None"
  | some (.str s) => s
  | some value => p.str value

def mismatch (existing : Option Json) : String :=
  let root := store.root
  let found := shown p existing
  let wanted := store.manifest.configFingerprint hashing
  s!"{root} holds a run with a different configuration ({found} vs {wanted}). " ++
    "Resuming would mix two configurations into one score. Use a new --run-id, or delete " ++
    "the directory if the earlier run is not worth keeping."

/-- Question ids already answered, after checking that the configuration matches. -/
def resume (d : RunDirectory) : Except Raised (List String) :=
  match d.manifest with
  | none => .ok []
  | some (.error text) => .error (.unexpected text)
  | some (.ok (.obj existing)) =>
    let recorded := Json.get? existing "config_fingerprint"
    match recorded with
    | some (.str fingerprint) =>
      if fingerprint = store.manifest.configFingerprint hashing then
        .ok (answeredIds p d.questions)
      else .error (.unexpected (store.mismatch hashing p recorded))
    | _ => .error (.unexpected (store.mismatch hashing p recorded))
  | some (.ok value) =>
    let type := value.typeName
    .error (.unexpected s!"'{type}' object has no attribute 'get'")

end RunStore

/-- `RunStore.record`, over the file of an earlier attempt if there is one. -/
def record (hashing : Hashing) (str : PyValue → String)
    (questions : AList fun _ : String => FileContent) (artifact : QuestionArtifact) :
    AList fun _ : String => FileContent :=
  questions.insert (artifactFilename hashing artifact.questionId) (.ok (artifact.payload str))

/-- A record is of an answered question unless it is of an infrastructure failure. -/
theorem answeredId_payload (p : Platform) (str : PyValue → String) (artifact : QuestionArtifact) :
    answeredId p (.ok (artifact.payload str)) =
      if isInfrastructure artifact.errorType then none else some artifact.questionId := by
  cases failure : artifact.errorType with
  | none => simp [answeredId, QuestionArtifact.payload, QuestionArtifact.asdict,
      QuestionArtifact.bounded, Json.get?, failure, optional, isInfrastructure, answeredId.textOf]
  | some e =>
    simp [answeredId, QuestionArtifact.payload, QuestionArtifact.asdict,
      QuestionArtifact.bounded, Json.get?, failure, optional, answeredId.textOf]

end Artifacts
