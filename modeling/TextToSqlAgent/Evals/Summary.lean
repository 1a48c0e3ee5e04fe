import TextToSqlAgent.Library.Fallible
import TextToSqlAgent.Evals.Runner

/-!
# The summary of a run

`RunStore.artifacts` and `EvalRunner._summarise`. A record read back keeps the
values its file holds: nothing looks at their types until they are added up,
counted or looked up in a set. Sums and averages are exact: what is reported of
an average is it to four decimal places.
-/

namespace Summary

open Python Exceptions Canonical Validator Taxonomy Artifacts Runner Fallible

/-! ## Reading the records back -/

/-- What the summary reads of a record. -/
structure StoredArtifact where
  matched : Json
  failureCategory : Json
  recallAtK : AList fun _ : Int => Json
  unresolvedReferences : Json
  durationMs : Json
  inputTokens : Json
  outputTokens : Json
  answeringModel : Json

/-- The fields of a `QuestionArtifact`. -/
def fieldNames : List String :=
  ["question_id", "question", "gold_sql", "generated_sql", "matched", "verdict",
    "failure_category", "validation_attempts", "error_type", "error_message", "recall_at_k",
    "gold_element_count", "unresolved_references", "duration_ms", "input_tokens",
    "output_tokens", "answering_model", "gold_rows", "predicted_rows", "rows_truncated"]

/-- Those without a default. -/
def requiredFields : List String := ["question_id", "question", "gold_sql"]

/-- `{int(k): v for k, v in members}`. -/
def intKeys : (AList fun _ : Int => Json) → List (String × Json) →
    Except Raised (AList fun _ : Int => Json)
  | d, [] => .ok d
  | d, (key, value) :: rest =>
    match int key with
    | none => .error (.unexpected s!"invalid literal for int() with base 10: '{key}'")
    | some k => intKeys (d.insert k value) rest

/-- `(data.get("recall_at_k") or {}).items()`, with its keys as integers. -/
def recallItems (recorded : Option Json) : Except Raised (AList fun _ : Int => Json) :=
  match recorded with
  | none => .ok ∅
  | some value =>
    if value.truthy then
      match value with
      | .obj members => intKeys ∅ members
      | value =>
        let type := value.typeName
        .error (.unexpected s!"'{type}' object has no attribute 'items'")
    else .ok ∅

/-- What the constructor says of the arguments it misses. -/
def missingArguments : List String → Option String
  | [] => none
  | [a] => some s!"missing 1 required positional argument: '{a}'"
  | [a, b] => some s!"missing 2 required positional arguments: '{a}' and '{b}'"
  | a :: b :: c :: _ => some s!"missing 3 required positional arguments: '{a}', '{b}', and '{c}'"

/-- `QuestionArtifact(**data)`. -/
def fromFields (data : List (String × Json)) (recallAtK : AList fun _ : Int => Json) :
    Except Raised StoredArtifact :=
  match data.find? fun member => !fieldNames.contains member.1 with
  | some (name, _) =>
    .error (.unexpected
      s!"QuestionArtifact.__init__() got an unexpected keyword argument '{name}'")
  | none =>
    match missingArguments (requiredFields.filter fun name => (Json.get? data name).isNone) with
    | some missing => .error (.unexpected ("QuestionArtifact.__init__() " ++ missing))
    | none =>
      let field (name : String) (default : Json) := (Json.get? data name).getD default
      .ok {
        matched := field "matched" .null
        failureCategory := field "failure_category" (.str "none")
        recallAtK := recallAtK
        unresolvedReferences := field "unresolved_references" (.int 0)
        durationMs := field "duration_ms" (.float (.finite 0))
        inputTokens := field "input_tokens" (.int 0)
        outputTokens := field "output_tokens" (.int 0)
        answeringModel := field "answering_model" (.str "") }

/-- One file as a record. -/
def load (content : FileContent) : Except Raised StoredArtifact :=
  match content with
  | .error text => .error (.unexpected text)
  | .ok (.obj data) => do
    let recallAtK ← recallItems (Json.get? data "recall_at_k")
    fromFields data recallAtK
  | .ok value =>
    let type := value.typeName
    .error (.unexpected s!"'{type}' object has no attribute 'get'")

/-- The files by their names. -/
def sortedFiles (questions : AList fun _ : String => FileContent) :
    List (Sigma fun _ : String => FileContent) :=
  questions.entries.mergeSort fun a b => a.1 ≤ b.1

/-- Every recorded question. -/
def artifacts (questions : AList fun _ : String => FileContent) :
    Except Raised (List StoredArtifact) :=
  (sortedFiles questions).mapM fun file => load file.2

/-! ## Adding up -/

/-- The categories that leave the denominator. -/
def unscored : List FailureCategory := [.goldError, .infrastructure]

/-- `category == a.failure_category`. -/
def StoredArtifact.isOf (a : StoredArtifact) (category : FailureCategory) : Bool :=
  match a.failureCategory with
  | .str s => s = category.value
  | _ => false

/-- Whether nothing rules out that the question was scored. -/
def StoredArtifact.scorable (a : StoredArtifact) : Bool := !unscored.any a.isOf

/-- Looking values up in a set raises on the first one that cannot be hashed. -/
def hashAll (values : List Json) : Except Raised Unit :=
  match values.find? fun value => !value.hashable with
  | none => .ok ()
  | some value =>
    let type := value.typeName
    .error (.unexpected s!"unhashable type: '{type}'")

/-- `sum(values)`. -/
def sumOf (values : List Json) : Except Raised PyFloat := do
  let numbers ← values.mapM fun value =>
    match value.number with
    | some x => .ok x
    | none =>
      let type := value.typeName
      .error (.unexpected s!"unsupported operand type(s) for +: 'int' and '{type}'")
  return numbers.foldl PyFloat.add (.finite 0)

/-- A key of a dictionary: numbers that are equal are one key. -/
inductive Key
  | text (s : String)
  | number (x : PyFloat)
  | null
  deriving DecidableEq, Repr

def keyOf : Json → Key
  | .str s => .text s
  | .bool b => .number (.finite (if b then 1 else 0))
  | .int n => .number (.finite n)
  | .float x => .number x
  | _ => .null

/-- Questions answered, for each model, in the order in which the models appear. -/
def answeredBy (models : List Json) : List (Key × Nat) :=
  Counting.items ((models.filter Json.truthy).map keyOf)

/-- The cut-offs that occur, in order. -/
def cutoffs (stored : List StoredArtifact) : List Int :=
  ((stored.flatMap fun a => a.recallAtK.keys).dedup).mergeSort fun j k => j ≤ k

/-- The recall values at one cut-off. -/
def recallAt (k : Int) (stored : List StoredArtifact) : List Json :=
  stored.filterMap fun a => a.recallAtK.lookup k

/-- The average recall at one cut-off. -/
def meanRecall (stored : List StoredArtifact) (k : Int) : Except Raised (Int × PyFloat) := do
  let values := recallAt k stored
  let total ← sumOf values
  return (k, total.divBy values.length)

/-- The aggregate. -/
structure RunSummary where
  total : Nat
  scored : Nat
  matched : Nat
  goldErrors : Nat
  infrastructureErrors : Nat
  answeredBy : List (Key × Nat)
  failures : List (String × Nat)
  recallScored : Nat
  unresolvedReferences : PyFloat
  recalls : List (Int × PyFloat)
  inputTokens : PyFloat
  outputTokens : PyFloat
  durationMs : PyFloat
  deriving DecidableEq, Repr

/-- Matched over scored; none where nothing was scored. -/
def RunSummary.executionAccuracy (s : RunSummary) : Option Rat :=
  if s.scored = 0 then none else some (s.matched / s.scored)

def summarise (stored : List StoredArtifact) : Except Raised RunSummary := do
  hashAll (stored.map StoredArtifact.failureCategory)
  hashAll ((stored.map StoredArtifact.answeringModel).filter Json.truthy)
  let unresolved ← sumOf (stored.map StoredArtifact.unresolvedReferences)
  let recalls ← (cutoffs stored).mapM (meanRecall stored)
  let inputTokens ← sumOf (stored.map StoredArtifact.inputTokens)
  let outputTokens ← sumOf (stored.map StoredArtifact.outputTokens)
  let durationMs ← sumOf (stored.map StoredArtifact.durationMs)
  let scorable := stored.filter StoredArtifact.scorable
  return {
    total := stored.length
    scored := scorable.length
    matched := scorable.countP fun a => a.matched.truthy
    goldErrors := stored.countP fun a => a.isOf .goldError
    infrastructureErrors := stored.countP fun a => a.isOf .infrastructure
    answeredBy := answeredBy (stored.map StoredArtifact.answeringModel)
    failures := counts (stored.map fun a => parseCategory a.failureCategory)
    recallScored := stored.countP fun a => !a.recallAtK.entries.isEmpty
    unresolvedReferences := unresolved
    recalls, inputTokens, outputTokens, durationMs }

/-! ## When there is a summary -/

theorem hashAll_ok_iff {values : List Json} :
    hashAll values = .ok () ↔ ∀ v ∈ values, v.hashable = true := by
  rw [hashAll]
  constructor
  · intro hashed v hv
    by_contra unhashable
    have refused : (values.find? fun v => !v.hashable).isSome = true :=
      List.find?_isSome.mpr ⟨v, hv, by simp [unhashable]⟩
    obtain ⟨first, found⟩ := Option.isSome_iff_exists.mp refused
    rw [found] at hashed
    cases hashed
  · intro hashable
    have none : values.find? (fun v => !v.hashable) = none := by
      simpa [List.find?_eq_none] using hashable
    rw [none]

theorem sumOf_isOk_iff {values : List Json} :
    (∃ x, sumOf values = .ok x) ↔ ∀ v ∈ values, v.number.isSome = true := by
  constructor
  · rintro ⟨x, summed⟩ v hv
    obtain ⟨numbers, mapped, -⟩ := bind_ok_iff.mp summed
    obtain ⟨y, found⟩ := ok_of_mapM mapped v hv
    cases number : v.number with
    | none =>
      rw [number] at found
      cases found
    | some x => rfl
  · intro numbers
    have each : ∀ v ∈ values, ∃ y, (match v.number with
        | some x => .ok x
        | none =>
          let type := v.typeName
          .error (.unexpected s!"unsupported operand type(s) for +: 'int' and '{type}'") :
        Except Raised PyFloat) = .ok y := by
      intro v hv
      obtain ⟨x, number⟩ := Option.isSome_iff_exists.mp (numbers v hv)
      exact ⟨x, by rw [number]⟩
    obtain ⟨xs, mapped⟩ := mapM_isOk_iff.mpr each
    exact ⟨_, bind_ok_iff.mpr ⟨xs, mapped, rfl⟩⟩

/-- Exact numbers add up to their sum. -/
theorem sumOf_finite (numbers : List Rat) :
    sumOf (numbers.map fun q => .float (.finite q)) = .ok (.finite numbers.sum) := by
  have folded : ∀ start : Rat,
      (numbers.map PyFloat.finite).foldl PyFloat.add (.finite start) =
        .finite (start + numbers.sum) := by
    induction numbers with
    | nil => simp
    | cons first rest ih =>
      intro start
      rw [List.map_cons, List.foldl_cons, PyFloat.add, ih, List.sum_cons, Rat.add_assoc]
  refine bind_ok_iff.mpr ⟨numbers.map PyFloat.finite, ?_, ?_⟩
  · rw [List.mapM_map]
    exact mapM_ok fun q _ => rfl
  · exact congrArg Except.ok ((folded 0).trans (by rw [Rat.zero_add]))

/-- What a record must hold to be added up. -/
structure Summable (a : StoredArtifact) : Prop where
  category : a.failureCategory.hashable = true
  model : a.answeringModel.truthy = true → a.answeringModel.hashable = true
  unresolved : a.unresolvedReferences.number.isSome = true
  recalls : ∀ k, ∀ value ∈ a.recallAtK.lookup k, value.number.isSome = true
  input : a.inputTokens.number.isSome = true
  output : a.outputTokens.number.isSome = true
  duration : a.durationMs.number.isSome = true

theorem mem_cutoffs {stored : List StoredArtifact} {k : Int} :
    k ∈ cutoffs stored ↔ ∃ a ∈ stored, k ∈ a.recallAtK := by
  simp [cutoffs, AList.mem_keys]

theorem meanRecall_isOk_iff {stored : List StoredArtifact} {k : Int} :
    (∃ mean, meanRecall stored k = .ok mean) ↔
      ∀ a ∈ stored, ∀ value ∈ a.recallAtK.lookup k, value.number.isSome = true := by
  have summed : (∃ mean, meanRecall stored k = .ok mean) ↔
      ∃ x, sumOf (recallAt k stored) = .ok x := by
    constructor
    · rintro ⟨mean, averaged⟩
      obtain ⟨x, found, -⟩ := bind_ok_iff.mp averaged
      exact ⟨x, found⟩
    · rintro ⟨x, found⟩
      exact ⟨_, bind_ok_iff.mpr ⟨x, found, rfl⟩⟩
  rw [summed, sumOf_isOk_iff]
  simp only [recallAt, List.mem_filterMap, Option.mem_def]
  constructor
  · intro each a ha value found
    exact each value ⟨a, ha, found⟩
  · rintro each value ⟨a, ha, found⟩
    exact each a ha value found

/-- What a summary says of the records it is made of. -/
structure Aggregates (stored : List StoredArtifact) (s : RunSummary) : Prop where
  total : s.total = stored.length
  scored : s.scored = (stored.filter StoredArtifact.scorable).length
  matched : s.matched = (stored.filter StoredArtifact.scorable).countP fun a => a.matched.truthy
  goldErrors : s.goldErrors = stored.countP fun a => a.isOf .goldError
  infrastructureErrors : s.infrastructureErrors = stored.countP fun a => a.isOf .infrastructure
  failures : s.failures = counts (stored.map fun a => parseCategory a.failureCategory)
  recalls : (cutoffs stored).mapM (meanRecall stored) = .ok s.recalls

/-- Records are added up exactly when each of them can be. -/
theorem summarise_isOk_iff {stored : List StoredArtifact} :
    (∃ s, summarise stored = .ok s) ↔ ∀ a ∈ stored, Summable a := by
  constructor
  · rintro ⟨s, done⟩ a ha
    obtain ⟨⟨⟩, categories, done⟩ := bind_ok_iff.mp done
    obtain ⟨⟨⟩, models, done⟩ := bind_ok_iff.mp done
    obtain ⟨unresolved, unresolvedSum, done⟩ := bind_ok_iff.mp done
    obtain ⟨recalls, means, done⟩ := bind_ok_iff.mp done
    obtain ⟨input, inputSum, done⟩ := bind_ok_iff.mp done
    obtain ⟨output, outputSum, done⟩ := bind_ok_iff.mp done
    obtain ⟨duration, durationSum, done⟩ := bind_ok_iff.mp done
    refine ⟨?_, ?_, ?_, ?_, ?_, ?_, ?_⟩
    · exact hashAll_ok_iff.mp categories _ (List.mem_map_of_mem ha)
    · intro truthy
      exact hashAll_ok_iff.mp models _ (List.mem_filter.mpr ⟨List.mem_map_of_mem ha, truthy⟩)
    · exact sumOf_isOk_iff.mp ⟨_, unresolvedSum⟩ _ (List.mem_map_of_mem ha)
    · intro k value found
      have cutoff : k ∈ cutoffs stored :=
        mem_cutoffs.mpr ⟨a, ha, AList.lookup_isSome.mp (by simp [Option.mem_def.mp found])⟩
      exact meanRecall_isOk_iff.mp (ok_of_mapM means k cutoff) a ha value found
    · exact sumOf_isOk_iff.mp ⟨_, inputSum⟩ _ (List.mem_map_of_mem ha)
    · exact sumOf_isOk_iff.mp ⟨_, outputSum⟩ _ (List.mem_map_of_mem ha)
    · exact sumOf_isOk_iff.mp ⟨_, durationSum⟩ _ (List.mem_map_of_mem ha)
  · intro summable
    have sums : ∀ field : StoredArtifact → Json,
        (∀ a ∈ stored, (field a).number.isSome = true) → ∃ x, sumOf (stored.map field) = .ok x :=
      fun field numbers => sumOf_isOk_iff.mpr (by simpa using numbers)
    have categories : hashAll (stored.map StoredArtifact.failureCategory) = .ok () :=
      hashAll_ok_iff.mpr (by simpa using fun a ha => (summable a ha).category)
    have models : hashAll ((stored.map StoredArtifact.answeringModel).filter Json.truthy) =
        .ok () := by
      refine hashAll_ok_iff.mpr fun v hv => ?_
      obtain ⟨listed, truthy⟩ := List.mem_filter.mp hv
      obtain ⟨a, ha, rfl⟩ := List.mem_map.mp listed
      exact (summable a ha).model truthy
    obtain ⟨unresolved, unresolvedSum⟩ := sums _ fun a ha => (summable a ha).unresolved
    obtain ⟨input, inputSum⟩ := sums _ fun a ha => (summable a ha).input
    obtain ⟨output, outputSum⟩ := sums _ fun a ha => (summable a ha).output
    obtain ⟨duration, durationSum⟩ := sums _ fun a ha => (summable a ha).duration
    obtain ⟨recalls, means⟩ := mapM_isOk_iff.mpr fun k (_ : k ∈ cutoffs stored) =>
      meanRecall_isOk_iff.mpr fun a ha => (summable a ha).recalls k
    refine ⟨_, bind_ok_iff.mpr ⟨_, categories, bind_ok_iff.mpr ⟨_, models, bind_ok_iff.mpr
      ⟨_, unresolvedSum, bind_ok_iff.mpr ⟨_, means, bind_ok_iff.mpr ⟨_, inputSum, bind_ok_iff.mpr
      ⟨_, outputSum, bind_ok_iff.mpr ⟨_, durationSum, rfl⟩⟩⟩⟩⟩⟩⟩⟩

theorem aggregates {stored : List StoredArtifact} {s : RunSummary}
    (done : summarise stored = .ok s) : Aggregates stored s := by
  obtain ⟨⟨⟩, -, done⟩ := bind_ok_iff.mp done
  obtain ⟨⟨⟩, -, done⟩ := bind_ok_iff.mp done
  obtain ⟨unresolved, -, done⟩ := bind_ok_iff.mp done
  obtain ⟨recalls, means, done⟩ := bind_ok_iff.mp done
  obtain ⟨input, -, done⟩ := bind_ok_iff.mp done
  obtain ⟨output, -, done⟩ := bind_ok_iff.mp done
  obtain ⟨duration, -, done⟩ := bind_ok_iff.mp done
  obtain rfl := Except.ok.inj done
  exact ⟨rfl, rfl, rfl, rfl, rfl, rfl, means⟩

end Summary
