import TextToSqlAgent.Evals.Verified

/-!
# Questions, and the splits they belong to

A file of questions has one object to a line. Whatever its questions say, it is read as
it was written, and a split of it is what is read when only that split is asked for.
-/

namespace Dataset

open Python JsonText Identifiers Runner Gold Verify

inductive Split
  | train
  | dev
  | heldOut
  | smoke
  deriving DecidableEq, Repr

def Split.value : Split → String
  | .train => "train"
  | .dev => "dev"
  | .heldOut => "held-out"
  | .smoke => "smoke"

def splits : List Split := [.train, .dev, .heldOut, .smoke]

/-- What the split of a question is: the value of one. -/
def HasSplit (question : Question) : Prop := ∃ split : Split, question.split = split.value

/-! ## Writing -/

def questionMembers (question : Question) : List (String × Json) :=
  [("question_id", .str question.questionId), ("question", .str question.question),
    ("gold_sql", .str question.goldSql), ("dataset", .str question.dataset),
    ("split", .str question.split), ("db_id", .str question.dbId)]

/-- Write a split file. -/
def writeQuestions (floatText : Rat → String) (questions : List Question) : String :=
  writeJsonl floatText (questions.map fun question => .obj (questionMembers question))

/-! ## Reading -/

section Reading

variable (unicode : Unicode) (other : Json → String) (path : String)

/-- `Split(raw.get("split", Split.DEV))`; of a value that is no text, `repr` is `str`. -/
def splitOf (members : List (String × Json)) : Except String Split :=
  match Json.get? members "split" with
  | none => .ok .dev
  | some (.str text) =>
    match splits.find? fun split => split.value == text with
    | some split => .ok split
    | none =>
      let shown := repr unicode text
      .error s!"{shown} is not a valid Split"
  | some value =>
    let shown := other value
    .error s!"{shown} is not a valid Split"

def questionKeys : List String := ["gold_sql", "question", "question_id"]

/-- The question of one object. -/
def questionOfMembers (number : Nat) (members : List (String × Json)) :
    Except Unreadable Question :=
  let missing := questionKeys.filter fun key => (Json.get? members key).isNone
  let names := ", ".intercalate (missing.map (repr unicode))
  if !missing.isEmpty then .error (.raised s!"{path}:{number} is missing [{names}]")
  else match splitOf unicode other members with
    | .error message => .error (.raised message)
    | .ok split => .ok
      { questionId := textField other members "question_id"
        question := textField other members "question"
        goldSql := textField other members "gold_sql"
        dataset := ((Json.get? members "dataset").map (strOf other)).getD "default"
        split := split.value
        dbId := textField other members "db_id" }

/-- The question of one line. -/
def questionOfLine (number : Nat) (line : String) : Except Unreadable Question :=
  match loads line with
  | .error (.decode msg) => .error (.raised s!"{path}:{number} is not valid JSON: {msg}")
  | .error (.value message) => .error (.raised message)
  | .error .surrogate => .error .surrogate
  | .ok (.obj members) => questionOfMembers unicode other path number members
  | .ok value =>
    let type := value.typeName
    .error (.raised s!"'{type}' object has no attribute 'keys'")

/-- The ids seen so far, and those of them seen again. -/
def countId (counted : List String × List String) (question : Question) :
    List String × List String :=
  (counted.1.insert question.questionId,
    if question.questionId ∈ counted.1 then counted.2.insert question.questionId else counted.2)

def duplicates (questions : List Question) : List String :=
  (questions.foldl countId ([], [])).2

/-- `_assert_unique`. -/
def assertUnique (questions : List Question) : Except Unreadable Unit :=
  let found := (duplicates questions).insertionSort (· ≤ ·)
  let names := ", ".intercalate (found.map (repr unicode))
  if found.isEmpty then .ok ()
  else .error (.raised s!"{path} has duplicate question_id(s): [{names}]")

def isWanted (split : Option Split) (question : Question) : Bool :=
  match split with
  | none => true
  | some split => question.split == split.value

/-- Read questions from JSONL, one object per line; the text is that of the file. -/
def loadQuestions (split : Option Split) (text : String) : Except Unreadable (List Question) := do
  let read ← (written ((splitlines text).zipIdx 1)).mapM fun line =>
    questionOfLine unicode other path line.2 line.1
  let questions := read.filter (isWanted split)
  assertUnique unicode path questions
  return questions

end Reading

/-! ## What is accepted -/

theorem duplicates_foldl_eq_nil_iff {questions : List Question} {seen found : List String} :
    (questions.foldl countId (seen, found)).2 = [] ↔
      found = [] ∧ (questions.map Question.questionId).Nodup ∧
        ∀ question ∈ questions, question.questionId ∉ seen := by
  induction questions generalizing seen found with
  | nil => simp
  | cons question rest ih =>
    rw [List.foldl_cons, countId, ih, List.map_cons, List.nodup_cons, List.forall_mem_cons]
    by_cases again : question.questionId ∈ seen
    · rw [if_pos again]
      have some : found.insert question.questionId ≠ [] :=
        List.ne_nil_of_mem (List.mem_insert_self)
      constructor
      · intro none_
        exact absurd none_.1 some
      · intro fresh
        exact absurd again fresh.2.2.1
    · rw [if_neg again]
      simp only [List.mem_insert_iff, not_or, List.mem_map, not_exists, not_and]
      constructor
      · rintro ⟨none_, distinct, fresh⟩
        exact ⟨none_, ⟨fun other listed same => (fresh other listed).1 same, distinct⟩, again,
          fun other listed => (fresh other listed).2⟩
      · rintro ⟨none_, ⟨apart, distinct⟩, -, fresh⟩
        exact ⟨none_, distinct, fun other listed => ⟨apart other listed, fresh other listed⟩⟩

theorem assertUnique_ok_iff {unicode : Unicode} {path : String} {questions : List Question}
    {u : Unit} : assertUnique unicode path questions = .ok u ↔
      (questions.map Question.questionId).Nodup := by
  have none_ : ((duplicates questions).insertionSort (· ≤ ·)).isEmpty = true ↔
      (questions.map Question.questionId).Nodup := by
    rw [List.isEmpty_iff, ← List.length_eq_zero_iff, List.length_insertionSort,
      List.length_eq_zero_iff, duplicates, duplicates_foldl_eq_nil_iff]
    simp
  rw [← none_]
  unfold assertUnique
  dsimp only
  split
  · rename_i empty
    exact iff_of_true rfl empty
  · rename_i some
    exact iff_of_false (by simp) some

/-- A file is accepted exactly when every line that is not blank gives a question and no
id is twice among those that are wanted, which are then returned. -/
theorem loadQuestions_ok_iff {unicode : Unicode} {other : Json → String} {path text : String}
    {split : Option Split} {questions : List Question} :
    loadQuestions unicode other path split text = .ok questions ↔
      ∃ read, ((written ((splitlines text).zipIdx 1)).mapM fun line =>
          questionOfLine unicode other path line.2 line.1) = .ok read ∧
        questions = read.filter (isWanted split) ∧
        (questions.map Question.questionId).Nodup := by
  unfold loadQuestions
  rw [Fallible.bind_ok_iff]
  refine exists_congr fun read => and_congr_right fun _ => ?_
  dsimp only
  rw [Fallible.bind_ok_iff]
  constructor
  · rintro ⟨_, unique, same⟩
    obtain rfl := Except.ok.inj same
    exact ⟨rfl, assertUnique_ok_iff.mp unique⟩
  · rintro ⟨rfl, distinct⟩
    exact ⟨(), assertUnique_ok_iff.mpr distinct, rfl⟩

/-! ## What is written is read -/

section Back

variable {unicode : Unicode} {other : Json → String} {path : String} {floatText : Rat → String}

theorem plain_questionMembers (question : Question) : Plain (.obj (questionMembers question)) := by
  constructor
  · simp [questionMembers]
  · simp only [questionMembers, List.forall_mem_cons]
    exact ⟨.str _, .str _, .str _, .str _, .str _, .str _, by simp⟩

theorem splitOf_questionMembers {question : Question} {split : Split}
    (own : question.split = split.value) :
    splitOf unicode other (questionMembers question) = .ok split := by
  have found : Json.get? (questionMembers question) "split" = some (.str split.value) := by
    simp [Json.get?, questionMembers, own]
  unfold splitOf
  rw [found]
  cases split <;> rfl

theorem questionOfMembers_questionMembers {question : Question} (has : HasSplit question)
    (number : Nat) :
    questionOfMembers unicode other path number (questionMembers question) = .ok question := by
  obtain ⟨split, own⟩ := has
  have complete : (questionKeys.filter fun key =>
      (Json.get? (questionMembers question) key).isNone) = [] := by
    simp [questionKeys, Json.get?, questionMembers]
  unfold questionOfMembers
  rw [complete, splitOf_questionMembers own]
  simp [textField, Json.get?, questionMembers, strOf, ← own]

/-- Each line is read as the question it was written for. -/
theorem questionsOfLines_dumps {questions : List Question}
    (split : ∀ question ∈ questions, HasSplit question) (number : Nat) :
    ((written ((questions.map fun question =>
        dumps floatText (.obj (questionMembers question))).zipIdx number)).mapM fun line =>
      questionOfLine unicode other path line.2 line.1) = .ok questions := by
  induction questions generalizing number with
  | nil => rfl
  | cons question rest ih =>
    have later := ih (fun q listed => split q (List.mem_cons_of_mem _ listed)) (number + 1)
    rw [List.map_cons, List.zipIdx_cons, written,
      List.filter_cons_of_pos (by simp [Verified.strip_dumps_obj])]
    refine Fallible.mapM_cons_ok_iff.mpr ⟨_, _, ?_, later, rfl⟩
    rw [questionOfLine, loads_dumps (plain_questionMembers question)]
    exact questionOfMembers_questionMembers (split question List.mem_cons_self) number

/-- Whatever texts are in questions, a file of them is read as they are if their ids are
distinct, and a split of them by itself. -/
theorem loadQuestions_writeQuestions (unicode : Unicode) (other : Json → String) (path : String)
    (floatText : Rat → String) {questions : List Question}
    (distinct : (questions.map Question.questionId).Nodup)
    (split : ∀ question ∈ questions, HasSplit question) :
    loadQuestions unicode other path none (writeQuestions floatText questions) = .ok questions ∧
      ∀ wanted : Split,
        loadQuestions unicode other path (some wanted) (writeQuestions floatText questions) =
          .ok (questions.filter fun question => question.split = wanted.value) := by
  have plain : ∀ row ∈ questions.map fun question => Json.obj (questionMembers question),
      Plain row := by
    intro row listed
    obtain ⟨question, -, rfl⟩ := List.mem_map.mp listed
    exact plain_questionMembers question
  have read : ((written ((splitlines (writeQuestions floatText questions)).zipIdx 1)).mapM
      fun line => questionOfLine unicode other path line.2 line.1) = .ok questions := by
    rw [writeQuestions, splitlines_writeJsonl plain, List.map_map]
    exact questionsOfLines_dumps split 1
  constructor
  · refine loadQuestions_ok_iff.mpr ⟨questions, read, ?_, distinct⟩
    exact (List.filter_eq_self.mpr fun _ _ => rfl).symm
  · intro wanted
    refine loadQuestions_ok_iff.mpr ⟨questions, read, rfl, ?_⟩
    exact distinct.sublist (List.filter_sublist.map _)

/-- Line separators, control characters, quotes and emoji come back, and a split of
them is read alone. -/
theorem loadQuestions_writeQuestions_breaks :
    let questions : List Question :=
      [⟨"a", "how\u2028many\r\n?", "SELECT '\"\\\x00'", "spider", "held-out", "db\x85"⟩,
        ⟨"b", "", "🙂\x0b\x1c", "", "dev", ""⟩]
    let text := writeQuestions (fun _ => "") questions
    loadQuestions plainUnicode (fun _ => "") "dev.jsonl" none text = .ok questions ∧
      loadQuestions plainUnicode (fun _ => "") "dev.jsonl" (some .dev) text =
        .ok [⟨"b", "", "🙂\x0b\x1c", "", "dev", ""⟩] := by
  intro questions text
  have split : ∀ question ∈ questions, HasSplit question := by
    intro question listed
    rcases List.mem_pair.mp listed with rfl | rfl
    · exact ⟨.heldOut, rfl⟩
    · exact ⟨.dev, rfl⟩
  have distinct : (questions.map Question.questionId).Nodup := by decide
  have back := loadQuestions_writeQuestions plainUnicode (fun _ => "") "dev.jsonl" (fun _ => "")
    distinct split
  exact ⟨back.1, (back.2 .dev).trans (by decide)⟩

end Back

end Dataset
