import TextToSqlAgent.Benchmark.Questions
import TextToSqlAgent.Core.Blake2b
import TextToSqlAgent.Core.FloatArithmetic
import TextToSqlAgent.Core.JsonLayout
import TextToSqlAgent.Evals.Dataset

/-!
# Which databases are trained on

Split by database, never by question, and by a hash of the name: the bands of the
splits are laid end to end, and a database's bucket decides which one it is in. What
is reserved is held out, wherever its bucket is. The loader writes one file for each
split, and the assignment beside them.
-/

namespace Splits

open Python JsonText Exceptions Identifiers Runner Verify Gold Questions Dataset FloatArithmetic
  JsonLayout

def buckets : Nat := 10000

/-! ## Policies -/

/-- Floats as Python has them. -/
structure Proportions where
  train : PyFloat
  dev : PyFloat
  heldOut : PyFloat
  seed : String
  smoke : PyFloat
  floats : ∀ x ∈ [train, dev, heldOut, smoke], Lasting (.float x)

/-- `1e-9`. -/
def tolerance : PyFloat := rounded (1 / 10 ^ 9)

/-- `__post_init__`. -/
def postInit (str : PyFloat → String) (p : Proportions) : Except String Unit :=
  let total := plus (plus p.train p.dev) p.heldOut
  if (absolute (minus total (.finite 1))).gt tolerance then
    .error ("split proportions must sum to 1.0, got " ++ str total)
  else if lt (least (least p.train p.dev) p.heldOut) (.finite 0) then
    .error "split proportions must be non-negative"
  else if le (.finite 0) p.smoke && le p.smoke p.dev then .ok ()
  else .error ("smoke (" ++ str p.smoke ++ ") must be between 0 and the dev share (" ++
    str p.dev ++ ") -- it is carved out of dev, not added alongside it")

/-- What `__post_init__` lets pass. Of what is not a number nothing is greater. -/
structure Accepted (p : Proportions) : Prop where
  total : (absolute (minus (plus (plus p.train p.dev) p.heldOut) (.finite 1))).gt tolerance = false
  nonneg : lt (least (least p.train p.dev) p.heldOut) (.finite 0) = false
  carved : le (.finite 0) p.smoke = true ∧ le p.smoke p.dev = true

theorem postInit_ok_iff {str : PyFloat → String} {p : Proportions} {u : Unit} :
    postInit str p = .ok u ↔ Accepted p := by
  simp only [postInit]
  split_ifs with far negative carved
  · refine iff_of_false nofun fun accepted => ?_
    rw [accepted.total] at far
    cases far
  · refine iff_of_false nofun fun accepted => ?_
    rw [accepted.nonneg] at negative
    cases negative
  · exact iff_of_true rfl ⟨by simpa using far, by simpa using negative, by simpa using carved⟩
  · refine iff_of_false nofun fun accepted => carved ?_
    rw [accepted.carved.1, accepted.carved.2]
    rfl

/-- The proportions, and the seed that pins them to particular databases. -/
structure SplitPolicy extends Proportions where
  accepted : Accepted toProportions

/-- The policy of proportions that are accepted. -/
def splitPolicy (str : PyFloat → String) (p : Proportions) : Except String SplitPolicy :=
  match checked : postInit str p with
  | .error message => .error message
  | .ok _ => .ok ⟨p, postInit_ok_iff.mp checked⟩

theorem lasting_nearestDouble {q : Rat} (small : |nearestDouble q| < 2 ^ 1024) :
    Lasting (.float (.finite (nearestDouble q))) :=
  .finite (Numbers.isFloat_iff.mpr ⟨Doubles.isDouble_nearestDouble q, small⟩)

/-- The proportions where none are given, and so much of dev to smoke-test. -/
def defaults (smoke : Rat) (small : |nearestDouble smoke| < 2 ^ 1024) : Proportions where
  train := .finite (nearestDouble (70 / 100))
  dev := .finite (nearestDouble (15 / 100))
  heldOut := .finite (nearestDouble (15 / 100))
  seed := "t2sql-v1"
  smoke := .finite (nearestDouble smoke)
  floats := by
    simp only [List.forall_mem_cons]
    exact ⟨lasting_nearestDouble (by decide +kernel), lasting_nearestDouble (by decide +kernel),
      lasting_nearestDouble (by decide +kernel), lasting_nearestDouble small, nofun⟩

/-- The policy where none is given. -/
def defaultPolicy : SplitPolicy where
  toProportions := defaults (25 / 1000) (by decide +kernel)
  accepted := ⟨by decide +kernel, by decide +kernel, by decide +kernel⟩

/-- The same, and nothing to smoke-test. -/
def smokelessPolicy : SplitPolicy where
  toProportions := defaults 0 (by decide +kernel)
  accepted := ⟨by decide +kernel, by decide +kernel, by decide +kernel⟩

/-! ## Assignment -/

/-- A database's stable position. -/
def bucket (dbId seed : String) : Nat :=
  Blake2b.fromBytes (Blake2b.digest (seed ++ ":" ++ dbId)) % buckets

section Assigning

variable (rules : Proportions)

def trainEdge : PyFloat := times rules.train (.finite buckets)

def smokeEdge : PyFloat := plus (trainEdge rules) (times rules.smoke (.finite buckets))

def devEdge : PyFloat := plus (trainEdge rules) (times rules.dev (.finite buckets))

/-- The split of a database by its bucket alone. -/
def band (dbId : String) : Split :=
  let position := PyFloat.finite (bucket dbId rules.seed)
  if lt position (trainEdge rules) then .train
  else if lt position (smokeEdge rules) then .smoke
  else if lt position (devEdge rules) then .dev
  else .heldOut

def place (reserved : Finset String) (dbId : String) : Split :=
  if dbId ∈ reserved then .heldOut else band rules dbId

example : (["concert_singer", "flight_2", "network_1", "pets_1"].map
    (place defaultPolicy.toProportions ∅)) = [.train, .smoke, .dev, .heldOut] := by decide +kernel

/-- Map each database to a split, in the order of the names. -/
def assign (reserved : Finset String) (dbIds : List String) : Dictionary String Split :=
  (dbIds.dedup.insertionSort (· ≤ ·)).foldl
    (fun assignment dbId => assignment.set dbId (place rules reserved dbId)) .empty

end Assigning

def trainedOn : List Split := [.train, .dev, .smoke]

/-- Databases that are both trained on and reported from. -/
def leakedDatabases (assignment : Dictionary String Split) (evaluated : Finset String) :
    Finset String :=
  ((assignment.entries.filter fun entry => entry.1 ∈ evaluated ∧ entry.2 ∈ trainedOn).map
    Prod.fst).toFinset

/-- A question of a database that has a split. -/
def stamp (unicode : Unicode) (assignment : Dictionary String Split) (question : Question) :
    Except Raised Question :=
  match assignment.get? question.dbId with
  | some split => .ok { question with split := split.value }
  | none => .error (.unexpected (repr unicode ("question " ++ repr unicode question.questionId ++
      " names database " ++ repr unicode question.dbId ++ ", which has no split assignment")))

/-- Stamp each question with its database's split. -/
def apply (unicode : Unicode) (questions : List Question) (assignment : Dictionary String Split) :
    Except Raised (List Question) :=
  questions.mapM (stamp unicode assignment)

structure SplitCount where
  databases : Nat
  questions : Nat
  deriving DecidableEq, Repr

def SplitCount.addDatabase (count : SplitCount) : SplitCount :=
  { count with databases := count.databases + 1 }

def SplitCount.addQuestion (count : SplitCount) : SplitCount :=
  { count with questions := count.questions + 1 }

/-- Databases and questions per split. -/
def summarise (assignment : Dictionary String Split) (questions : List Question) :
    Dictionary String SplitCount :=
  let tally := Dictionary.ofList (splits.map fun split => (split.value, SplitCount.mk 0 0))
  let tally := assignment.entries.foldl
    (fun tally entry => tally.modify entry.2.value SplitCount.addDatabase) tally
  questions.foldl (fun tally question =>
    match assignment.get? question.dbId with
    | some split => tally.modify split.value SplitCount.addQuestion
    | none => tally) tally

/-! ## The command -/

section Command

variable (unicode : Unicode) (floatText : Rat → String)

/-- The questions of one split. -/
def subset (questions : List Question) (split : Split) : List Question :=
  questions.filter fun question => question.split = split.value

/-- The name of a split's file. -/
def splitFile (dataset : String) (split : Split) : String :=
  dataset ++ "-" ++ split.value ++ ".jsonl"

/-- The assignment as it is written beside the questions. -/
def assignmentJson (policy : Proportions) (assignment : Dictionary String Split) : Json :=
  .obj [("seed", .str policy.seed),
    ("policy", .obj [("train", .float policy.train), ("dev", .float policy.dev),
      ("held_out", .float policy.heldOut)]),
    ("databases", .obj ((assignment.entries.insertionSort fun a b => a.1 ≤ b.1).map
      fun entry => (entry.1, .str entry.2.value)))]

/-- What the command leaves: files of questions, how many are in each, the file of the
assignment, and what it prints. -/
structure Written where
  files : List (String × String)
  counts : List (String × Nat)
  assignmentFile : String × String
  summary : Dictionary String SplitCount

/-- Assign databases to splits, and write the question files. Leaked names are the
command's failure. -/
def commandSplits (policy : SplitPolicy) (reserved : Finset String) (dataset : String)
    (questions : List Question) : Except Raised (Except (Finset String) Written) := do
  let assignment := assign policy.toProportions reserved (questions.map Question.dbId)
  let leaked := leakedDatabases assignment reserved
  if leaked ≠ ∅ then return .error leaked
  let stamped ← apply unicode questions assignment
  let subsets := (splits.map fun split => (split, subset stamped split)).filter
    fun entry => entry.2 ≠ []
  return .ok
    { files := subsets.map fun entry =>
        (splitFile dataset entry.1, writeQuestions floatText entry.2)
      counts := subsets.map fun entry => (splitFile dataset entry.1, entry.2.length)
      assignmentFile := (dataset ++ "-assignment.json",
        dumpsIndented (assignmentJson policy.toProportions assignment) ++ "\n")
      summary := summarise assignment stamped }

end Command

/-! ## What an assignment says -/

section Assignment

variable {rules : Proportions} {reserved : Finset String}

/-- A database's split is a matter of its own name. -/
theorem get?_assign (dbIds : List String) (dbId : String) :
    (assign rules reserved dbIds).get? dbId =
      if dbId ∈ dbIds then some (place rules reserved dbId) else none := by
  rw [assign, Dictionary.get?_foldl_set, Dictionary.get?_empty]
  simp only [List.mem_insertionSort, List.mem_dedup]

theorem mem_assign_iff {dbIds : List String} {dbId : String} {split : Split} :
    (dbId, split) ∈ (assign rules reserved dbIds).entries ↔
      dbId ∈ dbIds ∧ place rules reserved dbId = split := by
  rw [Dictionary.mem_entries_iff, get?_assign]
  split
  · rename_i listed
    simp [listed]
  · rename_i missing
    simp [missing]

theorem entries_assign (dbIds : List String) : (assign rules reserved dbIds).entries =
    (dbIds.dedup.insertionSort (· ≤ ·)).map fun dbId => (dbId, place rules reserved dbId) := by
  have distinct : (dbIds.dedup.insertionSort (· ≤ ·)).Nodup :=
    (List.perm_insertionSort _ _).nodup_iff.mpr (List.nodup_dedup _)
  rw [assign, Dictionary.foldl_set_eq_ofList, Dictionary.entries_ofList]
  have keys : ((dbIds.dedup.insertionSort (· ≤ ·)).map fun dbId =>
      (dbId, place rules reserved dbId)).map Prod.fst = dbIds.dedup.insertionSort (· ≤ ·) := by
    rw [List.map_map]
    exact List.map_id _
  rwa [keys]

theorem mem_leakedDatabases_iff {dbIds : List String} {evaluated : Finset String}
    {dbId : String} : dbId ∈ leakedDatabases (assign rules reserved dbIds) evaluated ↔
      dbId ∈ dbIds ∧ dbId ∈ evaluated ∧ dbId ∉ reserved ∧ band rules dbId ≠ .heldOut := by
  have trained (split : Split) : split ∈ trainedOn ↔ split ≠ .heldOut := by
    cases split <;> decide
  simp only [leakedDatabases, List.mem_toFinset, List.mem_map, List.mem_filter,
    decide_eq_true_eq, Prod.exists, exists_and_right, exists_eq_right, mem_assign_iff, trained]
  constructor
  · rintro ⟨split, ⟨listed, rfl⟩, asked, some⟩
    rw [place] at some
    split at some
    · exact absurd rfl some
    · rename_i free
      exact ⟨listed, asked, free, some⟩
  · rintro ⟨listed, asked, free, some⟩
    refine ⟨place rules reserved dbId, ⟨listed, rfl⟩, asked, ?_⟩
    rwa [place, if_neg free]

/-- Reserved databases never leak, whatever the policy. -/
theorem leakedDatabases_reserved (dbIds : List String) :
    leakedDatabases (assign rules reserved dbIds) reserved = ∅ := by
  refine Finset.eq_empty_iff_forall_notMem.mpr fun dbId leaked => ?_
  obtain ⟨-, held, free, -⟩ := mem_leakedDatabases_iff.mp leaked
  exact free held

end Assignment

theorem value_injective {one other : Split} (same : one.value = other.value) : one = other := by
  cases one <;> cases other <;> first | rfl | exact absurd same (by decide)

/-! ## The summary -/

section Summary

theorem iterate_addDatabase (n : Nat) (count : SplitCount) :
    SplitCount.addDatabase^[n] count = ⟨count.databases + n, count.questions⟩ := by
  induction n generalizing count with
  | zero => rfl
  | succ n ih =>
    rw [Function.iterate_succ_apply, ih, SplitCount.addDatabase, SplitCount.mk.injEq]
    exact ⟨by dsimp only; omega, rfl⟩

theorem iterate_addQuestion (n : Nat) (count : SplitCount) :
    SplitCount.addQuestion^[n] count = ⟨count.databases, count.questions + n⟩ := by
  induction n generalizing count with
  | zero => rfl
  | succ n ih =>
    rw [Function.iterate_succ_apply, ih, SplitCount.addQuestion, SplitCount.mk.injEq]
    exact ⟨rfl, by dsimp only; omega⟩

/-- The counts of a split: its databases in the assignment, and the questions of these. -/
theorem get?_summarise (assignment : Dictionary String Split) (all : List Question)
    (split : Split) : (summarise assignment all).get? split.value =
      some ⟨assignment.entries.countP fun entry => entry.2 = split,
        all.countP fun question => assignment.get? question.dbId = some split⟩ := by
  have blank : (Dictionary.ofList (splits.map fun split =>
      (split.value, SplitCount.mk 0 0))).get? split.value = some ⟨0, 0⟩ := by
    cases split <;> rfl
  have value (other : Split) : other.value = split.value ↔ other = split :=
    ⟨value_injective, congrArg Split.value⟩
  have databases := Dictionary.get?_foldl_modify (fun entry : String × Split => some entry.2.value)
    SplitCount.addDatabase assignment.entries (Dictionary.ofList (splits.map fun split =>
      (split.value, SplitCount.mk 0 0))) split.value
  rw [blank, Option.map_some, iterate_addDatabase] at databases
  simp only [Option.some.injEq, value, Nat.zero_add] at databases
  have questions := Dictionary.get?_foldl_modify (fun question : Question =>
    (assignment.get? question.dbId).map Split.value) SplitCount.addQuestion all
    (assignment.entries.foldl (fun tally entry => tally.modify entry.2.value
      SplitCount.addDatabase) (Dictionary.ofList (splits.map fun split =>
        (split.value, SplitCount.mk 0 0)))) split.value
  rw [databases, Option.map_some, iterate_addQuestion] at questions
  have found (question : Question) :
      (assignment.get? question.dbId).map Split.value = some split.value ↔
        assignment.get? question.dbId = some split := by
    cases assignment.get? question.dbId <;> simp [value]
  simp only [found, Nat.zero_add] at questions
  rw [← questions, summarise]
  congr 2
  funext tally question
  cases assignment.get? question.dbId <;> rfl

end Summary

/-! ## What the command leaves -/

section Leaves

variable {unicode : Unicode} {floatText : Rat → String} {policy : SplitPolicy}
  {reserved : Finset String} {dataset : String} {questions : List Question}

/-- A question with the split of its database. -/
def stamped (rules : Proportions) (reserved : Finset String) (question : Question) : Question :=
  { question with split := (place rules reserved question.dbId).value }

theorem apply_assign (rules : Proportions) :
    apply unicode questions (assign rules reserved (questions.map Question.dbId)) =
      .ok (questions.map (stamped rules reserved)) := by
  refine Fallible.mapM_ok fun question listed => ?_
  rw [stamp, get?_assign, if_pos (List.mem_map_of_mem listed)]
  rfl

/-- The files, of those splits that have a question. -/
def splitFiles (floatText : Rat → String) (dataset : String) (questions : List Question) :
    List (String × String) :=
  ((splits.map fun split => (split, subset questions split)).filter fun entry =>
    entry.2 ≠ []).map fun entry => (splitFile dataset entry.1, writeQuestions floatText entry.2)

/-- The command always comes to its end. -/
theorem commandSplits_ok : ∃ w,
    commandSplits unicode floatText policy reserved dataset questions = .ok (.ok w) ∧
      w.files = splitFiles floatText dataset
        (questions.map (stamped policy.toProportions reserved)) ∧
      w.assignmentFile = (dataset ++ "-assignment.json",
        dumpsIndented (assignmentJson policy.toProportions (assign policy.toProportions reserved
          (questions.map Question.dbId))) ++ "\n") ∧
      w.summary = summarise (assign policy.toProportions reserved
        (questions.map Question.dbId)) (questions.map (stamped policy.toProportions reserved)) := by
  unfold commandSplits
  dsimp only
  rw [leakedDatabases_reserved, if_neg (not_not.mpr rfl), apply_assign]
  exact ⟨_, rfl, rfl, rfl, rfl⟩

theorem mem_subset_iff {rules : Proportions} {split : Split} {question : Question} :
    question ∈ subset (questions.map (stamped rules reserved)) split ↔
      ∃ own ∈ questions, question = stamped rules reserved own ∧
        place rules reserved own.dbId = split := by
  simp only [subset, List.mem_filter, List.mem_map, decide_eq_true_eq]
  constructor
  · rintro ⟨⟨own, listed, rfl⟩, same⟩
    exact ⟨own, listed, rfl, value_injective same⟩
  · rintro ⟨own, listed, rfl, rfl⟩
    exact ⟨⟨own, listed, rfl⟩, rfl⟩

theorem mem_splitFiles_iff {all : List Question} {file : String × String} :
    file ∈ splitFiles floatText dataset all ↔ ∃ split, subset all split ≠ [] ∧
      file = (splitFile dataset split, writeQuestions floatText (subset all split)) := by
  have every (split : Split) : split ∈ splits := by cases split <;> decide
  simp only [splitFiles, List.mem_map, List.mem_filter, decide_eq_true_eq]
  constructor
  · rintro ⟨entry, ⟨⟨split, -, rfl⟩, some⟩, rfl⟩
    exact ⟨split, some, rfl⟩
  · rintro ⟨split, some, rfl⟩
    exact ⟨(split, subset all split), ⟨⟨split, every split, rfl⟩, some⟩, rfl⟩

theorem lines_writeQuestions (other : Json → String) (path : String) {all : List Question}
    (split : ∀ question ∈ all, HasSplit question) :
    ((written ((splitlines (writeQuestions floatText all)).zipIdx 1)).mapM fun line =>
      questionOfLine unicode other path line.2 line.1) = .ok all := by
  have plain : ∀ row ∈ all.map fun question => Json.obj (questionMembers question),
      Plain row := by
    intro row listed
    obtain ⟨question, -, rfl⟩ := List.mem_map.mp listed
    exact plain_questionMembers question
  rw [writeQuestions, splitlines_writeJsonl plain, List.map_map]
  exact questionsOfLines_dumps split 1

/-- A file of questions is read as it was written, if it is read. -/
theorem load_writeQuestions_iff (other : Json → String) (path : String) {all own : List Question}
    (split : ∀ question ∈ all, HasSplit question) :
    loadQuestions unicode other path none (writeQuestions floatText all) = .ok own ↔
      own = all ∧ (all.map Question.questionId).Nodup := by
  rw [loadQuestions_ok_iff]
  constructor
  · rintro ⟨read, lines, rfl, distinct⟩
    rw [lines_writeQuestions other path split] at lines
    obtain rfl := Except.ok.inj lines
    have whole : all.filter (isWanted none) = all := List.filter_eq_self.mpr fun _ _ => rfl
    rw [whole] at distinct ⊢
    exact ⟨rfl, distinct⟩
  · rintro ⟨rfl, distinct⟩
    exact ⟨own, lines_writeQuestions other path split,
      (List.filter_eq_self.mpr fun _ _ => rfl).symm, distinct⟩

theorem hasSplit_subset {all : List Question} {split : Split} :
    ∀ question ∈ subset all split, HasSplit question := by
  intro question has
  obtain ⟨-, same⟩ := List.mem_filter.mp has
  exact ⟨split, of_decide_eq_true same⟩

theorem ids_stamped (rules : Proportions) :
    (questions.map (stamped rules reserved)).map Question.questionId =
      questions.map Question.questionId := by
  rw [List.map_map]
  rfl

theorem splitFile_injective {one other : Split}
    (same : splitFile dataset one = splitFile dataset other) : one = other := by
  refine value_injective ?_
  have chars := congrArg String.toList same
  simp only [splitFile, String.toList_append] at chars
  exact String.toList_inj.mp (List.append_cancel_left (List.append_cancel_right chars))

theorem subset_perm (rules : Proportions) :
    (splits.flatMap (subset (questions.map (stamped rules reserved)))).Perm
      (questions.map (stamped rules reserved)) := by
  have values : (splits.map Split.value).Nodup := by decide
  have parts := Counting.flatMap_filter_perm Question.split (questions.map (stamped rules reserved)) values
  rw [List.flatMap_map] at parts
  refine parts.trans (List.Perm.of_eq (List.filter_eq_self.mpr fun question listed => ?_))
  obtain ⟨own, -, rfl⟩ := List.mem_map.mp listed
  have every (split : Split) : split ∈ splits := by cases split <;> decide
  exact decide_eq_true (List.mem_map_of_mem (every _))

theorem countP_assign (rules : Proportions) (dbIds : List String) (split : Split) :
    ((assign rules reserved dbIds).entries.countP fun entry => entry.2 = split) =
      dbIds.dedup.countP fun dbId => place rules reserved dbId = split := by
  rw [entries_assign, List.countP_map]
  exact (List.perm_insertionSort _ _).countP_eq _

theorem countP_stamped (rules : Proportions) (split : Split) :
    ((questions.map (stamped rules reserved)).countP fun question =>
      (assign rules reserved (questions.map Question.dbId)).get? question.dbId = some split) =
      (subset (questions.map (stamped rules reserved)) split).length := by
  rw [subset, ← List.countP_eq_length_filter]
  refine List.countP_congr fun question listed => ?_
  obtain ⟨own, has, rfl⟩ := List.mem_map.mp listed
  rw [decide_eq_true_eq, decide_eq_true_eq, get?_assign, if_pos]
  · rw [Option.some.injEq]
    exact ⟨congrArg Split.value, value_injective⟩
  · exact (List.mem_map_of_mem has : own.dbId ∈ questions.map Question.dbId)

/-- The files divide the questions: each is read back as the questions of its split, every
question is in one of them, no database is in two, and the summary counts what they hold. -/
theorem files_partition (unicode : Unicode) (floatText : Rat → String) (other : Json → String)
    (policy : SplitPolicy) (reserved : Finset String) (dataset : String)
    {questions : List Question} (distinct : (questions.map Question.questionId).Nodup) :
    ∃ w own, commandSplits unicode floatText policy reserved dataset questions = .ok (.ok w) ∧
      (∀ file ∈ w.files, ∃ split, file.1 = splitFile dataset split ∧
        loadQuestions unicode other file.1 none file.2 = .ok (own split)) ∧
      (∀ split, own split ≠ [] → splitFile dataset split ∈ w.files.map Prod.fst) ∧
      (w.files.map Prod.fst).Nodup ∧
      (splits.flatMap own).Perm (questions.map (stamped policy.toProportions reserved)) ∧
      (∀ one second, ∀ a ∈ own one, ∀ b ∈ own second, a.dbId = b.dbId → one = second) ∧
      ∀ split, w.summary.get? split.value = some
        ⟨(questions.map Question.dbId).dedup.countP fun dbId =>
          place policy.toProportions reserved dbId = split, (own split).length⟩ := by
  obtain ⟨w, done, files, -, summary⟩ : ∃ w, commandSplits unicode floatText policy reserved
      dataset questions = .ok (.ok w) ∧ _ := commandSplits_ok
  refine ⟨w, subset (questions.map (stamped policy.toProportions reserved)), done,
    fun file listed => ?_, fun split some => ?_, ?_, subset_perm _,
    fun one second a first b later same => ?_, fun split => ?_⟩
  · rw [files] at listed
    obtain ⟨split, -, rfl⟩ := mem_splitFiles_iff.mp listed
    refine ⟨split, rfl, (load_writeQuestions_iff other _ hasSplit_subset).mpr ⟨rfl, ?_⟩⟩
    have same : (questions.map (stamped policy.toProportions reserved)).map
        Question.questionId = questions.map Question.questionId := ids_stamped _
    exact (same ▸ distinct).sublist (List.filter_sublist.map _)
  · rw [files]
    exact List.mem_map_of_mem (mem_splitFiles_iff.mpr ⟨split, some, rfl⟩)
  · have names : (splits.map (splitFile dataset)).Nodup :=
      List.Nodup.map (fun _ _ same => splitFile_injective same) (by decide)
    rw [files, splitFiles, List.map_map]
    refine names.sublist ?_
    have listed : splits.map (splitFile dataset) = (splits.map fun split => (split, subset
        (questions.map (stamped policy.toProportions reserved)) split)).map fun entry =>
          splitFile dataset entry.1 := by rw [List.map_map]; rfl
    rw [listed]
    exact List.filter_sublist.map _
  · obtain ⟨own, -, rfl, rfl⟩ := mem_subset_iff.mp first
    obtain ⟨other, -, rfl, rfl⟩ := mem_subset_iff.mp later
    exact congrArg (place policy.toProportions reserved) same
  · rw [summary, get?_summarise, countP_assign, countP_stamped]

/-- One question of each of two databases. -/
def twoQuestions : List Question :=
  [⟨"spider:dev:00000", "how many singers?", "SELECT count(*) FROM singer", "spider", "dev",
      "concert_singer"⟩,
    ⟨"spider:dev:00001", "which pets?", "SELECT * FROM pets", "spider", "dev", "pets_1"⟩]

theorem files_partition_two : ∃ w own, commandSplits plainUnicode (fun _ => "") defaultPolicy ∅
      "spider" twoQuestions = .ok (.ok w) ∧
    (splits.flatMap own).Perm (twoQuestions.map (stamped defaultPolicy.toProportions ∅)) := by
  obtain ⟨w, own, done, -, -, -, parts, -⟩ := files_partition plainUnicode (fun _ => "")
    (fun _ => "") defaultPolicy ∅ "spider"
    (show (twoQuestions.map Question.questionId).Nodup by decide)
  exact ⟨w, own, done, parts⟩

/-- What is reserved through a question file that the command wrote stays out of every file
but that of the held-out questions. -/
theorem reserved_held_out (unicode : Unicode) (floatText : Rat → String) (other : Json → String)
    (policy : SplitPolicy) (dataset path name : String) (questions : List Question)
    {evaluation : List Question} (some_ : evaluation ≠ []) :
    ∃ reserved w, reservedDatabases unicode other
        [⟨path, name, .ok (writeQuestions floatText evaluation)⟩] = .ok reserved ∧
      commandSplits unicode floatText policy reserved dataset questions = .ok (.ok w) ∧
      ∀ file ∈ w.files, ∀ own, loadQuestions unicode other file.1 none file.2 = .ok own →
        ∀ question ∈ own, question.dbId ∈ evaluation.map Question.dbId →
          file.1 = splitFile dataset .heldOut := by
  have reserves : reservedDatabases unicode other
      [⟨path, name, .ok (writeQuestions floatText evaluation)⟩] =
        .ok (evaluation.map Question.dbId).toFinset := by
    have rows : writeQuestions floatText evaluation =
        writeJsonl floatText ((evaluation.map questionMembers).map Json.obj) := by
      rw [writeQuestions, List.map_map]
      rfl
    rw [rows]
    refine Questions.reservedDatabases_writeJsonl (by simpa using some_) ?_ ?_
    · intro members listed
      obtain ⟨question, -, rfl⟩ := List.mem_map.mp listed
      exact plain_questionMembers question
    · rw [List.map_map, List.map_map]
      refine List.map_congr_left fun question _ => ?_
      simp [Json.get?, questionMembers, strOf]
  obtain ⟨w, done, files, -⟩ : ∃ w, commandSplits unicode floatText policy
      (evaluation.map Question.dbId).toFinset dataset questions = .ok (.ok w) ∧ _ :=
    commandSplits_ok
  refine ⟨_, w, reserves, done, fun file listed own read question has held => ?_⟩
  rw [files] at listed
  obtain ⟨split, -, rfl⟩ := mem_splitFiles_iff.mp listed
  obtain ⟨rfl, -⟩ := (load_writeQuestions_iff other _ hasSplit_subset).mp read
  obtain ⟨asked, -, rfl, rfl⟩ := mem_subset_iff.mp has
  have out : place policy.toProportions (evaluation.map Question.dbId).toFinset asked.dbId =
      .heldOut := if_pos (List.mem_toFinset.mpr held)
  rw [out]

end Leaves

theorem reserved_held_out_two : ∃ reserved w, reservedDatabases plainUnicode (fun _ => "")
      [⟨"dev.jsonl", "dev.jsonl", .ok (writeQuestions (fun _ => "") twoQuestions)⟩] =
        .ok reserved ∧
    commandSplits plainUnicode (fun _ => "") defaultPolicy reserved "spider" twoQuestions =
      .ok (.ok w) := by
  obtain ⟨reserved, w, reserves, done, -⟩ := reserved_held_out plainUnicode (fun _ => "")
    (fun _ => "") defaultPolicy "spider" "dev.jsonl" "dev.jsonl" twoQuestions
    (show twoQuestions ≠ [] by decide)
  exact ⟨reserved, w, reserves, done⟩

/-! ## Smoke is a part of dev -/

/-- Behind the training band, what is before the smoke edge is before the dev edge. -/
theorem before_devEdge {rules : Proportions} (carved : le rules.smoke rules.dev = true)
    {position : Rat} (behind : ¬lt (.finite position) (trainEdge rules) = true)
    (before : lt (.finite position) (smokeEdge rules) = true) :
    lt (.finite position) (devEdge rules) = true := by
  have shares : le (times rules.smoke (.finite buckets)) (times rules.dev (.finite buckets)) =
      true := times_mono (by norm_num [buckets]) carved
  rw [smokeEdge] at before
  rw [devEdge]
  cases edge : trainEdge rules with
  | finite q =>
    rw [edge] at before
    exact lt_of_lt_of_le before (plus_mono shares)
  | inf negative =>
    rw [edge] at behind before
    cases negative with
    | false => exact absurd rfl behind
    | true =>
      -- below everything, or no number
      cases share : times rules.smoke (.finite buckets) with
      | finite q =>
        rw [share] at before
        cases before
      | inf other =>
        rw [share] at before
        cases other <;> cases before
      | nan =>
        rw [share] at before
        cases before
  | nan =>
    rw [edge] at before
    cases share : times rules.smoke (.finite buckets) <;> rw [share] at before <;> cases before

/-- The band of a bucket in terms of two edges alone. -/
theorem band_train_iff (rules : Proportions) (dbId : String) : band rules dbId = .train ↔
    lt (.finite (bucket dbId rules.seed)) (trainEdge rules) = true := by
  simp only [band]
  split_ifs with first second third <;> simp [first]

theorem band_heldOut_iff {rules : Proportions} (carved : le rules.smoke rules.dev = true)
    (dbId : String) : band rules dbId = .heldOut ↔
      ¬lt (.finite (bucket dbId rules.seed)) (trainEdge rules) = true ∧
        ¬lt (.finite (bucket dbId rules.seed)) (devEdge rules) = true := by
  simp only [band]
  split_ifs with first second third
  · simp [first]
  · simp [before_devEdge carved first second]
  · simp [third]
  · simp [first, third]

/-- Policies that differ at most in what they smoke-test train on the same databases and
hold out the same: a smoke band, however its edge is rounded, does not reach beyond dev's. -/
theorem smoke_carved_from_dev {one other : SplitPolicy} (train : one.train = other.train)
    (dev : one.dev = other.dev) (seed : one.seed = other.seed) (reserved : Finset String)
    (dbId : String) :
    (place one.toProportions reserved dbId = .train ↔
        place other.toProportions reserved dbId = .train) ∧
      (place one.toProportions reserved dbId = .heldOut ↔
        place other.toProportions reserved dbId = .heldOut) := by
  have trainSame : trainEdge one.toProportions = trainEdge other.toProportions := by
    rw [trainEdge, trainEdge, train]
  have devSame : devEdge one.toProportions = devEdge other.toProportions := by
    rw [devEdge, devEdge, trainSame, dev]
  rw [place, place]
  by_cases held : dbId ∈ reserved
  · rw [if_pos held, if_pos held]
    exact ⟨Iff.rfl, Iff.rfl⟩
  · rw [if_neg held, if_neg held, band_train_iff, band_train_iff,
      band_heldOut_iff one.accepted.carved.2, band_heldOut_iff other.accepted.carved.2,
      trainSame, devSame, seed]
    exact ⟨Iff.rfl, Iff.rfl⟩

theorem smoke_carved_from_dev_default :
    place defaultPolicy.toProportions ∅ "pets_1" = .heldOut ↔
      place smokelessPolicy.toProportions ∅ "pets_1" = .heldOut := by
  have train : defaultPolicy.train = smokelessPolicy.train := rfl
  exact (smoke_carved_from_dev train rfl rfl ∅ "pets_1").2

/-! ## The file of the assignment -/

/-- The databases that the file of an assignment names, with what it says of each. -/
def ReadsDatabases (text : String) (databases : List (String × Json)) : Prop :=
  ∃ members, loads text = .ok (.obj members) ∧
    Json.get? members "databases" = some (.obj databases)

/-- The entries of an assignment as they are written. -/
def databaseMembers (assignment : Dictionary String Split) : List (String × Json) :=
  (assignment.entries.insertionSort fun a b => a.1 ≤ b.1).map
    fun entry => (entry.1, .str entry.2.value)

theorem lasting_assignmentJson (rules : Proportions) (assignment : Dictionary String Split) :
    Lasting (assignmentJson rules assignment) := by
  have float (x : PyFloat) (listed : x ∈ [rules.train, rules.dev, rules.heldOut, rules.smoke]) :
      Lasting (.float x) := rules.floats x listed
  have keys : (databaseMembers assignment).map Prod.fst =
      (assignment.entries.insertionSort fun a b => a.1 ≤ b.1).map Prod.fst := by
    rw [databaseMembers, List.map_map]
    rfl
  have distinct : ((databaseMembers assignment).map Prod.fst).Nodup := by
    rw [keys, ((List.perm_insertionSort _ _).map Prod.fst).nodup_iff]
    exact assignment.distinct
  refine .obj _ (by simp) fun member listed => ?_
  rcases List.mem_cons.mp listed with rfl | listed
  · exact .str _
  rcases List.mem_cons.mp listed with rfl | listed
  · refine .obj _ (by simp) fun share named => ?_
    simp only [List.mem_cons, List.not_mem_nil, or_false] at named
    rcases named with rfl | rfl | rfl <;> exact float _ (by simp)
  obtain rfl := List.mem_singleton.mp listed
  refine .obj _ distinct fun entry named => ?_
  obtain ⟨own, -, rfl⟩ := List.mem_map.mp named
  exact .str _

theorem readsDatabases_assignment (rules : Proportions) (assignment : Dictionary String Split) :
    ReadsDatabases (dumpsIndented (assignmentJson rules assignment) ++ "\n")
      (databaseMembers assignment) := by
  refine ⟨_, loads_dumpsIndented (lasting_assignmentJson rules assignment), ?_⟩
  simp [Json.get?, databaseMembers]

theorem mem_databaseMembers_iff {rules : Proportions} {reserved : Finset String}
    {dbIds : List String} {entry : String × Json} :
    entry ∈ databaseMembers (assign rules reserved dbIds) ↔
      entry.1 ∈ dbIds ∧ entry.2 = .str (place rules reserved entry.1).value := by
  obtain ⟨dbId, value⟩ := entry
  simp only [databaseMembers, List.mem_map, List.mem_insertionSort, Prod.exists,
    mem_assign_iff, Prod.mk.injEq]
  constructor
  · rintro ⟨own, split, ⟨listed, rfl⟩, rfl, rfl⟩
    exact ⟨listed, rfl⟩
  · rintro ⟨listed, rfl⟩
    exact ⟨dbId, _, ⟨listed, rfl⟩, rfl, rfl⟩

/-- The file names the databases of the questions, each with its split, and a file that is
made anew of more questions says the same of these. -/
theorem assignment_grows (unicode : Unicode) (floatText : Rat → String) (policy : SplitPolicy)
    (reserved : Finset String) (dataset : String) {questions others : List Question}
    (fewer : questions ⊆ others) :
    ∃ w grown databases more,
      commandSplits unicode floatText policy reserved dataset questions = .ok (.ok w) ∧
      commandSplits unicode floatText policy reserved dataset others = .ok (.ok grown) ∧
      ReadsDatabases w.assignmentFile.2 databases ∧
      ReadsDatabases grown.assignmentFile.2 more ∧
      (∀ entry, entry ∈ databases ↔ entry.1 ∈ questions.map Question.dbId ∧
        entry.2 = .str (place policy.toProportions reserved entry.1).value) ∧
      databases ⊆ more := by
  obtain ⟨w, done, -, file, -⟩ : ∃ w, commandSplits unicode floatText policy reserved dataset
      questions = .ok (.ok w) ∧ _ := commandSplits_ok
  obtain ⟨grown, again, -, fileAgain, -⟩ : ∃ w, commandSplits unicode floatText policy reserved
      dataset others = .ok (.ok w) ∧ _ := commandSplits_ok
  refine ⟨w, grown, _, _, done, again, by rw [file]; exact readsDatabases_assignment _ _,
    by rw [fileAgain]; exact readsDatabases_assignment _ _, fun entry => mem_databaseMembers_iff,
    fun entry listed => ?_⟩
  obtain ⟨named, split⟩ := mem_databaseMembers_iff.mp listed
  exact mem_databaseMembers_iff.mpr ⟨List.map_subset _ fewer named, split⟩

theorem assignment_grows_two : ∃ w grown,
    commandSplits plainUnicode (fun _ => "") defaultPolicy ∅ "spider" (twoQuestions.take 1) =
        .ok (.ok w) ∧
      commandSplits plainUnicode (fun _ => "") defaultPolicy ∅ "spider" twoQuestions =
        .ok (.ok grown) := by
  obtain ⟨w, grown, -, -, done, again, -⟩ := assignment_grows plainUnicode (fun _ => "")
    defaultPolicy ∅ "spider" (List.take_subset 1 twoQuestions)
  exact ⟨w, grown, done, again⟩

end Splits
