import TextToSqlAgent.Benchmark.Identifiers
import TextToSqlAgent.Core.JsonText
import TextToSqlAgent.Evals.Runner
import TextToSqlAgent.Library.Fallible

/-!
# The reference answers, as the conversion left them

`load_verified_gold` reads the file that verification wrote, and
`apply_verified_gold` swaps in the statements that were verified and drops what
cannot be scored. The loop of the second fills four accumulators; each is read
here off the questions.
-/

namespace Gold

open Python Runner

/-- One question's verified reference answer. -/
structure GoldEntry where
  questionId : String
  sql : String
  outcome : String
  scoreable : Bool
  dbId : String := ""
  schema : String := ""
  deriving DecidableEq, Repr

/-- The result of resolving a split against a verification run. -/
structure Applied where
  questions : List Question
  excluded : Dictionary String Nat
  schemas : Dictionary String String

/-- `", ".join(ids[:limit])`, and dots where there are more. -/
def sample (ids : List String) (limit : Nat := 5) : String :=
  ", ".intercalate (ids.take limit) ++ if ids.length > limit then " ..." else ""

/-- What the loop has gathered. -/
structure Gathered where
  kept : List Question
  excluded : Dictionary String Nat
  schemas : Dictionary String String
  unverified : List String

variable (gold : Dictionary String GoldEntry)

def gather (g : Gathered) (question : Question) : Gathered :=
  match gold.get? question.questionId with
  | none => { g with unverified := g.unverified ++ [question.questionId] }
  | some entry =>
    let schemas :=
      if entry.schema = "" then g.schemas
      else g.schemas.setDefault (orText (some entry.dbId) question.dbId) entry.schema
    if !entry.scoreable then
      { g with
        schemas := schemas
        excluded := g.excluded.set entry.outcome ((g.excluded.get? entry.outcome).getD 0 + 1) }
    else { g with schemas := schemas, kept := g.kept ++ [{ question with goldSql := entry.sql }] }

/-- Swap in verified gold SQL and drop what cannot be scored. -/
def applyVerifiedGold (questions : List Question) : Except String Applied :=
  let gathered := questions.foldl (gather gold) ⟨[], .empty, .empty, []⟩
  if gathered.unverified.isEmpty then
    .ok ⟨gathered.kept, gathered.excluded, gathered.schemas⟩
  else
    let count := gathered.unverified.length
    let shown := sample gathered.unverified
    .error (s!"{count} question(s) in this split were never verified, " ++
      s!"so the conversion behind them is unchecked: {shown}. " ++
      "Re-run `benchmark.load verify --emit-gold` over the whole split.")

/-! ## What is gathered -/

/-- The question with its verified statement, where it can be scored. -/
def verified? (question : Question) : Option Question :=
  match gold.get? question.questionId with
  | some entry => if entry.scoreable then some { question with goldSql := entry.sql } else none
  | none => none

/-- The outcome for which a question is dropped. -/
def dropped? (question : Question) : Option String :=
  match gold.get? question.questionId with
  | some entry => if entry.scoreable then none else some entry.outcome
  | none => none

/-- The schema that a question's entry records for a database. -/
def schemaFor? (dbId : String) (question : Question) : Option String :=
  match gold.get? question.questionId with
  | some entry =>
    if entry.schema ≠ "" ∧ orText (some entry.dbId) question.dbId = dbId then some entry.schema
    else none
  | none => none

def isUnverified (question : Question) : Bool := (gold.get? question.questionId).isNone

theorem kept_gather (g : Gathered) (questions : List Question) :
    (questions.foldl (gather gold) g).kept = g.kept ++ questions.filterMap (verified? gold) := by
  induction questions generalizing g with
  | nil => simp
  | cons question rest ih =>
    rw [List.foldl_cons, ih, List.filterMap_cons]
    cases found : gold.get? question.questionId with
    | none => simp [gather, verified?, found]
    | some entry => cases scored : entry.scoreable <;> simp [gather, verified?, found, scored]

theorem unverified_gather (g : Gathered) (questions : List Question) :
    (questions.foldl (gather gold) g).unverified =
      g.unverified ++ (questions.filter (isUnverified gold)).map Question.questionId := by
  induction questions generalizing g with
  | nil => simp
  | cons question rest ih =>
    rw [List.foldl_cons, ih]
    cases found : gold.get? question.questionId with
    | none => simp [gather, isUnverified, found]
    | some entry => cases scored : entry.scoreable <;> simp [gather, isUnverified, found, scored]

/-- A database keeps the first schema recorded for it. -/
theorem schemas_gather (g : Gathered) (questions : List Question) (dbId : String) :
    (questions.foldl (gather gold) g).schemas.get? dbId =
      (g.schemas.get? dbId).or (questions.findSome? (schemaFor? gold dbId)) := by
  induction questions generalizing g with
  | nil => simp
  | cons question rest ih =>
    rw [List.foldl_cons, ih, List.findSome?_cons]
    have step : (gather gold g question).schemas.get? dbId =
        (g.schemas.get? dbId).or (schemaFor? gold dbId question) := by
      cases found : gold.get? question.questionId with
      | none => simp [gather, schemaFor?, found]
      | some entry =>
        have recorded : (gather gold g question).schemas =
            if entry.schema = "" then g.schemas
            else g.schemas.setDefault (orText (some entry.dbId) question.dbId) entry.schema := by
          cases scored : entry.scoreable <;> simp [gather, found, scored]
        rw [recorded, schemaFor?, found]
        by_cases none : entry.schema = ""
        · simp [none]
        · rw [if_neg none, Dictionary.get?_setDefault]
          by_cases own : orText (some entry.dbId) question.dbId = dbId
          · subst own
            cases g.schemas.get? (orText (some entry.dbId) question.dbId) <;> simp [none]
          · have other : dbId ≠ orText (some entry.dbId) question.dbId := fun same => own same.symm
            simp [own, other]
    rw [step]
    cases g.schemas.get? dbId with
    | some schema => rfl
    | none => cases schemaFor? gold dbId question <;> simp

/-- The excluded ones are counted by the outcome they are dropped for. -/
theorem excluded_gather {g : Gathered} {counts : String → Nat}
    (tallies : g.excluded.Tallies counts) (questions : List Question) :
    (questions.foldl (gather gold) g).excluded.Tallies fun outcome =>
      counts outcome + questions.countP fun question => dropped? gold question = some outcome := by
  induction questions generalizing g counts with
  | nil => simpa using tallies
  | cons question rest ih =>
    have step : (gather gold g question).excluded.Tallies fun outcome =>
        counts outcome + if dropped? gold question = some outcome then 1 else 0 := by
      cases found : gold.get? question.questionId with
      | none => simpa [gather, dropped?, found] using tallies
      | some entry =>
        cases scored : entry.scoreable with
        | true => simpa [gather, dropped?, found, scored] using tallies
        | false => simpa [gather, dropped?, found, scored] using tallies.count entry.outcome
    have counted := ih step
    simp only [List.foldl_cons, List.countP_cons, decide_eq_true_eq]
    intro outcome
    rw [counted outcome]
    simp only [Nat.add_assoc, Nat.add_comm]

/-- What comes of a split that is accepted. -/
structure AppliedTo (questions : List Question) (applied : Applied) : Prop where
  kept : applied.questions = questions.filterMap (verified? gold)
  excluded : applied.excluded.Tallies fun outcome =>
    questions.countP fun question => dropped? gold question = some outcome
  schemas : ∀ dbId, applied.schemas.get? dbId = questions.findSome? (schemaFor? gold dbId)

theorem appliedTo_of_ok {questions : List Question} {applied : Applied}
    (done : applyVerifiedGold gold questions = .ok applied) : AppliedTo gold questions applied := by
  rw [applyVerifiedGold] at done
  split at done
  · cases done
    constructor
    · exact kept_gather gold _ questions
    · have counted := excluded_gather gold (g := ⟨[], .empty, .empty, []⟩)
        Dictionary.tallies_empty questions
      simpa only [Nat.zero_add] using counted
    · intro dbId
      exact schemas_gather gold _ questions dbId
  · cases done

/-- A split is accepted exactly when every question of it has an entry. -/
theorem applyVerifiedGold_isOk_iff {questions : List Question} :
    (∃ applied, applyVerifiedGold gold questions = .ok applied) ↔
      ∀ question ∈ questions, (gold.get? question.questionId).isSome = true := by
  have all : (questions.foldl (gather gold) ⟨[], .empty, .empty, []⟩).unverified.isEmpty = true ↔
      ∀ question ∈ questions, (gold.get? question.questionId).isSome = true := by
    rw [unverified_gather, List.nil_append, List.isEmpty_iff, List.map_eq_nil_iff,
      List.filter_eq_nil_iff]
    simp only [isUnverified, Option.isNone_iff_eq_none, Option.isSome_iff_ne_none, ne_eq]
  rw [← all, applyVerifiedGold]
  split
  · rename_i accepted
    exact ⟨fun _ => accepted, fun _ => ⟨_, rfl⟩⟩
  · rename_i refused
    constructor
    · rintro ⟨applied, done⟩
      cases done
    · intro accepted
      exact absurd accepted refused

theorem schemaFor?_eq_some_iff {dbId schema : String} {question : Question} :
    schemaFor? gold dbId question = some schema ↔
      ∃ entry, gold.get? question.questionId = some entry ∧ entry.schema ≠ "" ∧
        orText (some entry.dbId) question.dbId = dbId ∧ entry.schema = schema := by
  rw [schemaFor?]
  cases gold.get? question.questionId with
  | none => simp
  | some entry => simp [and_assoc]

/-! ## Reading the file -/

/-- Why a file is not read: what was raised, or a text in it that is no `String`. -/
inductive Unreadable
  | raised (message : String)
  | surrogate
  deriving DecidableEq, Repr

section Reading

open JsonText Identifiers

variable (unicode : Unicode) (other : Json → String) (path : String)

/-- `str(value)`; how a value that is no text is written is given. -/
def strOf : Json → String
  | .str s => s
  | value => other value

/-- `str(raw.get(key, ""))`. -/
def textField (members : List (String × Json)) (key : String) : String :=
  ((Json.get? members key).map (strOf other)).getD ""

def requiredKeys : List String := ["outcome", "question_id", "scoreable"]

def entryOfMembers (members : List (String × Json)) : GoldEntry where
  questionId := textField other members "question_id"
  sql := textField other members "sql"
  outcome := textField other members "outcome"
  scoreable := ((Json.get? members "scoreable").map Json.truthy).getD false
  dbId := textField other members "db_id"
  schema := textField other members "schema"

/-- The entry of one object; scoreable and without SQL is a contradiction. -/
def readMembers (number : Nat) (members : List (String × Json)) : Except Unreadable GoldEntry :=
  let missing := requiredKeys.filter fun key => (Json.get? members key).isNone
  let entry := entryOfMembers other members
  let names := ", ".intercalate (missing.map (repr unicode))
  let id := entry.questionId
  if !missing.isEmpty then .error (.raised s!"{path}:{number} is missing [{names}]")
  else if entry.scoreable && strip entry.sql = "" then
    .error (.raised s!"{path}:{number} marks {id} scoreable but carries no SQL")
  else .ok entry

/-- The entry of one line. -/
def readLine (number : Nat) (line : String) : Except Unreadable GoldEntry :=
  match loads line with
  | .error (.decode msg) => .error (.raised s!"{path}:{number} is not valid JSON: {msg}")
  | .error (.value message) => .error (.raised message)
  | .error .surrogate => .error .surrogate
  | .ok (.obj members) => readMembers unicode other path number members
  | .ok value =>
    let type := value.typeName
    .error (.raised s!"'{type}' object has no attribute 'keys'")

/-- The loop over the numbered lines. -/
def loadLines : List (String × Nat) → Dictionary String GoldEntry →
    Except Unreadable (Dictionary String GoldEntry)
  | [], entries => .ok entries
  | (line, number) :: rest, entries =>
    if strip line = "" then loadLines rest entries
    else do
      let entry ← readLine unicode other path number line
      let id := repr unicode entry.questionId
      if (entries.get? entry.questionId).isSome then
        throw (.raised s!"{path}:{number} repeats question_id {id}")
      else loadLines rest (entries.set entry.questionId entry)

/-- Read the JSONL `benchmark.load verify --emit-gold` produced; the text is that
of the file. -/
def loadVerifiedGold (text : String) : Except Unreadable (Dictionary String GoldEntry) :=
  loadLines unicode other path ((splitlines text).zipIdx 1) .empty

/-- The numbered lines that are not skipped. -/
def written (lines : List (String × Nat)) : List (String × Nat) :=
  lines.filter fun line => strip line.1 ≠ ""

variable {unicode other path}

/-- Every line that is not blank gives an entry, and no id is there twice. -/
theorem loadLines_ok_iff {lines : List (String × Nat)}
    {entries gold : Dictionary String GoldEntry} :
    loadLines unicode other path lines entries = .ok gold ↔
      ∃ rows : List GoldEntry,
        ((written lines).mapM fun line => readLine unicode other path line.2 line.1) = .ok rows ∧
        (rows.map GoldEntry.questionId).Nodup ∧
        (∀ row ∈ rows, entries.get? row.questionId = none) ∧
        gold = rows.foldl (fun d row => d.set row.questionId row) entries := by
  induction lines generalizing entries with
  | nil =>
    constructor
    · intro done
      cases done
      exact ⟨[], rfl, List.nodup_nil, nofun, rfl⟩
    · rintro ⟨rows, mapped, -, -, rfl⟩
      cases mapped
      rfl
  | cons numbered rest ih =>
    obtain ⟨line, number⟩ := numbered
    rw [loadLines]
    by_cases blank : strip line = ""
    · have skipped : written ((line, number) :: rest) = written rest :=
        List.filter_cons_of_neg (by simp [blank])
      rw [if_pos blank, ih, skipped]
    · have kept : written ((line, number) :: rest) = (line, number) :: written rest :=
        List.filter_cons_of_pos (by simp [blank])
      rw [if_neg blank, kept, Fallible.bind_ok_iff]
      constructor
      · rintro ⟨entry, read, done⟩
        split at done
        · cases done
        · rename_i fresh
          rw [Bool.not_eq_true, Option.isSome_eq_false_iff, Option.isNone_iff_eq_none] at fresh
          obtain ⟨rows, mapped, distinct, later, rfl⟩ := ih.mp done
          refine ⟨entry :: rows, ?_, ?_, ?_, rfl⟩
          · exact Fallible.mapM_cons_ok_iff.mpr ⟨entry, rows, read, mapped, rfl⟩
          · rw [List.map_cons, List.nodup_cons]
            refine ⟨fun repeated => ?_, distinct⟩
            obtain ⟨row, listed, same⟩ := List.mem_map.mp repeated
            have absent := later row listed
            rw [same, Dictionary.get?_set_self] at absent
            cases absent
          · intro row listed
            rcases List.mem_cons.mp listed with rfl | listed
            · exact fresh
            · have absent := later row listed
              rw [Dictionary.get?_set] at absent
              split at absent
              · cases absent
              · exact absent
      · rintro ⟨rows, mapped, distinct, fresh, rfl⟩
        obtain ⟨entry, rows, read, tail, rfl⟩ := Fallible.mapM_cons_ok_iff.mp mapped
        rw [List.map_cons, List.nodup_cons] at distinct
        refine ⟨entry, read, ?_⟩
        rw [if_neg (by simp [fresh entry List.mem_cons_self])]
        refine ih.mpr ⟨rows, tail, distinct.2, ?_, rfl⟩
        intro row listed
        have apart : row.questionId ≠ entry.questionId := fun same =>
          distinct.1 (same ▸ List.mem_map_of_mem listed)
        rw [Dictionary.get?_set_ne _ apart, fresh row (List.mem_cons_of_mem _ listed)]

variable (unicode other path) in
/-- A file is loaded exactly when every line that is not blank gives an entry and no
id is there twice; then the entries are those of the lines. -/
theorem loadVerifiedGold_ok_iff {text : String} {gold : Dictionary String GoldEntry} :
    loadVerifiedGold unicode other path text = .ok gold ↔
      ∃ rows : List GoldEntry,
        ((written ((splitlines text).zipIdx 1)).mapM fun line =>
          readLine unicode other path line.2 line.1) = .ok rows ∧
        (rows.map GoldEntry.questionId).Nodup ∧
        gold = .ofList (rows.map fun row => (row.questionId, row)) := by
  rw [loadVerifiedGold, loadLines_ok_iff]
  simp only [Dictionary.get?_empty, implies_true, true_and, Dictionary.ofList, List.foldl_map]

/-- The id that the object of a line has. -/
def idOfLine (other : Json → String) (line : String) : Option String :=
  match loads line with
  | .ok (.obj members) => (Json.get? members "question_id").map (strOf other)
  | _ => none

theorem idOfLine_of_readLine {number : Nat} {line : String} {entry : GoldEntry}
    (read : readLine unicode other path number line = .ok entry) :
    idOfLine other line = some entry.questionId := by
  rw [readLine] at read
  rw [idOfLine]
  split at read
  · cases read
  · cases read
  · cases read
  · rename_i members parsed
    rw [parsed]
    simp only [readMembers] at read
    split at read
    · cases read
    · rename_i complete
      split at read
      · cases read
      · cases read
        cases found : Json.get? members "question_id" with
        | none => simp [requiredKeys, found] at complete
        | some value => simp [entryOfMembers, textField, found]
  · cases read

/-- Two lines that are not blank are objects with one id. -/
def RepeatsId (other : Json → String) (text : String) : Prop :=
  ∃ a ∈ written ((splitlines text).zipIdx 1), ∃ b ∈ written ((splitlines text).zipIdx 1),
    a ≠ b ∧ ∃ id, idOfLine other a.1 = some id ∧ idOfLine other b.1 = some id

variable (unicode path) in
/-- A file that repeats an id is refused. -/
theorem loadVerifiedGold_of_repeats {text : String} (repeats : RepeatsId other text) :
    ∃ refusal, loadVerifiedGold unicode other path text = .error refusal := by
  obtain ⟨a, first, b, second, apart, id, one, same⟩ := repeats
  cases loaded : loadVerifiedGold unicode other path text with
  | error refusal => exact ⟨refusal, rfl⟩
  | ok gold =>
    obtain ⟨rows, mapped, distinct, -⟩ := (loadVerifiedGold_ok_iff unicode other path).mp loaded
    have ids : rows.map (fun row => some row.questionId) =
        (written ((splitlines text).zipIdx 1)).map fun line => idOfLine other line.1 :=
      Fallible.map_of_mapM mapped fun line entry read => (idOfLine_of_readLine read).symm
    have apartIds : ((written ((splitlines text).zipIdx 1)).map
        fun line => idOfLine other line.1).Nodup := by
      have own := distinct.map (Option.some_injective String)
      rw [List.map_map] at own
      exact ids ▸ own
    exact absurd (List.inj_on_of_nodup_map apartIds first second (one.trans same.symm)) apart

end Reading

end Gold
