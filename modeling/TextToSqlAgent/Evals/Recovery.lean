import TextToSqlAgent.Evals.Resumption
import TextToSqlAgent.Evals.Evaluations

/-!
# Damaged files

Resuming a run passes over the files it cannot read. The summary at the end of
the run reads them all again, and does not.
-/

namespace Recovery

open Python Exceptions Canonical Validator Recall Taxonomy Artifacts Runner Summary Evaluations
open Fallible Resumption

/-! ## Files that can be summarised -/

/-- A file that loads, with a record that can be added up. -/
def Readable (content : FileContent) : Prop :=
  ∃ a, load content = .ok a ∧ Summable a

open Classical in
/-- The records of these files, by the names of the files. -/
noncomputable def readable (questions : Files) : List StoredArtifact :=
  ((sortedFiles questions).filterMap fun file => (load file.2).toOption).filter
    fun a => decide (Summable a)

/-- The summary of what `artifacts` gives. -/
def summaryOf (questions : Files) : Except Raised RunSummary := do
  let stored ← artifacts questions
  summarise stored

theorem mem_sortedFiles {questions : Files} {name : String} {content : FileContent} :
    ⟨name, content⟩ ∈ sortedFiles questions ↔ questions.lookup name = some content := by
  rw [sortedFiles, List.mem_mergeSort]
  exact AList.mem_lookup_iff.symm

/-- There is a summary exactly where every file can be summarised. -/
theorem summaryOf_isOk_iff {questions : Files} :
    (∃ s, summaryOf questions = .ok s) ↔
      ∀ name content, questions.lookup name = some content → Readable content := by
  constructor
  · rintro ⟨s, done⟩ name content found
    obtain ⟨stored, loaded, summed⟩ := bind_ok_iff.mp done
    have listed := mem_sortedFiles.mpr found
    obtain ⟨a, read⟩ := ok_of_mapM loaded _ listed
    have recorded : a ∈ stored := (mem_of_mapM loaded).mpr ⟨_, listed, read⟩
    exact ⟨a, read, summarise_isOk_iff.mp ⟨s, summed⟩ a recorded⟩
  · intro each
    have loads : ∀ file ∈ sortedFiles questions, ∃ a, load file.2 = .ok a := by
      intro file listed
      obtain ⟨a, read, -⟩ := each _ _ (mem_sortedFiles.mp listed)
      exact ⟨a, read⟩
    obtain ⟨stored, loaded⟩ := mapM_isOk_iff.mpr loads
    obtain ⟨s, summed⟩ := summarise_isOk_iff.mpr fun a (listed : a ∈ stored) => by
      obtain ⟨file, ofFile, read⟩ := (mem_of_mapM loaded).mp listed
      obtain ⟨b, same, summable⟩ := each _ _ (mem_sortedFiles.mp ofFile)
      obtain rfl := Except.ok.inj (read.symm.trans same)
      exact summable
    exact ⟨s, bind_ok_iff.mpr ⟨stored, loaded, summed⟩⟩

/-- Then it is over the readable ones. -/
theorem summarise_readable {questions : Files} {s : RunSummary}
    (done : summaryOf questions = .ok s) : summarise (readable questions) = .ok s := by
  obtain ⟨stored, loaded, summed⟩ := bind_ok_iff.mp done
  have summable := summarise_isOk_iff.mp ⟨s, summed⟩
  rw [readable, filterMap_of_mapM loaded, List.filter_eq_self.mpr fun a listed => by
    simp [summable a listed]]
  exact summed

/-! ## What a run records can be summarised -/

/-- The keys that a record is written with are read as numbers. -/
theorem int_cutoff : ∀ k ∈ defaultKValues, (int (toString k)).isSome = true := by decide

theorem intKeys_ok {members : List (String × Json)}
    (numeric : ∀ m ∈ members, (int m.1).isSome = true) (d : AList fun _ : Int => Json) :
    ∃ read, intKeys d members = .ok read ∧
      ∀ k value, read.lookup k = some value →
        d.lookup k = some value ∨ ∃ m ∈ members, m.2 = value := by
  induction members generalizing d with
  | nil => exact ⟨d, rfl, fun k value found => Or.inl found⟩
  | cons m rest ih =>
    obtain ⟨key, value⟩ := m
    obtain ⟨k, found⟩ := Option.isSome_iff_exists.mp (numeric _ List.mem_cons_self)
    obtain ⟨read, done, values⟩ :=
      ih (fun m hm => numeric m (List.mem_cons_of_mem _ hm)) (d.insert k value)
    refine ⟨read, ?_, ?_⟩
    · rw [intKeys, found]
      exact done
    · intro j other known
      rcases values j other known with kept | ⟨m, hm, same⟩
      · by_cases here : j = k
        · subst here
          rw [AList.lookup_insert] at kept
          exact Or.inr ⟨_, List.mem_cons_self, Option.some.inj kept⟩
        · rw [AList.lookup_insert_ne here] at kept
          exact Or.inl kept
      · exact Or.inr ⟨m, List.mem_cons_of_mem _ hm, same⟩

theorem recallItems_ok {recalls : List (Nat × Rat)}
    (cutoffs : ∀ r ∈ recalls, r.1 ∈ defaultKValues) :
    ∃ read, recallItems (some (.obj (recalls.map fun r => (toString r.1, .float (.finite r.2))))) =
        .ok read ∧ ∀ k, ∀ value ∈ read.lookup k, value.number.isSome = true := by
  cases recalls with
  | nil =>
    refine ⟨∅, rfl, fun k value found => ?_⟩
    rw [Option.mem_def, AList.lookup_empty] at found
    cases found
  | cons first rest =>
    have numeric : ∀ m ∈ (first :: rest).map fun r => (toString r.1, Json.float (.finite r.2)),
        (int m.1).isSome = true := by
      intro m hm
      obtain ⟨r, hr, rfl⟩ := List.mem_map.mp hm
      exact int_cutoff _ (cutoffs r hr)
    obtain ⟨read, done, values⟩ := intKeys_ok numeric ∅
    refine ⟨read, done, fun k value found => ?_⟩
    rcases values k value found with none | ⟨m, hm, rfl⟩
    · rw [AList.lookup_empty] at none
      cases none
    · obtain ⟨r, -, rfl⟩ := List.mem_map.mp hm
      rfl

theorem readable_payload {artifact : QuestionArtifact} (str : PyValue → String)
    (cutoffs : ∀ r ∈ artifact.recallAtK, r.1 ∈ defaultKValues) :
    Readable (.ok (artifact.payload str)) := by
  obtain ⟨read, items, numbers⟩ := recallItems_ok cutoffs
  refine ⟨_, bind_ok_iff.mpr ⟨read, items, rfl⟩, ?_⟩
  exact {
    category := rfl
    model := fun _ => rfl
    unresolved := rfl
    recalls := numbers
    input := rfl
    output := rfl
    duration := rfl }

/-- The record of an evaluated question can be summarised. -/
theorem readable_evaluated {harness : Harness} (e : Evaluation harness) :
    Readable (.ok (e.artifact.payload harness.str)) := by
  refine readable_payload _ fun r listed => ?_
  obtain ⟨prediction, -, -, -, recalls⟩ := e.holds
  rw [recalls] at listed
  have key := List.mem_map_of_mem (f := Prod.fst) listed
  rw [Evaluation.recalled, map_fst_atK] at key
  split_ifs at key
  · exact key
  · exact absurd key List.not_mem_nil

/-! ## A run to its end -/

variable {harness : Harness}

/-- What `run` comes to. It returns the summary that it has written. -/
inductive Outcome
  | interrupted
  | raised (e : Raised)
  | returned (summary : RunSummary)

/-- Once the loop is over, what is on disk is summarised. -/
def outcome (report : Report) : Outcome :=
  match report.ending with
  | .refused e => .raised e
  | .raised e => .raised e
  | .interrupted => .interrupted
  | .halted | .completed =>
    match summaryOf report.directory.questions with
    | .ok s => .returned s
    | .error e => .raised e

/-- The loop came to its own end. -/
def Over (ending : Ending) : Prop := ending = .halted ∨ ending = .completed

theorem outcome_of_over {report : Report} (ended : Over report.ending) :
    outcome report =
      match summaryOf report.directory.questions with
      | .ok s => .returned s
      | .error e => .raised e := by
  rcases ended with halted | completed
  · rw [outcome, halted]
  · rw [outcome, completed]

theorem returned_iff {report : Report} (ended : Over report.ending) {s : RunSummary} :
    outcome report = .returned s ↔ summaryOf report.directory.questions = .ok s := by
  rw [outcome_of_over ended]
  cases summaryOf report.directory.questions with
  | ok t => simp
  | error e => simp

theorem raised_iff {report : Report} (ended : Over report.ending) :
    (∃ e, outcome report = .raised e) ↔ ¬∃ s, summaryOf report.directory.questions = .ok s := by
  rw [outcome_of_over ended]
  cases summaryOf report.directory.questions with
  | ok t => simp
  | error e => simp

/-- The questions not answered are asked, and the run ends with a summary over
the files that can be summarised. -/
structure Recovers (harness : Harness) (invocation : Invocation) (d : RunDirectory)
    (done : List String) : Prop where
  accepted : ∀ e, (Runner.run harness invocation d).ending ≠ .refused e
  asked : (Runner.run harness invocation d).asked <+:
    (pending invocation done).map Question.questionId
  all : (Runner.run harness invocation d).ending = .completed →
    (Runner.run harness invocation d).asked = (pending invocation done).map Question.questionId
  summary : Over (Runner.run harness invocation d).ending →
    ∃ s, outcome (Runner.run harness invocation d) = .returned s ∧
      summarise (readable (Runner.run harness invocation d).directory.questions) = .ok s

/-- The same run with another world outside. -/
def within (invocation : Invocation) (outside : Nat → Outside) (stopAt : Option Nat) :
    Invocation :=
  { invocation with outside, stopAt }

/-- The questions asked in every run whose loop comes to its own end: a run of
failures may halt it at the limit. -/
def certain (invocation : Invocation) (done : List String) : List Question :=
  match invocation.haltAfter with
  | none => pending invocation done
  | some n => (pending invocation done).take n

theorem run_eq (invocation : Invocation) {d : RunDirectory} {done : List String}
    (accepted : invocation.store.resume harness.hashing harness.platform
      (invocation.store.start harness.hashing d) = .ok done) :
    let progress := attemptAll harness invocation 0 0 (pending invocation done) d.questions
    Runner.run harness invocation d =
      ⟨⟨(invocation.store.start harness.hashing d).manifest, progress.questions⟩, progress.asked,
        progress.recorded, progress.ending⟩ := by
  have files : (invocation.store.start harness.hashing d).questions = d.questions := by
    rw [RunStore.start]
    cases d.manifest <;> rfl
  simp only [Runner.run, accepted, files]

/-- What becomes of the first question of a loop: it is not asked, its
evaluation raises, or it is recorded and the loop halts or goes on. -/
theorem attemptAll_cons (invocation : Invocation) (position c : Nat) (question : Question)
    (rest : List Question) (files : Files) :
    (¬Over (attemptAll harness invocation position c (question :: rest) files).ending ∧
      (attemptAll harness invocation position c (question :: rest) files).recorded = []) ∨
    ∃ artifact, evaluate harness (invocation.outside position) question = .ok artifact ∧
      ((∃ limit, invocation.haltAfter = some limit ∧ limit ≤ inARow c artifact ∧
        attemptAll harness invocation position c (question :: rest) files =
          ⟨record harness.hashing harness.str files artifact, [question.questionId], [artifact],
            .halted⟩) ∨
      ∃ later, later = attemptAll harness invocation (position + 1) (inARow c artifact) rest
          (record harness.hashing harness.str files artifact) ∧
        (∀ limit, invocation.haltAfter = some limit → inARow c artifact < limit) ∧
        attemptAll harness invocation position c (question :: rest) files =
          ⟨later.questions, question.questionId :: later.asked, artifact :: later.recorded,
            later.ending⟩) := by
  rw [attemptAll]
  split
  · exact Or.inl ⟨by simp [Over], rfl⟩
  · split
    · exact Or.inl ⟨by simp [Over], rfl⟩
    · rename_i artifact evaluated
      refine Or.inr ⟨artifact, evaluated, ?_⟩
      dsimp only
      split
      · rename_i halts
        obtain ⟨limit, limited, reached⟩ := (Option.any_eq_true _ _).mp halts
        exact Or.inl ⟨limit, limited, of_decide_eq_true reached, rfl⟩
      · rename_i below
        refine Or.inr ⟨_, rfl, ?_, rfl⟩
        intro limit limited
        simpa [limited] using below

/-- Every record of a run is of an evaluation. -/
theorem evaluated_of_recorded {invocation : Invocation} {position c : Nat}
    {questions : List Question} {files : Files} {a : QuestionArtifact}
    (recorded : a ∈ (attemptAll harness invocation position c questions files).recorded) :
    ∃ e : Evaluation harness, e.artifact = a := by
  induction questions generalizing position c files with
  | nil => exact absurd recorded List.not_mem_nil
  | cons question rest ih =>
    rcases attemptAll_cons invocation position c question rest files with
      ⟨-, none⟩ | ⟨artifact, evaluated, ⟨limit, -, -, halted⟩ | ⟨later, rfl, -, next⟩⟩
    · rw [none] at recorded
      exact absurd recorded List.not_mem_nil
    · rw [halted] at recorded
      obtain rfl := List.mem_singleton.mp recorded
      exact ⟨⟨_, _, _, evaluated⟩, rfl⟩
    · rw [next] at recorded
      rcases List.mem_cons.mp recorded with rfl | later
      · exact ⟨⟨_, _, _, evaluated⟩, rfl⟩
      · exact ih later

/-- A loop that came to its own end has recorded every question, or as many as
it takes to halt. -/
theorem recorded_of_over {invocation : Invocation} {position c : Nat} {questions : List Question}
    {files : Files}
    (ended : Over (attemptAll harness invocation position c questions files).ending) :
    ∃ n, (attemptAll harness invocation position c questions files).recorded.map
        QuestionArtifact.questionId = (questions.take n).map Question.questionId ∧
      (questions.length ≤ n ∨ ∃ limit, invocation.haltAfter = some limit ∧ limit ≤ c + n) := by
  induction questions generalizing position c files with
  | nil => exact ⟨0, rfl, Or.inl le_rfl⟩
  | cons question rest ih =>
    rcases attemptAll_cons invocation position c question rest files with
      ⟨stopped, -⟩ | ⟨artifact, evaluated, found⟩
    · exact absurd ended stopped
    · have own := evaluate_questionId evaluated
      have counted : inARow c artifact ≤ c + 1 := by
        rw [inARow]
        split <;> omega
      rcases found with ⟨limit, limited, reached, halted⟩ | ⟨later, rfl, -, next⟩
      · rw [halted]
        refine ⟨1, ?_, Or.inr ⟨limit, limited, by omega⟩⟩
        simp [own]
      · rw [next] at ended ⊢
        obtain ⟨n, recorded, enough⟩ := ih ended
        refine ⟨n + 1, ?_, ?_⟩
        · rw [List.take_succ_cons, List.map_cons, List.map_cons, own, recorded]
        · rcases enough with all | ⟨limit, limited, reached⟩
          · exact Or.inl (by rw [List.length_cons]; omega)
          · exact Or.inr ⟨limit, limited, by omega⟩

/-- So the questions that are certain to be asked are recorded. -/
theorem recorded_of_certain {invocation : Invocation} {done : List String} {files : Files}
    (ended : Over (attemptAll harness invocation 0 0 (pending invocation done) files).ending)
    {question : Question} (asked : question ∈ certain invocation done) :
    ∃ a ∈ (attemptAll harness invocation 0 0 (pending invocation done) files).recorded,
      a.questionId = question.questionId := by
  obtain ⟨n, recorded, enough⟩ := recorded_of_over ended
  have among : question ∈ (pending invocation done).take n := by
    rw [certain] at asked
    rcases enough with all | ⟨limit, limited, reached⟩
    · rw [List.take_of_length_le all]
      cases limited : invocation.haltAfter with
      | none =>
        rw [limited] at asked
        exact asked
      | some limit =>
        rw [limited] at asked
        exact List.mem_of_mem_take asked
    · rw [limited] at asked
      exact List.take_subset_take_left _ (by omega) asked
  have named := List.mem_map_of_mem (f := Question.questionId) among
  rw [← recorded] at named
  exact List.mem_map.mp named

/-! ## The worst run -/

/-- The provider fails on every question, and no query runs. -/
def outage : Outside where
  answerer _ := .ok { errorType := some "llm_failed" }
  runQuery _ _ _ := none
  elapsed := .finite 0

theorem evaluate_outage (harness : Harness) (question : Question) :
    ∃ a, evaluate harness outage question = .ok a ∧ isInfrastructure a.errorType = true := by
  have failed : isInfrastructure (some "llm_failed") = true := by decide
  exact ⟨_, rfl, failed⟩

def worst (invocation : Invocation) : Invocation := within invocation (fun _ => outage) none

theorem attemptAll_worst (invocation : Invocation) (position c : Nat) (question : Question)
    (rest : List Question) (files : Files) :
    ∃ a, a.questionId = question.questionId ∧
      attemptAll harness (worst invocation) position c (question :: rest) files =
        let files := record harness.hashing harness.str files a
        if invocation.haltAfter.any fun n => n ≤ c + 1 then
          ⟨files, [question.questionId], [a], .halted⟩
        else
          let later := attemptAll harness (worst invocation) (position + 1) (c + 1) rest files
          ⟨later.questions, question.questionId :: later.asked, a :: later.recorded,
            later.ending⟩ := by
  obtain ⟨a, evaluated, failed⟩ := evaluate_outage harness question
  have counted : inARow c a = c + 1 := if_pos failed
  refine ⟨a, evaluate_questionId evaluated, ?_⟩
  rw [attemptAll, if_neg (by simp [worst, within])]
  simp only [worst, within, evaluated, counted]

/-- It comes to its own end with no more than the certain questions recorded. -/
theorem worst_recorded (invocation : Invocation) (position : Nat) {c : Nat}
    (below : ∀ limit, invocation.haltAfter = some limit → c < limit) (questions : List Question)
    (files : Files) :
    Over (attemptAll harness (worst invocation) position c questions files).ending ∧
      (attemptAll harness (worst invocation) position c questions files).recorded.map
          QuestionArtifact.questionId =
        (match invocation.haltAfter with
          | none => questions
          | some limit => questions.take (limit - c)).map Question.questionId := by
  induction questions generalizing position c files with
  | nil =>
    refine ⟨Or.inr rfl, ?_⟩
    cases invocation.haltAfter <;> simp [attemptAll]
  | cons question rest ih =>
    obtain ⟨a, own, asked⟩ :=
      attemptAll_worst invocation position c question rest files
    rw [asked]
    cases limited : invocation.haltAfter with
    | none =>
      obtain ⟨ended, recorded⟩ := ih (position + 1) (c := c + 1) (by simp [limited])
        (record harness.hashing harness.str files a)
      rw [limited] at recorded
      exact ⟨ended, by rw [List.map_cons, ← own, ← recorded]; rfl⟩
    | some limit =>
      have room := below limit limited
      by_cases last : limit ≤ c + 1
      · have one : limit - c = 1 := by omega
        simp [Over, last, one, own]
      · have next : ∀ other, invocation.haltAfter = some other → c + 1 < other := by
          intro other same
          obtain rfl := Option.some.inj (limited.symm.trans same)
          omega
        obtain ⟨ended, recorded⟩ := ih (position + 1) next
          (record harness.hashing harness.str files a)
        have more : limit - c = limit - (c + 1) + 1 := by omega
        rw [limited] at recorded
        dsimp only at recorded
        simp only [Option.any_some, last, decide_false, Bool.false_eq_true, if_false]
        refine ⟨ended, ?_⟩
        rw [List.map_cons, recorded, more, List.take_succ_cons, List.map_cons, own]

/-! ## Recovering -/

theorem not_refused {limit : Option Nat} {c : Nat} {questions : List Question} {files : Files}
    {progress : Progress} (loop : Loop harness limit c questions files progress) (e : Raised) :
    progress.ending ≠ .refused e := by
  induction loop with
  | completed | interrupted | raised | halted => exact nofun
  | next own below tail ih => exact ih

/-- Every file that is left is summarised, unless it is written again. -/
theorem recovers_of_readable (invocation : Invocation) {d : RunDirectory} {done : List String}
    (accepted : invocation.store.resume harness.hashing harness.platform
      (invocation.store.start harness.hashing d) = .ok done)
    (each : ∀ name content, d.questions.lookup name = some content →
      Readable content ∨
        ∃ q ∈ certain invocation done, artifactFilename harness.hashing q.questionId = name) :
    Recovers harness invocation d done := by
  have loop := @loop_attemptAll harness invocation 0 0 (pending invocation done)
    d.questions
  have report := run_eq invocation accepted
  dsimp only at report
  refine ⟨?_, ?_, ?_, ?_⟩
  · intro e refused
    rw [report] at refused
    exact not_refused loop e refused
  · rw [report]
    exact loop.asked_prefix
  · rw [report]
    exact loop.asked_all
  · rw [report]
    intro ended
    have summarised : ∃ s, summaryOf (attemptAll harness invocation 0 0 (pending invocation done)
        d.questions).questions = .ok s := by
      refine summaryOf_isOk_iff.mpr fun name content found => ?_
      rw [loop.questions_eq] at found
      rcases lookup_foldl_record name _ d.questions with
        ⟨a, recorded, -, written⟩ | ⟨others, kept⟩
      · obtain ⟨e, rfl⟩ := evaluated_of_recorded recorded
        obtain rfl := Option.some.inj (written.symm.trans found)
        exact readable_evaluated e
      · rw [kept] at found
        rcases each name content found with readable | ⟨q, asked, named⟩
        · exact readable
        · obtain ⟨a, recorded, own⟩ := recorded_of_certain ended asked
          exact absurd (own ▸ named) (others a recorded)
    obtain ⟨s, done⟩ := summarised
    exact ⟨s, (returned_iff ended).mpr done, summarise_readable done⟩

/-- The worst run recovers only where every file left is one of these. -/
theorem readable_of_recovers {invocation : Invocation} {d : RunDirectory} {done : List String}
    (accepted : invocation.store.resume harness.hashing harness.platform
      (invocation.store.start harness.hashing d) = .ok done)
    (recovers : Recovers harness (worst invocation) d done) {name : String}
    {content : FileContent} (found : d.questions.lookup name = some content) :
    Readable content ∨
      ∃ q ∈ certain invocation done, artifactFilename harness.hashing q.questionId = name := by
  have report := run_eq (worst invocation) accepted
  have loop := @loop_attemptAll harness (worst invocation) 0 0
    (pending (worst invocation) done) d.questions
  obtain ⟨ended, recorded⟩ := worst_recorded invocation 0 (c := 0)
    (fun limit limited => invocation.halts limit limited) (pending invocation done) d.questions
  have asked : (attemptAll harness (worst invocation) 0 0 (pending invocation done)
      d.questions).recorded.map QuestionArtifact.questionId =
        (certain invocation done).map Question.questionId := recorded
  dsimp only at report
  have summary := recovers.summary
  rw [report] at summary
  obtain ⟨s, returned, -⟩ := summary ended
  have readable := summaryOf_isOk_iff.mp ⟨s, (returned_iff ended).mp returned⟩
  rcases lookup_foldl_record name _ d.questions with
    ⟨a, listed, named, -⟩ | ⟨-, kept⟩
  · have among := List.mem_map_of_mem (f := QuestionArtifact.questionId) listed
    rw [asked] at among
    obtain ⟨q, certainly, own⟩ := List.mem_map.mp among
    exact Or.inr ⟨q, certainly, own ▸ named⟩
  · refine Or.inl (readable name content ?_)
    rw [loop.questions_eq]
    exact kept.trans found

private def store : RunStore where
  root := "runs/first"
  manifest :=
    { runId := "first", dataset := "spider", split := "dev", model := "m"
      retrieverModelVersion := "r", promptVersion := "p", commit := "c" }

private def oneQuestion : Invocation where
  store := store
  questions := [{ questionId := "q1", question := "?", goldSql := "SELECT 1" }]
  haltAfter := some 10
  halts := by
    intro n same
    obtain rfl := Option.some.inj same
    decide
  outside _ := outage
  stopAt := none

/-- What `json.loads` says of a file that ends too early. -/
private def truncated : FileContent := .error "Expecting value: line 1 column 16 (char 15)"

private def holding (name : String) : RunDirectory where
  manifest := some (.ok (store.manifest.toDict (plainHarness {}).hashing))
  questions := (∅ : Files).insert name truncated

private theorem holding_accepted (name : String) :
    store.resume (plainHarness {}).hashing (plainHarness {}).platform
      (store.start (plainHarness {}).hashing (holding name)) = .ok [] :=
  rfl

end Recovery
