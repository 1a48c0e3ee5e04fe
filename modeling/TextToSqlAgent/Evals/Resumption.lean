import TextToSqlAgent.Library.Runs
import TextToSqlAgent.Evals.Runner

/-!
# Resuming a run

Over any sequence of runs on one directory that was empty, interrupted or not, an
answered question is retired with the file that answers it, an infrastructure
failure is tried again, and all files are of one configuration.
-/

namespace Resumption

open Python Exceptions Canonical Validator Taxonomy Artifacts Runner

abbrev Files := AList fun _ : String => FileContent

variable {harness : Harness}

/-! ## The loop of one run -/

/-- How the loop may go on from some number of failures in a row. -/
inductive Loop (harness : Harness) (limit : Option Nat) :
    Nat → List Question → Files → Progress → Prop
  | completed {c files} : Loop harness limit c [] files ⟨files, [], [], .completed⟩
  | interrupted {c question rest files} :
    Loop harness limit c (question :: rest) files ⟨files, [], [], .interrupted⟩
  | raised {c question rest files} (e : Raised) :
    Loop harness limit c (question :: rest) files ⟨files, [question.questionId], [], .raised e⟩
  | halted {c question rest files artifact} (own : artifact.questionId = question.questionId) :
    Loop harness limit c (question :: rest) files
      ⟨record harness.hashing harness.str files artifact, [question.questionId], [artifact],
        .halted⟩
  | next {c question rest files artifact later} (own : artifact.questionId = question.questionId)
    (below : ∀ n, limit = some n → inARow c artifact < n)
    (tail : Loop harness limit (inARow c artifact) rest
      (record harness.hashing harness.str files artifact) later) :
    Loop harness limit c (question :: rest) files
      ⟨later.questions, question.questionId :: later.asked, artifact :: later.recorded,
        later.ending⟩

theorem loop_attemptAll (invocation : Invocation) (position c : Nat) (questions : List Question)
    (files : Files) :
    Loop harness invocation.haltAfter c questions files
      (attemptAll harness invocation position c questions files) := by
  induction questions generalizing position c files with
  | nil => exact .completed
  | cons question rest ih =>
    rw [attemptAll]
    split
    · exact .interrupted
    · split
      · exact .raised _
      · rename_i artifact evaluated
        have own := evaluate_questionId evaluated
        split
        · exact .halted own
        · rename_i goesOn
          refine .next own ?_ (ih _ _ _)
          intro n limit
          simpa [limit] using goesOn

namespace Loop

variable {limit : Option Nat} {c : Nat} {questions : List Question} {files : Files}
  {progress : Progress}

/-- The questions are asked in order, none twice and none left out. -/
theorem asked_prefix (loop : Loop harness limit c questions files progress) :
    progress.asked <+: questions.map Question.questionId := by
  induction loop with
  | completed => exact List.prefix_rfl
  | interrupted => exact List.nil_prefix
  | raised e => exact List.prefix_append [_] _
  | halted own => exact List.prefix_append [_] _
  | next own below tail ih => exact (List.prefix_cons_inj _).mpr ih

theorem asked_all (loop : Loop harness limit c questions files progress)
    (through : progress.ending = .completed) :
    progress.asked = questions.map Question.questionId := by
  induction loop with
  | completed => rfl
  | next own below tail ih => exact congrArg _ (ih through)
  | interrupted | raised | halted => cases through

/-- Only what was asked is recorded. -/
theorem recorded_prefix (loop : Loop harness limit c questions files progress) :
    progress.recorded.map QuestionArtifact.questionId <+: progress.asked := by
  induction loop with
  | completed | interrupted => exact List.prefix_rfl
  | raised e => exact List.nil_prefix
  | halted own => simp [own]
  | next own below tail ih =>
    rw [List.map_cons, own]
    exact (List.prefix_cons_inj _).mpr ih

theorem questions_eq (loop : Loop harness limit c questions files progress) :
    progress.questions = progress.recorded.foldl (record harness.hashing harness.str) files := by
  induction loop with
  | completed | interrupted | raised | halted => rfl
  | next own below tail ih => exact ih

/-- Before the last answer the failures in a row stay under the limit. -/
theorem below_limit (loop : Loop harness limit c questions files progress) {n : Nat}
    (limited : limit = some n) {answered ahead : List QuestionArtifact}
    (split : progress.recorded = answered ++ ahead) (some : answered ≠ [])
    (more : ahead ≠ [] ∨ progress.recorded.length < progress.asked.length) :
    answered.foldl inARow c < n := by
  induction loop generalizing answered with
  | completed | interrupted | raised =>
    exact absurd (List.append_eq_nil_iff.mp split.symm).1 some
  | halted own =>
    obtain ⟨first, rest, rfl⟩ := List.exists_cons_of_ne_nil some
    have none : ahead = [] := (List.append_eq_nil_iff.mp (List.cons.inj split).2.symm).2
    simp [none] at more
  | @next c question rest files artifact later own below tail ih =>
    obtain ⟨first, others, rfl⟩ := List.exists_cons_of_ne_nil some
    obtain ⟨rfl, remaining⟩ := List.cons.inj split
    rw [List.foldl_cons]
    cases others with
    | nil => exact below n limited
    | cons second others =>
      refine ih remaining (List.cons_ne_nil _ _) (more.imp_right fun shorter => ?_)
      simpa using shorter

end Loop

/-- Failures in a row are counted. -/
theorem length_le_inARow {c : Nat} {window : List QuestionArtifact}
    (failed : ∀ a ∈ window, isInfrastructure a.errorType = true) :
    window.foldl inARow c = c + window.length := by
  induction window generalizing c with
  | nil => rfl
  | cons a rest ih =>
    have first : inARow c a = c + 1 := if_pos (failed a List.mem_cons_self)
    rw [List.foldl_cons, first, ih fun b hb => failed b (List.mem_cons_of_mem _ hb),
      List.length_cons]
    omega

theorem lookup_foldl_record (name : String) (recorded : List QuestionArtifact) (files : Files) :
    (∃ a ∈ recorded, artifactFilename harness.hashing a.questionId = name ∧
      (recorded.foldl (record harness.hashing harness.str) files).lookup name =
        some (.ok (a.payload harness.str))) ∨
    ((∀ a ∈ recorded, artifactFilename harness.hashing a.questionId ≠ name) ∧
      (recorded.foldl (record harness.hashing harness.str) files).lookup name =
        files.lookup name) := by
  induction recorded generalizing files with
  | nil => exact .inr ⟨by simp, rfl⟩
  | cons a rest ih =>
    rw [List.foldl_cons]
    rcases ih (record harness.hashing harness.str files a) with
      ⟨b, hb, named, found⟩ | ⟨others, kept⟩
    · exact .inl ⟨b, List.mem_cons_of_mem _ hb, named, found⟩
    · rw [kept, record]
      by_cases named : artifactFilename harness.hashing a.questionId = name
      · subst named
        exact .inl ⟨a, List.mem_cons_self, rfl, AList.lookup_insert _⟩
      · refine .inr ⟨?_, AList.lookup_insert_ne (Ne.symm named)⟩
        intro b hb
        rcases List.mem_cons.mp hb with rfl | later
        · exact named
        · exact others b later

/-! ## One run -/

/-- The fingerprint a directory's manifest records. -/
def fingerprintOf (d : RunDirectory) : Option String :=
  match d.manifest with
  | some (.ok (.obj members)) =>
    match Json.get? members "config_fingerprint" with
    | some (.str fingerprint) => some fingerprint
    | _ => none
  | _ => none

/-- The configuration the directory holds, if any, is the run's. -/
def Accepts (harness : Harness) (d : RunDirectory) (invocation : Invocation) : Prop :=
  ∀ fingerprint, fingerprintOf d = some fingerprint → fingerprint = invocation.fingerprint harness

/-- The manifest is none, or one that a store wrote. -/
def Legible (hashing : Hashing) (d : RunDirectory) : Prop :=
  d.manifest = none ∨ ∃ m : RunManifest, d.manifest = some (.ok (m.toDict hashing))

theorem fingerprintOf_toDict {hashing : Hashing} {d : RunDirectory} {m : RunManifest}
    (written : d.manifest = some (.ok (m.toDict hashing))) :
    fingerprintOf d = some (m.configFingerprint hashing) := by
  rw [fingerprintOf, written]
  rfl

theorem resume_toDict {hashing : Hashing} (p : Platform) (store : RunStore) {d : RunDirectory}
    {m : RunManifest} (written : d.manifest = some (.ok (m.toDict hashing))) :
    store.resume hashing p d =
      if m.configFingerprint hashing = store.manifest.configFingerprint hashing then
        .ok (answeredIds p d.questions)
      else
        .error (.unexpected
          (store.mismatch hashing p (some (.str (m.configFingerprint hashing))))) := by
  rw [RunStore.resume, written]
  rfl

/-- A run under another fingerprint is refused and changes nothing. -/
theorem run_refused {d : RunDirectory} {invocation : Invocation}
    (legible : Legible harness.hashing d) {fingerprint : String}
    (recorded : fingerprintOf d = some fingerprint)
    (differs : fingerprint ≠ invocation.fingerprint harness) :
    ∃ e, Runner.run harness invocation d = ⟨d, [], [], .refused e⟩ := by
  rcases legible with none | ⟨m, written⟩
  · rw [fingerprintOf, none] at recorded
    cases recorded
  · rw [fingerprintOf_toDict written] at recorded
    have kept : invocation.store.start harness.hashing d = d := by
      rw [RunStore.start, written]
    have other : m.configFingerprint harness.hashing ≠
        invocation.store.manifest.configFingerprint harness.hashing := by
      rw [Option.some.inj recorded]
      exact differs
    have refused := resume_toDict harness.platform invocation.store written
    rw [if_neg other] at refused
    exact ⟨_, by rw [Runner.run, kept, refused]⟩

/-- A run the directory accepts loops over what is not answered in it. -/
theorem run_accepted {d : RunDirectory} {invocation : Invocation}
    (legible : Legible harness.hashing d) (accepts : Accepts harness d invocation) :
    ∃ (progress : Progress) (m : RunManifest),
      m.configFingerprint harness.hashing = invocation.fingerprint harness ∧
      Loop harness invocation.haltAfter 0
        (pending invocation (answeredIds harness.platform d.questions)) d.questions progress ∧
      Runner.run harness invocation d =
        ⟨⟨some (.ok (m.toDict harness.hashing)), progress.questions⟩, progress.asked,
          progress.recorded, progress.ending⟩ := by
  obtain ⟨m, started, same⟩ : ∃ m : RunManifest,
      invocation.store.start harness.hashing d =
        ⟨some (.ok (m.toDict harness.hashing)), d.questions⟩ ∧
      m.configFingerprint harness.hashing = invocation.fingerprint harness := by
    rcases legible with none | ⟨m, written⟩
    · exact ⟨invocation.store.manifest, by rw [RunStore.start, none], rfl⟩
    · have kept : invocation.store.start harness.hashing d = d := by
        rw [RunStore.start, written]
      refine ⟨m, ?_, accepts _ (fingerprintOf_toDict written)⟩
      rw [kept, ← written]
  refine ⟨_, m, same, loop_attemptAll invocation 0 0 _ _, ?_⟩
  have agrees : m.configFingerprint harness.hashing =
      invocation.store.manifest.configFingerprint harness.hashing := same
  rw [Runner.run, started, resume_toDict _ _ rfl, if_pos agrees]

/-! ## Histories -/

/-- A directory, and all artifacts ever recorded in it, each under the
fingerprint of the run that produced it. -/
structure History where
  directory : RunDirectory
  produced : List (String × QuestionArtifact)

def fresh : History := ⟨⟨none, ∅⟩, []⟩

def producedBy (harness : Harness) (invocation : Invocation) (report : Report) :
    List (String × QuestionArtifact) :=
  report.recorded.map fun a => (invocation.fingerprint harness, a)

/-- One more run on the directory. -/
def session (harness : Harness) (h : History) (invocation : Invocation) : Option History :=
  let report := Runner.run harness invocation h.directory
  some ⟨report.directory, h.produced ++ producedBy harness invocation report⟩

/-- Every file is the record of a question that was produced under the
fingerprint of the manifest, and lies where that question's record belongs. -/
structure Sound (harness : Harness) (ids : Set String) (h : History) : Prop where
  legible : Legible harness.hashing h.directory
  genuine : ∀ name content, h.directory.questions.lookup name = some content →
    ∃ fingerprint a, (fingerprint, a) ∈ h.produced ∧
      fingerprintOf h.directory = some fingerprint ∧ a.questionId ∈ ids ∧
      name = artifactFilename harness.hashing a.questionId ∧
      content = .ok (a.payload harness.str)

variable {ids : Set String} {h : History} {invocation : Invocation}

theorem sound_fresh : Sound harness ids fresh where
  legible := .inl rfl
  genuine := by
    intro name content found
    cases found

/-- The two ways a run goes, with what each leaves. -/
theorem run_cases (legible : Legible harness.hashing h.directory) (invocation : Invocation) :
    (¬Accepts harness h.directory invocation ∧
      ∃ e, Runner.run harness invocation h.directory = ⟨h.directory, [], [], .refused e⟩) ∨
    (Accepts harness h.directory invocation ∧
      ∃ (progress : Progress) (m : RunManifest),
        m.configFingerprint harness.hashing = invocation.fingerprint harness ∧
        Loop harness invocation.haltAfter 0
          (pending invocation (answeredIds harness.platform h.directory.questions))
          h.directory.questions progress ∧
        Runner.run harness invocation h.directory =
          ⟨⟨some (.ok (m.toDict harness.hashing)), progress.questions⟩, progress.asked,
            progress.recorded, progress.ending⟩) := by
  by_cases accepts : Accepts harness h.directory invocation
  · exact .inr ⟨accepts, run_accepted legible accepts⟩
  · obtain ⟨fingerprint, recorded, differs⟩ : ∃ fingerprint,
        fingerprintOf h.directory = some fingerprint ∧
          fingerprint ≠ invocation.fingerprint harness := by
      simpa [Accepts] using accepts
    exact .inl ⟨accepts, run_refused legible recorded differs⟩

/-- What is asked is pending, and a question of the run. -/
theorem mem_pending_of_asked {progress : Progress} {c : Nat} {done : List String} {files : Files}
    (loop : Loop harness invocation.haltAfter c (pending invocation done) files progress)
    {id : String} (asked : id ∈ progress.asked) :
    id ∉ done ∧ ∃ q ∈ invocation.questions, q.questionId = id := by
  obtain ⟨q, hq, rfl⟩ := List.mem_map.mp (loop.asked_prefix.subset asked)
  obtain ⟨listed, open_⟩ := List.mem_filter.mp hq
  exact ⟨by simpa using open_, q, listed, rfl⟩

theorem mem_asked_of_recorded {progress : Progress} {c : Nat} {questions : List Question}
    {limit : Option Nat} {files : Files} (loop : Loop harness limit c questions files progress)
    {a : QuestionArtifact} (recorded : a ∈ progress.recorded) : a.questionId ∈ progress.asked :=
  loop.recorded_prefix.subset (List.mem_map_of_mem recorded)

/-- A run keeps every file genuine. -/
theorem sound_session (sound : Sound harness ids h)
    (known : ∀ q ∈ invocation.questions, q.questionId ∈ ids) {t : History}
    (step : session harness h invocation = some t) : Sound harness ids t := by
  obtain rfl := Option.some.inj step
  rcases run_cases sound.legible invocation with
    ⟨-, e, refused⟩ | ⟨accepts, progress, m, same, loop, accepted⟩
  · simp only [refused, producedBy, List.map_nil, List.append_nil]
    exact sound
  · rw [accepted]
    refine ⟨.inr ⟨m, rfl⟩, ?_⟩
    intro name content found
    have recordedUnder : fingerprintOf ⟨some (.ok (m.toDict harness.hashing)), progress.questions⟩ =
        some (invocation.fingerprint harness) := by
      rw [fingerprintOf_toDict rfl, same]
    rw [loop.questions_eq] at found
    rcases lookup_foldl_record name progress.recorded h.directory.questions with
      ⟨a, recorded, named, written⟩ | ⟨-, kept⟩
    · obtain ⟨-, q, listed, own⟩ :=
        mem_pending_of_asked loop (mem_asked_of_recorded loop recorded)
      refine ⟨invocation.fingerprint harness, a, ?_, recordedUnder, own ▸ known q listed,
        named.symm, Option.some.inj (found.symm.trans written)⟩
      exact List.mem_append_right _ (List.mem_map_of_mem recorded)
    · rw [kept] at found
      obtain ⟨fingerprint, a, produced, under, inIds, named, written⟩ := sound.genuine _ _ found
      refine ⟨fingerprint, a, List.mem_append_left _ produced, ?_, inIds, named, written⟩
      rw [recordedUnder, accepts _ under]

/-- A file that answers a question, and lies where its record belongs. -/
theorem sound_answered (sound : Sound harness ids h) {name id : String} {content : FileContent}
    (found : h.directory.questions.lookup name = some content)
    (answered : answeredId harness.platform content = some id) :
    id ∈ ids ∧ name = artifactFilename harness.hashing id ∧
      id ∈ answeredIds harness.platform h.directory.questions := by
  obtain ⟨-, a, -, -, inIds, named, rfl⟩ := sound.genuine _ _ found
  have own := answered
  rw [answeredId_payload] at own
  split at own
  · cases own
  · obtain rfl := Option.some.inj own
    refine ⟨inIds, named, List.mem_filterMap.mpr ⟨⟨name, _⟩, ?_, answered⟩⟩
    exact AList.mem_lookup_iff.mp found

/-- A file that answers a question stays, and the question is not asked. -/
theorem answered_stays (sound : Sound harness ids h)
    (injective : Set.InjOn (digest harness.hashing) ids)
    (known : ∀ q ∈ invocation.questions, q.questionId ∈ ids) {name id : String}
    {content : FileContent} (found : h.directory.questions.lookup name = some content)
    (answered : answeredId harness.platform content = some id) :
    id ∉ (Runner.run harness invocation h.directory).asked ∧
      (∀ a ∈ (Runner.run harness invocation h.directory).recorded,
        artifactFilename harness.hashing a.questionId ≠ name) ∧
      (Runner.run harness invocation h.directory).directory.questions.lookup name =
        some content := by
  obtain ⟨inIds, rfl, done⟩ := sound_answered sound found answered
  rcases run_cases sound.legible invocation with
    ⟨-, e, refused⟩ | ⟨-, progress, m, -, loop, accepted⟩
  · rw [refused]
    exact ⟨by simp, by simp, found⟩
  · rw [accepted]
    have notAsked : id ∉ progress.asked := fun asked => (mem_pending_of_asked loop asked).1 done
    have elsewhere : ∀ a ∈ progress.recorded,
        artifactFilename harness.hashing a.questionId ≠ artifactFilename harness.hashing id := by
      intro a recorded same
      have asked := mem_asked_of_recorded loop recorded
      obtain ⟨-, q, listed, own⟩ := mem_pending_of_asked loop asked
      have equal := injective (own ▸ known q listed) inIds (digest_of_artifactFilename same)
      exact notAsked (equal ▸ asked)
    refine ⟨notAsked, elsewhere, ?_⟩
    rw [loop.questions_eq]
    rcases lookup_foldl_record (artifactFilename harness.hashing id) progress.recorded
      h.directory.questions with ⟨a, recorded, named, -⟩ | ⟨-, kept⟩
    · exact absurd named (elsewhere a recorded)
    · exact kept.trans found

/-- Every run of a history asks of the given ids only. -/
theorem along_known {runs : List Invocation}
    (known : ∀ r ∈ runs, ∀ q ∈ r.questions, q.questionId ∈ ids) :
    Runs.Along (session harness) (fun _ r => ∀ q ∈ r.questions, q.questionId ∈ ids) h runs :=
  Runs.along_of_forall known

/-- So it stays over any further runs. -/
theorem answered_stays_along (injective : Set.InjOn (digest harness.hashing) ids)
    {more : List Invocation} (known : ∀ r ∈ more, ∀ q ∈ r.questions, q.questionId ∈ ids)
    {before now : History} (sound : Sound harness ids before)
    (reached : Runs.run (session harness) before more = some now) {name id : String}
    {content : FileContent} (found : before.directory.questions.lookup name = some content)
    (answered : answeredId harness.platform content = some id) :
    Sound harness ids now ∧ now.directory.questions.lookup name = some content := by
  refine Runs.invariant_along
    (fun h => Sound harness ids h ∧ h.directory.questions.lookup name = some content)
    ?_ ⟨sound, found⟩ (along_known known) reached
  rintro h r t ⟨soundHere, foundHere⟩ knownHere step
  refine ⟨sound_session soundHere knownHere step, ?_⟩
  obtain rfl := Option.some.inj step
  exact (answered_stays soundHere injective knownHere foundHere answered).2.2

theorem sound_along {past : List Invocation}
    (known : ∀ r ∈ past, ∀ q ∈ r.questions, q.questionId ∈ ids) {t : History}
    (sound : Sound harness ids h) (reached : Runs.run (session harness) h past = some t) :
    Sound harness ids t :=
  Runs.invariant_along (Sound harness ids) (fun _ _ _ soundHere knownHere step =>
    sound_session soundHere knownHere step) sound (along_known known) reached

/-- The id a file records. -/
def recordedId : FileContent → Option String
  | .ok (.obj members) =>
    match Json.get? members "question_id" with
    | some (.str id) => some id
    | _ => none
  | _ => none

theorem recordedId_payload (str : PyValue → String) (a : QuestionArtifact) :
    recordedId (.ok (a.payload str)) = some a.questionId := rfl

/-- What holds of a run, with its report, that follows a history of runs of
which `before` was an earlier moment and `now` is the last. -/
structure Resumes (harness : Harness) (before now : History) (next : Invocation)
    (report : Report) : Prop where
  /-- An answered question is not asked again; nothing is written to its file. -/
  retired : ∀ name content id, before.directory.questions.lookup name = some content →
    answeredId harness.platform content = some id →
    id ∉ report.asked ∧
      (∀ a ∈ report.recorded, artifactFilename harness.hashing a.questionId ≠ name) ∧
      report.directory.questions.lookup name = some content
  /-- The questions not answered are asked in order, all of them unless the run
  is stopped, and those with an infrastructure failure on record are among them. -/
  retried : Accepts harness now.directory next →
    report.asked <+: (pending next (answeredIds harness.platform
      now.directory.questions)).map Question.questionId ∧
    (report.ending = .completed → report.asked = (pending next (answeredIds harness.platform
      now.directory.questions)).map Question.questionId) ∧
    ∀ q ∈ next.questions, ∀ a : QuestionArtifact,
      now.directory.questions.lookup (artifactFilename harness.hashing q.questionId) =
        some (.ok (a.payload harness.str)) → isInfrastructure a.errorType = true →
      q ∈ pending next (answeredIds harness.platform now.directory.questions)
  once : report.asked.Nodup
  /-- After a window of as many failures in a row as the limit, nothing is asked. -/
  halts : ∀ n, next.haltAfter = some n → ∀ earlier window later,
    report.recorded = earlier ++ window ++ later → window.length = n →
    (∀ a ∈ window, isInfrastructure a.errorType = true) →
    later = [] ∧ report.asked.length = report.recorded.length
  single : ∀ name other content otherContent id,
    report.directory.questions.lookup name = some content →
    report.directory.questions.lookup other = some otherContent →
    recordedId content = some id → recordedId otherContent = some id → name = other
  genuine : ∀ name content, report.directory.questions.lookup name = some content →
    ∃ fingerprint a, (fingerprint, a) ∈ now.produced ++ producedBy harness next report ∧
      fingerprintOf report.directory = some fingerprint ∧
      name = artifactFilename harness.hashing a.questionId ∧
      content = .ok (a.payload harness.str)
  refused : ∀ fingerprint, fingerprintOf now.directory = some fingerprint →
    fingerprint ≠ next.fingerprint harness →
    report.asked = [] ∧ report.recorded = [] ∧ report.directory = now.directory ∧
      ∃ e, report.ending = .refused e

/-- A question whose record is of an infrastructure failure is pending. -/
theorem failed_pending (sound : Sound harness ids h) {q : Question}
    (listed : q ∈ invocation.questions) {a : QuestionArtifact}
    (found : h.directory.questions.lookup (artifactFilename harness.hashing q.questionId) =
      some (.ok (a.payload harness.str)))
    (failed : isInfrastructure a.errorType = true) :
    q ∈ pending invocation (answeredIds harness.platform h.directory.questions) := by
  have open_ : q.questionId ∉ answeredIds harness.platform h.directory.questions := by
    intro done
    obtain ⟨⟨name, content⟩, file, answered⟩ := List.mem_filterMap.mp done
    have stored := AList.mem_lookup_iff.mpr file
    obtain ⟨-, rfl, -⟩ := sound_answered sound stored answered
    obtain rfl := Option.some.inj (stored.symm.trans found)
    rw [answeredId_payload, if_pos failed] at answered
    cases answered
  exact List.mem_filter.mpr ⟨listed, by simpa using open_⟩

/-- A window of failures as long as the limit is the end of a loop. -/
theorem Loop.halts {limit : Option Nat} {c : Nat} {questions : List Question} {files : Files}
    {progress : Progress} (loop : Loop harness limit c questions files progress) {n : Nat}
    (limited : limit = some n) (positive : 1 ≤ n) {earlier window later : List QuestionArtifact}
    (split : progress.recorded = earlier ++ window ++ later) (size : window.length = n)
    (failed : ∀ a ∈ window, isInfrastructure a.errorType = true) :
    later = [] ∧ progress.asked.length = progress.recorded.length := by
  have some : earlier ++ window ≠ [] := by
    rintro none
    rw [(List.append_eq_nil_iff.mp none).2, List.length_nil] at size
    omega
  have reached : n ≤ (earlier ++ window).foldl inARow c := by
    rw [List.foldl_append, length_le_inARow failed, size]
    omega
  have last : ¬(later ≠ [] ∨ progress.recorded.length < progress.asked.length) := fun more =>
    absurd (loop.below_limit limited split some more) (Nat.not_lt.mpr reached)
  have recorded := loop.recorded_prefix.length_le
  rw [List.length_map] at recorded
  rw [not_or, not_not] at last
  exact ⟨last.1, by omega⟩

/-- Over every sequence of runs on a directory that was empty. -/
theorem runs_resume (injective : Set.InjOn (digest harness.hashing) ids)
    {past more : List Invocation} {next : Invocation}
    (known : ∀ r ∈ past ++ more ++ [next], ∀ q ∈ r.questions, q.questionId ∈ ids)
    (distinct : (next.questions.map Question.questionId).Nodup) {before now : History}
    (reached : Runs.run (session harness) fresh past = some before)
    (onward : Runs.run (session harness) before more = some now) :
    Resumes harness before now next (Runner.run harness next now.directory) := by
  have knownPast : ∀ r ∈ past, ∀ q ∈ r.questions, q.questionId ∈ ids := fun r hr =>
    known r (List.mem_append_left _ (List.mem_append_left _ hr))
  have knownMore : ∀ r ∈ more, ∀ q ∈ r.questions, q.questionId ∈ ids := fun r hr =>
    known r (List.mem_append_left _ (List.mem_append_right _ hr))
  have knownNext : ∀ q ∈ next.questions, q.questionId ∈ ids :=
    known next (List.mem_append_right _ List.mem_cons_self)
  have soundBefore : Sound harness ids before := sound_along knownPast sound_fresh reached
  have sound : Sound harness ids now := sound_along knownMore soundBefore onward
  have after := sound_session sound knownNext rfl
  have ways := run_cases sound.legible next
  refine ⟨?_, ?_, ?_, ?_, ?_, ?_, ?_⟩
  · intro name content id found answered
    have kept := (answered_stays_along injective knownMore soundBefore onward found answered).2
    exact answered_stays sound injective knownNext kept answered
  · intro accepts
    rcases ways with ⟨refuses, -⟩ | ⟨-, progress, m, -, loop, accepted⟩
    · exact absurd accepts refuses
    · rw [accepted]
      exact ⟨loop.asked_prefix, loop.asked_all, fun q listed a found failed =>
        failed_pending sound listed found failed⟩
  · rcases ways with ⟨-, e, refused⟩ | ⟨-, progress, m, -, loop, accepted⟩
    · rw [refused]
      exact List.nodup_nil
    · rw [accepted]
      have listed : List.Sublist ((pending next (answeredIds harness.platform
          now.directory.questions)).map Question.questionId)
          (next.questions.map Question.questionId) := List.filter_sublist.map _
      exact (distinct.sublist listed).sublist loop.asked_prefix.sublist
  · intro n limited earlier window later split size failed
    rcases ways with ⟨-, e, refused⟩ | ⟨-, progress, m, -, loop, accepted⟩
    · rw [refused] at split ⊢
      exact ⟨(List.append_eq_nil_iff.mp split.symm).2, rfl⟩
    · rw [accepted] at split ⊢
      exact loop.halts limited (next.halts n limited) split size failed
  · intro name other content otherContent id found otherFound own otherOwn
    obtain ⟨-, a, -, -, -, rfl, rfl⟩ := after.genuine _ _ found
    obtain ⟨-, b, -, -, -, rfl, rfl⟩ := after.genuine _ _ otherFound
    rw [recordedId_payload] at own otherOwn
    rw [Option.some.inj own, Option.some.inj otherOwn]
  · intro name content found
    obtain ⟨fingerprint, a, produced, under, -, named, written⟩ := after.genuine _ _ found
    exact ⟨fingerprint, a, produced, under, named, written⟩
  · intro fingerprint recorded differs
    obtain ⟨e, refused⟩ := run_refused sound.legible recorded differs
    rw [refused]
    exact ⟨rfl, rfl, rfl, e, rfl⟩

private def shopDigest (text : String) : String :=
  if text = "q1" then "c75de8c1b7c3ae5252091267a736a9bf57001d80e82668b3cb3cd09e2f6a43cb"
  else if text = "q2" then "bee98bf120e8906382754c6be52860ac5dbc65a1ca4dbee7576267d8fd3367e1"
  else "febf12d23cebc252f0de527c471c62000f8f303498cc66f086c7e4a8a07ee9e8"

private def shopHarness : Harness where
  platform :=
    { casefold := fun text => String.ofList (text.toList.map Char.toLower)
      closeMatch := fun _ _ => none
      parse := fun _ => .error ""
      sql := fun _ => ""
      str := fun _ => ""
      float := fun _ => none }
  repr _ := "'Ada'"
  str _ := ""
  hashing :=
    { sha256 := shopDigest
      dumps := fun _ => "\x7b\"baseline\": \"\", \"code_digest\": \"\", \"dataset\": \"shop\", " ++
        "\"model\": \"m\", \"prompt_version\": \"p\", \"retriever_model_version\": \"r\", " ++
        "\"seed\": 0, \"split\": \"dev\"\x7d"
      length_sha256 := by
        intro text
        rw [shopDigest]
        split
        · decide
        · split <;> decide }
  extractGoldElements _ := { tables := {"customers"} }

/-- The provider answers as many questions as its budget allows. -/
private def shopDay (budget : Nat) : Invocation where
  store :=
    { root := "results/r"
      manifest :=
        { runId := "r", dataset := "shop", split := "dev", model := "m"
          retrieverModelVersion := "r", promptVersion := "p", commit := "c" } }
  questions := [⟨"q1", "who", "SELECT name FROM customers", "default", "dev", ""⟩,
    ⟨"q2", "who else", "SELECT name FROM customers", "default", "dev", ""⟩]
  haltAfter := some 1
  halts := by decide
  outside n :=
    { answerer := fun q => .ok (
        if n < budget then { sql := some q.goldSql, retrieved := [("customers", none)] }
        else { errorType := some "llm_failed" })
      runQuery := fun _ _ _ => some [[.str "Ada"]]
      elapsed := .finite 1 }
  stopAt := none

/-- A budget of one question, and the rest on the next day. -/
theorem runs_resume_next_day :
    ∃ now, Runs.run (session shopHarness) fresh [shopDay 1] = some now ∧
      Resumes shopHarness now now (shopDay 2) (Runner.run shopHarness (shopDay 2) now.directory) ∧
      (Runner.run shopHarness (shopDay 2) now.directory).asked = ["q2"] := by
  have injective : Set.InjOn (digest shopHarness.hashing) {"q1", "q2"} := by
    rintro one (rfl | rfl) other (rfl | rfl) same
    · rfl
    · exact absurd same (by decide)
    · exact absurd same (by decide)
    · rfl
  have listed : ∀ r ∈ [shopDay 1] ++ [] ++ [shopDay 2], ∀ q ∈ r.questions,
      q.questionId ∈ ({"q1", "q2"} : Set String) := by
    simp [shopDay]
  exact ⟨_, rfl, runs_resume injective listed (by decide) rfl rfl, by decide +kernel⟩

end Resumption
