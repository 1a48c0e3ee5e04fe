import TextToSqlAgent.Benchmark.Verify
import TextToSqlAgent.Evals.Gold

/-!
# From verification to evaluation

The file that verification writes is the one that the evaluation loads. Whatever
texts are in a check, its entry is read as it was reported; so what is applied to
a split can be read off the reports.
-/

namespace Verified

open Python JsonText Identifiers Runner Gold Verify

/-! ## One entry -/

/-- The entry that is read of a check. -/
def entryOf (report : VerificationReport) (check : QueryCheck) : GoldEntry where
  questionId := check.questionId
  sql := check.postgresSql
  outcome := check.outcome.value
  scoreable := check.isComparable
  dbId := report.dbId
  schema := report.schema

variable {unicode : Unicode} {other : Json → String} {path : String} {floatText : Rat → String}

/-- An entry begins with a brace, so its line is not skipped. -/
theorem strip_dumps_obj (members : List (String × Json)) :
    strip (dumps floatText (.obj members)) ≠ "" := by
  intro blank
  have space := strip_eq_empty_iff.mp blank '{' (by
    rw [dumps, String.toList_ofList]
    cases members <;> exact List.mem_cons_self)
  exact absurd space (by decide)

theorem entryOfMembers_goldMembers (report : VerificationReport) (check : QueryCheck) :
    entryOfMembers other (report.goldMembers check) = entryOf report check := by
  simp [entryOfMembers, textField, Json.get?, VerificationReport.goldMembers, strOf, Json.truthy,
    entryOf]

theorem readLine_dumps {report : VerificationReport} {check : QueryCheck}
    (stated : check.isComparable = true → strip check.postgresSql ≠ "") (number : Nat) :
    readLine unicode other path number (dumps floatText (.obj (report.goldMembers check))) =
      .ok (entryOf report check) := by
  have complete : (requiredKeys.filter fun key =>
      (Json.get? (report.goldMembers check) key).isNone) = [] := by
    simp [requiredKeys, Json.get?, VerificationReport.goldMembers]
  have sound : ((entryOf report check).scoreable &&
      decide (strip (entryOf report check).sql = "")) = false := by
    cases comparable : check.isComparable with
    | false => simp [entryOf, comparable]
    | true => simp [entryOf, stated comparable]
  rw [readLine, loads_dumps (report.plain_goldMembers check)]
  simp only [readMembers, complete, entryOfMembers_goldMembers, sound]
  rfl

/-! ## The file -/

/-- Every check with its report. -/
def checked (reports : List VerificationReport) : List (VerificationReport × QueryCheck) :=
  reports.flatMap fun report => report.checks.map fun check => (report, check)

theorem checks_eq_map (reports : List VerificationReport) :
    reports.flatMap VerificationReport.checks = (checked reports).map Prod.snd := by
  simp [checked, List.map_flatMap]

theorem goldEntries_eq_map (reports : List VerificationReport) :
    reports.flatMap VerificationReport.goldEntries =
      (checked reports).map fun pair => .obj (pair.1.goldMembers pair.2) := by
  simp only [checked, List.map_flatMap, List.map_map]
  rfl

variable {reports : List VerificationReport}

/-- Each line is read as the entry it was written for. -/
theorem readLines_dumps {pairs : List (VerificationReport × QueryCheck)}
    (stated : ∀ pair ∈ pairs, pair.2.isComparable = true → strip pair.2.postgresSql ≠ "")
    (number : Nat) :
    ((written ((pairs.map fun pair => dumps floatText (.obj (pair.1.goldMembers pair.2))).zipIdx
      number)).mapM fun line => readLine unicode other path line.2 line.1) =
      .ok (pairs.map fun pair => entryOf pair.1 pair.2) := by
  induction pairs generalizing number with
  | nil => rfl
  | cons pair rest ih =>
    have later := ih (fun p listed => stated p (List.mem_cons_of_mem _ listed)) (number + 1)
    rw [List.map_cons, List.zipIdx_cons, written,
      List.filter_cons_of_pos (by simp [strip_dumps_obj]), List.map_cons]
    refine Fallible.mapM_cons_ok_iff.mpr ⟨_, _, ?_, later, rfl⟩
    exact readLine_dumps (stated pair List.mem_cons_self) number

/-- The file is loaded, and its entries are those of the checks. -/
theorem loadVerifiedGold_writeJsonl
    (distinct : ((checked reports).map fun pair => pair.2.questionId).Nodup)
    (stated : ∀ pair ∈ checked reports, pair.2.isComparable = true →
      strip pair.2.postgresSql ≠ "") :
    loadVerifiedGold unicode other path
        (writeJsonl floatText (reports.flatMap VerificationReport.goldEntries)) =
      .ok (.ofList ((checked reports).map fun pair =>
        (pair.2.questionId, entryOf pair.1 pair.2))) := by
  have plain : ∀ row ∈ reports.flatMap VerificationReport.goldEntries, Plain row := by
    intro row listed
    obtain ⟨report, -, own⟩ := List.mem_flatMap.mp listed
    exact report.plain_goldEntries row own
  refine (loadVerifiedGold_ok_iff unicode other path).mpr
    ⟨(checked reports).map fun pair => entryOf pair.1 pair.2, ?_, ?_, ?_⟩
  · rw [splitlines_writeJsonl plain, goldEntries_eq_map, List.map_map]
    exact readLines_dumps stated 1
  · rw [List.map_map]
    exact distinct
  · rw [List.map_map]
    rfl

/-! ## The split -/

/-- The check of a question. -/
def checkOf (reports : List VerificationReport) (questionId : String) : Option QueryCheck :=
  (reports.flatMap VerificationReport.checks).find? fun check => check.questionId = questionId

/-- The question with the statement verified for it, where its check is comparable. -/
def scored? (reports : List VerificationReport) (question : Question) : Option Question :=
  match checkOf reports question.questionId with
  | some check =>
    if check.outcome ∈ comparable then some { question with goldSql := check.postgresSql } else none
  | none => none

/-- The outcome of a question's check, where it is not comparable. -/
def unscored? (reports : List VerificationReport) (question : Question) : Option String :=
  match checkOf reports question.questionId with
  | some check => if check.outcome ∈ comparable then none else some check.outcome.value
  | none => none

/-- A question has an entry exactly when it has a check, and it is the entry of the check. -/
def HoldsEntries (reports : List VerificationReport) (gold : Dictionary String GoldEntry) : Prop :=
  ∀ questionId, ∃ found : Option (VerificationReport × QueryCheck),
    gold.get? questionId = found.map (fun pair => entryOf pair.1 pair.2) ∧
    checkOf reports questionId = found.map Prod.snd

theorem holdsEntries_ofList
    (distinct : ((checked reports).map fun pair => pair.2.questionId).Nodup) :
    HoldsEntries reports (.ofList ((checked reports).map fun pair =>
      (pair.2.questionId, entryOf pair.1 pair.2))) := by
  intro questionId
  refine ⟨(checked reports).find? fun pair => pair.2.questionId = questionId, ?_, ?_⟩
  · rw [Dictionary.get?, Dictionary.entries_ofList, List.find?_map, Option.map_map]
    · rfl
    · rw [List.map_map]
      exact distinct
  · rw [checkOf, checks_eq_map, List.find?_map]
    rfl

section Split

variable {gold : Dictionary String GoldEntry} (holds : HoldsEntries reports gold)

include holds

theorem verified?_eq_scored? : verified? gold = scored? reports := by
  funext question
  obtain ⟨found, entry, check⟩ := holds question.questionId
  rw [verified?, scored?, entry, check]
  cases found with
  | none => rfl
  | some pair => simp [entryOf, QueryCheck.isComparable]

theorem dropped?_eq_unscored? : dropped? gold = unscored? reports := by
  funext question
  obtain ⟨found, entry, check⟩ := holds question.questionId
  rw [dropped?, unscored?, entry, check]
  cases found with
  | none => rfl
  | some pair => simp [entryOf, QueryCheck.isComparable]

theorem isSome_get?_iff (questionId : String) :
    (gold.get? questionId).isSome = true ↔
      ∃ check ∈ reports.flatMap VerificationReport.checks, check.questionId = questionId := by
  obtain ⟨found, entry, check⟩ := holds questionId
  have both : (gold.get? questionId).isSome = (checkOf reports questionId).isSome := by
    rw [entry, check, Option.isSome_map, Option.isSome_map]
  rw [both, checkOf, List.find?_isSome]
  simp only [decide_eq_true_eq]

end Split

/-- What verification reported of a split is what the evaluation applies to it. -/
theorem verified_split_applied (unicode : Unicode) (other : Json → String) (path : String)
    (floatText : Rat → String) (reports : List VerificationReport)
    (distinct : ((reports.flatMap VerificationReport.checks).map QueryCheck.questionId).Nodup)
    (stated : ∀ check ∈ reports.flatMap VerificationReport.checks,
      check.outcome ∈ comparable → strip check.postgresSql ≠ "") :
    (∃ gold, loadVerifiedGold unicode other path
        (writeJsonl floatText (reports.flatMap VerificationReport.goldEntries)) = .ok gold ∧
      ∀ questions : List Question,
        ((∀ question ∈ questions, ∃ check ∈ reports.flatMap VerificationReport.checks,
            check.questionId = question.questionId) →
          ∃ applied, applyVerifiedGold gold questions = .ok applied ∧
            applied.questions = questions.filterMap (scored? reports) ∧
            applied.excluded.Tallies fun outcome =>
              questions.countP fun question => unscored? reports question = some outcome) ∧
        ((∃ question ∈ questions, ∀ check ∈ reports.flatMap VerificationReport.checks,
            check.questionId ≠ question.questionId) →
          ∃ message, applyVerifiedGold gold questions = .error message)) ∧
    ∀ text, RepeatsId other text →
      ∃ refusal, loadVerifiedGold unicode other path text = .error refusal := by
  refine ⟨?_, fun text repeats => loadVerifiedGold_of_repeats unicode path repeats⟩
  rw [checks_eq_map, List.map_map] at distinct
  have statedPairs : ∀ pair ∈ checked reports, pair.2.isComparable = true →
      strip pair.2.postgresSql ≠ "" := by
    intro pair listed comparable
    refine stated pair.2 ?_ (by simpa [QueryCheck.isComparable] using comparable)
    rw [checks_eq_map]
    exact List.mem_map_of_mem listed
  refine ⟨_, loadVerifiedGold_writeJsonl distinct statedPairs, fun questions => ?_⟩
  have holds := holdsEntries_ofList distinct
  constructor
  · intro known
    have every : ∀ question ∈ questions, _ := fun question listed =>
      (isSome_get?_iff holds question.questionId).mpr (known question listed)
    obtain ⟨applied, done⟩ := (applyVerifiedGold_isOk_iff _).mpr every
    have result := appliedTo_of_ok _ done
    refine ⟨applied, done, ?_, ?_⟩
    · rw [result.kept, verified?_eq_scored? holds]
    · have counted := result.excluded
      rwa [dropped?_eq_unscored? holds] at counted
  · rintro ⟨question, listed, unknown⟩
    cases done : applyVerifiedGold _ questions with
    | error message => exact ⟨message, rfl⟩
    | ok applied =>
      have every := (applyVerifiedGold_isOk_iff _).mp ⟨applied, done⟩ question listed
      obtain ⟨check, known, same⟩ := (isSome_get?_iff holds question.questionId).mp every
      exact absurd same (unknown check known)

/-- A line break and a line separator in a statement stay in its line of the file. -/
theorem verified_split_applied_at :
    let reports : List VerificationReport :=
      [⟨"db", "spider_db", [⟨"a", .matched, "SELECT '\"\u2028\n'"⟩, ⟨"b", .goldError, ""⟩]⟩,
        ⟨"pets", "spider_pets", [⟨"c", .undeterminedLimit, "SELECT 2"⟩]⟩]
    let question (id : String) : Question := ⟨id, "how many?", "SELECT 1", "spider", "dev", "db"⟩
    (∃ gold, loadVerifiedGold plainUnicode (fun _ => "") "gold.jsonl"
        (writeJsonl (fun _ => "") (reports.flatMap VerificationReport.goldEntries)) = .ok gold ∧
      (∃ applied, applyVerifiedGold gold [question "c", question "a", question "b"] = .ok applied ∧
        applied.questions = [{ question "a" with goldSql := "SELECT '\"\u2028\n'" }] ∧
        applied.excluded.get? "gold_error" = some 1) ∧
      ∃ message, applyVerifiedGold gold [question "a", question "d"] = .error message) ∧
    ∃ refusal, loadVerifiedGold plainUnicode (fun _ => "") "gold.jsonl"
      "\x7b\"question_id\": \"a\"\x7d\n\n\x7b\"question_id\": \"a\"\x7d" = .error refusal := by
  intro reports question
  obtain ⟨⟨gold, loaded, split⟩, refused⟩ := verified_split_applied plainUnicode (fun _ => "")
    "gold.jsonl" (fun _ => "") reports (by decide) (by decide)
  refine ⟨⟨gold, loaded, ?_, ?_⟩, ?_⟩
  · obtain ⟨applied, done, kept, excluded⟩ :=
      (split [question "c", question "a", question "b"]).1 (by decide)
    refine ⟨applied, done, kept.trans (by decide), ?_⟩
    rw [excluded]
    decide
  · exact (split [question "a", question "d"]).2 (by decide)
  · refine refused _ ⟨("\x7b\"question_id\": \"a\"\x7d", 1), ?_,
      ("\x7b\"question_id\": \"a\"\x7d", 3), ?_, by decide, "a", ?_, ?_⟩ <;> decide +kernel

end Verified
