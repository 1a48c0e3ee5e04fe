import TextToSqlAgent.Benchmark.Accounting
import TextToSqlAgent.Benchmark.LimitTie
import TextToSqlAgent.Evals.ColumnOrder
import TextToSqlAgent.Evals.Runner

/-!
# Checking a conversion

Each gold query is run on the SQLite original and, rendered, on the converted copy, and the
two answers are compared as the evaluation will compare. Answers that differ are sorted: the
query leaves the order of its rows open, its limit cuts a tie, or the conversion is blamed.
-/

namespace Checks

open Python Exceptions Canonical Arrangements Validator LimitTie ColumnOrder Fallible
open Verify hiding comparable
open Compare hiding compare
open Runner (Question Rows)

/-- An error of PostgreSQL: its SQLSTATE, and its text. -/
structure PgError where
  sqlstate : Option String
  text : String

/-- What the engines answer while one question is checked, and what its statement is. -/
structure Answers (Row : Type) where
  /-- `SqliteDatabase.execute`, or the text of its error. -/
  sqlite : String → Except String Rows
  transpile : String → Except String String
  /-- `_run` in a transaction. -/
  postgres : String → Except PgError Rows
  parseSelect : String → Option Select
  /-- The text of the SELECT that a statement is, without its limit and offset. -/
  unlimited : String → String
  source : String → Source Row PyValue
  arrange : ∀ sql terms, (source sql).Arrangement terms

/-- The outcome of one query, with what an operator is shown of it. -/
structure Check extends QueryCheck where
  verdict : Option Verdict := none
  detail : String := ""

/-- SQLSTATEs that mean the conversion did not build what the query needs. -/
def conversionFaults : List String := ["42P01", "42703", "3F000"]

/-- Whether a rejection blames the conversion or the gold query. -/
def classifyPgError (exc : PgError) : Outcome :=
  if exc.sqlstate.any conversionFaults.contains then .postgresError else .dialectError

section Checking

variable (p : Platform) (repr : Canon → String) {Row : Type} (answers : Answers Row)

/-- The same query without its limit and offset. -/
def withoutLimit (goldSql : String) : Option String :=
  (answers.parseSelect goldSql).map fun _ => answers.unlimited goldSql

/-- Whether two answers have the same rows, in whatever order. -/
def sameUnordered (actual expected : Rows) : Except Raised Bool :=
  (Compare.compare p repr actual expected none (some false)).map Comparison.matched

/-- Whether the limit of a gold query cut a tie: it does on SQLite, and without the limit the
engines agree. -/
def limitIsUndetermined (goldSql : String) : Except Raised Bool :=
  if (answers.source goldSql).limitCutIsTied (answers.arrange goldSql)
      (answers.parseSelect goldSql) then
    match withoutLimit answers goldSql with
    | none => .ok false
    | some bare =>
      match answers.sqlite bare with
      | .error _ => .ok false
      | .ok expected =>
        match answers.transpile bare with
        | .error _ => .ok false
        | .ok translated =>
          match answers.postgres translated with
          | .error _ => .ok false
          | .ok actual => sameUnordered p repr actual expected
  else .ok false

/-- Only an enforced order can be the one thing that differs. -/
def orderIsAmbiguous (result : Comparison) (actual expected : Rows) : Except Raised Bool :=
  if result.orderEnforced then sameUnordered p repr actual expected else .ok false

/-- The check of a query that both engines answered. -/
def reached (question : Question) (translated : String) (outcome : Outcome) (result : Comparison)
    (detail : String) : Check where
  questionId := question.questionId
  outcome := outcome
  postgresSql := translated
  verdict := some result.verdict
  detail := detail

/-- What is made of two answers. -/
def judge (question : Question) (translated : String) (actual expected : Rows) :
    Except Raised Check := do
  let result ← Compare.compare p repr actual expected (some question.goldSql)
  if result.matched then return reached question translated .matched result ""
  else
    let ambiguous ← orderIsAmbiguous p repr result actual expected
    if ambiguous then
      return reached question translated .ambiguousOrder result
        "same rows; the gold ORDER BY does not determine their order"
    else
      let undetermined ← limitIsUndetermined p repr answers question.goldSql
      if undetermined then
        return reached question translated .undeterminedLimit result
          "the gold ORDER BY ties across the LIMIT; no single answer is correct"
      else return reached question translated .mismatch result result.detail

/-- `_check_one`. The first line of an error is shown, and there has to be one. -/
def checkOne (question : Question) : Except Raised Check :=
  match answers.sqlite question.goldSql with
  | .error text =>
    .ok { questionId := question.questionId, outcome := .goldError, detail := text }
  | .ok expected =>
    match answers.transpile question.goldSql with
    | .error text =>
      .ok { questionId := question.questionId, outcome := .transpileError, detail := text }
    | .ok translated =>
      match answers.postgres translated with
      | .ok actual => judge p repr answers question translated actual expected
      | .error exc =>
        match splitlines exc.text with
        | [] => .error (.unexpected "list index out of range")
        | first :: _ =>
          .ok { questionId := question.questionId, outcome := classifyPgError exc,
                postgresSql := translated, detail := first }

/-- The checks of a database, or what the first of them raised. -/
def verifyDatabase (dbId schema : String) (asked : List (Question × Answers Row)) :
    Except Raised VerificationReport := do
  let checks ← asked.mapM fun one => checkOne p repr one.2 one.1
  return { dbId := dbId, schema := schema, checks := checks.map Check.toQueryCheck }

end Checking

/-! ## Answers that have the same rows -/

/-- The same rows, but for their order and for how the drivers give equal values. -/
structure SameAnswer (actual expected : Rows) : Prop where
  even : ∃ width, Rectangular width expected
  rows : (actual.map (List.map canonical)).Perm (expected.map (List.map canonical))

variable {p : Platform} {repr : Canon → String} {width : Nat} {actual expected : Rows}
  {goldSql : Option String} {order : Option Bool} {c : Comparison}

/-- The canonical form, where there is one. -/
def settled : Except Raised Canon → Canon
  | .ok canon => canon
  | .error _ => default

theorem forms_eq (rows : Rows) :
    forms rows = (rows.map (List.map canonical)).map (List.map settled) := by
  rw [List.map_map]
  refine List.map_congr_left ?_
  intro row _
  rw [Function.comp_apply, List.map_map]
  rfl

theorem SameAnswer.rectangular (same : SameAnswer actual expected)
    (even : Rectangular width expected) : Rectangular width actual := by
  intro row listed
  obtain ⟨other, there, alike⟩ :=
    List.mem_map.mp (same.rows.subset (List.mem_map_of_mem listed))
  have lengths := congrArg List.length alike
  rw [List.length_map, List.length_map] at lengths
  rw [← lengths]
  exact even other there

/-- The order that is there is tried first. -/
theorem matched_of_perm {pred gold : List (List Canon)} (rectPred : Rectangular width pred)
    (rectGold : Rectangular width gold) (same : pred.Perm gold) :
    (compareColumns repr false width (columns width pred) (columns width gold)).matched = true := by
  have equal : rowsEqual false (columns width pred) (columns width gold) = true := by
    rcases Nat.eq_zero_or_pos width with rfl | wide
    · rfl
    · exact (rowsEqual_columns wide rectPred rectGold).mpr same
  rw [compareColumns]
  by_cases wide : width > maxColumnsForPermutation
  · rw [if_pos wide]
    exact equal
  · have tried : ((candidateOrderings repr false (columns width pred) (columns width gold)).any
        fun candidate => rowsEqual false candidate (columns width gold)) = true :=
      List.any_eq_true.mpr ⟨columns width pred, List.mem_cons_self, equal⟩
    rw [if_neg wide, if_pos tried]

/-- The same rows match, where their order is not enforced. -/
theorem SameAnswer.matched (same : SameAnswer actual expected)
    (compared : Compare.compare p repr actual expected goldSql order = .ok c)
    (free : enforced p goldSql order = false) : c.matched = true := by
  obtain ⟨width, even⟩ := same.even
  have sameLength : actual.length = expected.length := by simpa using same.rows.length_eq
  by_cases none_ : expected = []
  · subst none_
    obtain rfl := List.eq_nil_of_length_eq_zero sameLength
    obtain rfl := Except.ok.inj compared
    rfl
  · have rectangular := same.rectangular even
    obtain ⟨-, -, rfl⟩ := (compare_eq_ok rectangular even sameLength none_ c).mp compared
    have perm : (forms actual).Perm (forms expected) := by
      rw [forms_eq, forms_eq]
      exact same.rows.map _
    rw [free]
    exact matched_of_perm (rectangular_forms rectangular) (rectangular_forms even) perm

theorem orderEnforced_of_ok
    (compared : Compare.compare p repr actual expected goldSql order = .ok c) :
    c.orderEnforced = enforced p goldSql order := by
  have columnwise (pred gold : List (List Canon)) (b : Bool) (width : Nat) :
      (compareColumns repr b width pred gold).orderEnforced = b := by
    rw [compareColumns]
    split
    · rfl
    · split <;> rfl
  unfold Compare.compare at compared
  dsimp only at compared
  split at compared
  · obtain rfl := Except.ok.inj compared
    rfl
  · split at compared
    · obtain rfl := Except.ok.inj compared
      rfl
    · split at compared
      · obtain rfl := Except.ok.inj compared
        rfl
      · obtain ⟨pred, -, compared⟩ := bind_ok_iff.mp compared
        obtain ⟨gold, -, compared⟩ := bind_ok_iff.mp compared
        obtain rfl := Except.ok.inj compared
        exact columnwise _ _ _ _

theorem matched_of_sameUnordered {answer : Bool}
    (asked : sameUnordered p repr actual expected = .ok answer)
    (same : SameAnswer actual expected) : answer = true := by
  rw [sameUnordered] at asked
  cases compared : Compare.compare p repr actual expected none (some false) with
  | error exc =>
    rw [compared] at asked
    cases asked
  | ok c =>
    rw [compared] at asked
    obtain rfl := Except.ok.inj asked
    exact same.matched compared rfl

/-! ## What blames the conversion -/

variable {Row : Type} {answers : Answers Row} {question : Question} {translated : String}
  {check : Check}

/-- The conversion is blamed for rows that are not the same in any order, where no limit
explains it. -/
theorem blamed (done : judge p repr answers question translated actual expected = .ok check)
    (mismatch : check.outcome = .mismatch) : ¬SameAnswer actual expected ∧
      limitIsUndetermined p repr answers question.goldSql = .ok false := by
  obtain ⟨result, compared, done⟩ := bind_ok_iff.mp done
  cases matched : result.matched with
  | true =>
    rw [matched, if_pos rfl] at done
    obtain rfl := Except.ok.inj done
    cases mismatch
  | false =>
    rw [matched, if_neg Bool.false_ne_true] at done
    obtain ⟨ambiguous, asked, done⟩ := bind_ok_iff.mp done
    cases ambiguous with
    | true =>
      obtain rfl := Except.ok.inj done
      cases mismatch
    | false =>
      obtain ⟨undetermined, limited, done⟩ := bind_ok_iff.mp done
      cases undetermined with
      | true =>
        obtain rfl := Except.ok.inj done
        cases mismatch
      | false =>
        refine ⟨?_, limited⟩
        intro same
        rw [orderIsAmbiguous] at asked
        cases ordered : result.orderEnforced with
        | true =>
          rw [ordered, if_pos rfl] at asked
          exact Bool.false_ne_true (matched_of_sameUnordered asked same)
        | false =>
          have free := (orderEnforced_of_ok compared).symm.trans ordered
          exact Bool.false_ne_true (matched.symm.trans (same.matched compared free))

/-! ## A conversion that preserved the data -/

/-- Both engines answer the statement without its limit, and with the same rows. -/
def Unlimited (answers : Answers Row) (sql : String) : Prop :=
  ∃ expected translated actual, answers.sqlite (answers.unlimited sql) = .ok expected ∧
    answers.transpile (answers.unlimited sql) = .ok translated ∧
    answers.postgres translated = .ok actual ∧ SameAnswer actual expected

/-- The answers of two engines over the same data: the same rows, or what a limit keeps of
the same rows, each engine in an order of its own that the statement allows. -/
inductive Faithful (answers : Answers Row) (sql : String) : Rows → Rows → Prop
  | whole {actual expected : Rows} (same : SameAnswer actual expected) :
    Faithful answers sql actual expected
  | cut {select : Select} {columns : Columns} {terms : List (Bound × Bool)} {kept skipped : Nat}
    (parsed : answers.parseSelect sql = some select) (plain : select.distinct = false)
    (reads : (answers.source sql).readOutputs select.outputs = some columns)
    (ordered : (answers.source sql).readOrder columns select.order = some terms)
    (keeps : select.kept = some kept) (skips : select.skipped = some skipped)
    (gold other : (answers.source sql).Arrangement terms) (shown : Row → List PyValue)
    (alike : ∀ row, (shown row).map canonical =
      (columns.map fun column => (answers.source sql).value column.1 row).map canonical)
    (bare : Unlimited answers sql) :
    Faithful answers sql (((other.rows.drop skipped).take kept).map shown)
      (((gold.rows.drop skipped).take kept).map fun row =>
        columns.map fun column => (answers.source sql).value column.1 row)

/-- The sort keys mean in the select list what they mean in ORDER BY, and rows that SQLite
ties on one have equal values there. -/
def KeysShow (source : Source Row PyValue) (columns : Columns) (order : List Ordered) : Prop :=
  ∀ ordered ∈ order, ¬Displaced columns ordered.key ∧
    ∀ term a b, source.readTerm columns ordered.key = some term →
      source.compareOn (term, ordered.descending) a b = .eq →
        source.equal (source.value term a) (source.value term b) = true

/-- What the check of a limit does not see: a tie that the offset cuts, or a sort key that is
not what it seems. -/
def Unseen (answers : Answers Row) (sql : String) : Prop :=
  ∃ select columns terms, answers.parseSelect sql = some select ∧
    (answers.source sql).readOutputs select.outputs = some columns ∧
    (answers.source sql).readOrder columns select.order = some terms ∧
    ((∃ skipped, select.skipped = some skipped ∧
        Sorting.SplitsTie ((answers.source sql).compareRows terms)
          (answers.arrange sql terms).rows skipped) ∨
      ¬KeysShow (answers.source sql) columns select.order)

section Ties

variable {source : Source Row PyValue} {select : Select} {columns : Columns}
  {terms : List (Bound × Bool)} {arrange : ∀ terms, source.Arrangement terms}

/-- Rows that tie look alike, where the keys show. -/
theorem alike_of_ties (ordered : source.readOrder columns select.order = some terms)
    (shows : KeysShow source columns select.order) {a b : Row}
    (tie : source.compareRows terms a b = .eq) : source.Alike select.order a b := by
  intro own listed
  obtain ⟨plain, equal⟩ := shows own listed
  obtain ⟨term, reads, same⟩ := (Source.ties_iff ordered).mpr tie own listed
  exact ⟨term, (Source.readTerm_of_not_displaced plain).symm.trans reads,
    equal term a b reads same⟩

/-- A tie that the end of the limit cuts is found, where the keys show. -/
theorem limitCutIsTied_of_splitsTie (reads : source.readOutputs select.outputs = some columns)
    (ordered : source.readOrder columns select.order = some terms)
    (plain : select.distinct = false) {kept skipped : Nat} (keeps : select.kept = some kept)
    (skips : select.skipped = some skipped) (shows : KeysShow source columns select.order)
    (splits : Sorting.SplitsTie (source.compareRows terms) (arrange terms).rows
      (skipped + kept)) :
    source.limitCutIsTied arrange (some select) = true := by
  obtain ⟨positive, a, b, last, first, tie⟩ := splits
  have alike := alike_of_ties ordered shows tie
  have cut := Select.cutPosition_iff.mpr
    ⟨kept, skipped, keeps, skips, Nat.add_comm _ _, positive⟩
  exact (Source.limitCutIsTied_iff reads ordered).mpr ⟨plain, _, cut,
    (List.getElem?_eq_some_iff.mp first).1, Source.isSome_readKeys alike,
    .inr ⟨a, b, ⟨last, first⟩, alike⟩⟩

/-- What a limit keeps is the same for both engines, where it cuts no tie. -/
theorem sameAnswer_of_clear {gold other : source.Arrangement terms} {kept skipped : Nat}
    {shown : Row → List PyValue}
    (alike : ∀ row, (shown row).map canonical =
      (columns.map fun column => source.value column.1 row).map canonical)
    (start : ¬Sorting.SplitsTie (source.compareRows terms) gold.rows skipped)
    (stop : ¬Sorting.SplitsTie (source.compareRows terms) gold.rows (skipped + kept)) :
    SameAnswer (((other.rows.drop skipped).take kept).map shown)
      (((gold.rows.drop skipped).take kept).map fun row =>
        columns.map fun column => source.value column.1 row) where
  even := by
    refine ⟨columns.length, ?_⟩
    intro row listed
    obtain ⟨_, -, rfl⟩ := List.mem_map.mp listed
    rw [List.length_map]
  rows := by
    have trans := @Source.transCmp_compareRows _ _ source terms
    have window := gold.arranges.window_perm other.arranges start stop
    rw [List.map_map, List.map_map]
    have each : List.map canonical ∘ shown = List.map canonical ∘ fun row =>
        columns.map fun column => source.value column.1 row := funext alike
    rw [each]
    exact window.symm.map _

end Ties

/-- Over the same data the conversion is blamed only where something is not seen. -/
theorem unseen_of_blamed (faithful : Faithful answers question.goldSql actual expected)
    (done : judge p repr answers question translated actual expected = .ok check)
    (mismatch : check.outcome = .mismatch) : Unseen answers question.goldSql := by
  obtain ⟨differ, undetermined⟩ := blamed done mismatch
  cases faithful with
  | whole same => exact absurd same differ
  | @cut select columns terms kept skipped parsed plain reads ordered keeps skips gold other shown
      alike bare =>
    have trans := @Source.transCmp_compareRows _ _ (answers.source question.goldSql) terms
    by_contra seen
    have shows : KeysShow (answers.source question.goldSql) columns select.order := by
      by_contra hidden
      exact seen ⟨select, columns, terms, parsed, reads, ordered, .inr hidden⟩
    have arranged := (answers.arrange question.goldSql terms).arranges
    have start : ¬Sorting.SplitsTie ((answers.source question.goldSql).compareRows terms)
        gold.rows skipped := by
      intro splits
      exact seen ⟨select, columns, terms, parsed, reads, ordered,
        .inl ⟨skipped, skips, (gold.arranges.splitsTie_iff arranged).mp splits⟩⟩
    by_cases stop : Sorting.SplitsTie ((answers.source question.goldSql).compareRows terms)
        gold.rows (skipped + kept)
    · have tied := limitCutIsTied_of_splitsTie reads ordered plain keeps skips shows
        ((gold.arranges.splitsTie_iff arranged).mp stop)
      obtain ⟨expected', translated', actual', one, rendered, two, same⟩ := bare
      rw [limitIsUndetermined, parsed, if_pos tied, withoutLimit, parsed] at undetermined
      simp only [Option.map_some, one, rendered, two] at undetermined
      exact Bool.false_ne_true (matched_of_sameUnordered undetermined same)
    · exact differ (sameAnswer_of_clear alike start stop)

/-! ## The report of a database -/

theorem check_of_ok (done : checkOne p repr answers question = .ok check)
    (mismatch : check.outcome = .mismatch) : ∃ actual expected translated,
      answers.sqlite question.goldSql = .ok expected ∧
      answers.transpile question.goldSql = .ok translated ∧
      answers.postgres translated = .ok actual ∧
      judge p repr answers question translated actual expected = .ok check := by
  rw [checkOne] at done
  split at done
  · obtain rfl := Except.ok.inj done
    cases mismatch
  · rename_i expected one
    split at done
    · obtain rfl := Except.ok.inj done
      cases mismatch
    · rename_i translated rendered
      split at done
      · rename_i actual two
        exact ⟨actual, expected, translated, one, rendered, two, done⟩
      · split at done
        · cases done
        · obtain rfl := Except.ok.inj done
          simp only [classifyPgError] at mismatch
          split at mismatch <;> cases mismatch

/-- Where both engines answer a question, it is over the same data. -/
def Preserved (answers : Answers Row) (sql : String) : Prop :=
  ∀ actual expected translated, answers.sqlite sql = .ok expected →
    answers.transpile sql = .ok translated → answers.postgres translated = .ok actual →
      Faithful answers sql actual expected

theorem unseen_of_check (preserved : Preserved answers question.goldSql)
    (done : checkOne p repr answers question = .ok check)
    (mismatch : check.outcome = .mismatch) : Unseen answers question.goldSql := by
  obtain ⟨actual, expected, translated, first, rendered, second, judged⟩ :=
    check_of_ok done mismatch
  have faithful := preserved actual expected translated first rendered second
  exact unseen_of_blamed faithful judged mismatch

theorem unseen_of_checks {asked : List (Question × Answers Row)} {checks : List Check}
    (preserved : ∀ one ∈ asked, Preserved one.2 one.1.goldSql)
    (mapped : (asked.mapM fun one => checkOne p repr one.2 one.1) = .ok checks) :
    List.Forall₂ (fun one check => check.outcome = .mismatch → Unseen one.2 one.1.goldSql)
      asked (checks.map Check.toQueryCheck) := by
  induction asked generalizing checks with
  | nil =>
    obtain rfl := Except.ok.inj mapped
    exact .nil
  | cons one rest ih =>
    obtain ⟨check, later, found, others, rfl⟩ := mapM_cons_ok_iff.mp mapped
    obtain ⟨own, below⟩ := List.forall_mem_cons.mp preserved
    exact .cons (unseen_of_check own found) (ih below others)

private def numberOf : PyValue → Int
  | .int n => n
  | _ => 0

private def byNumber : PyValue → PyValue → Ordering := compareOn numberOf

private instance : Std.TransCmp byNumber := inferInstanceAs (Std.TransCmp (compareOn numberOf))

/-- Towns and how many teachers come from each. -/
private def hometowns : Source (String × Nat) PyValue where
  rows := [("Ames", 1), ("Boone", 2), ("Cary", 2), ("Dover", 3)]
  lookup _ _ := .column "hometown"
  columns _ := some ["hometown"]
  value
    | .column _, town => .str town.1
    | .operator _, town => .int town.2
    | _, _ => .none
  cmp _ descending a b := if descending then byNumber b a else byNumber a b
  lawful _ descending := by
    cases descending
    · exact inferInstanceAs (Std.TransCmp byNumber)
    · exact inferInstanceAs (Std.TransCmp fun a b => byNumber b a)
  equal a b := numberOf a = numberOf b

private def thirdTown : Select where
  distinct := false
  outputs := [.expr (.name none "hometown" false) none]
  order := [⟨.operator "count(*)", false⟩]
  limit := some (.literal (.integer 1))
  offset := some (.literal (.integer 2))

private def thirdQuestion : Question where
  questionId := "q1"
  question := "Which town has the third fewest teachers?"
  goldSql :=
    "SELECT hometown FROM teacher GROUP BY hometown ORDER BY count(*) LIMIT 1 OFFSET 2"

private def allTowns : Rows := [[.str "Ames"], [.str "Boone"], [.str "Cary"], [.str "Dover"]]

/-- PostgreSQL gives the two towns with two teachers the other way up. -/
private def townAnswers : Answers (String × Nat) where
  sqlite sql := .ok (if sql = "" then allTowns else [[.str "Cary"]])
  transpile sql := .ok sql
  postgres sql := .ok (if sql = "" then allTowns else [[.str "Boone"]])
  parseSelect _ := some thirdTown
  unlimited _ := ""
  source _ := hometowns
  arrange _ := hometowns.sort

private def byTeachers : List (Bound × Bool) := [(.operator "count(*)", false)]

private def sqliteOrder : hometowns.Arrangement byTeachers where
  rows := [("Ames", 1), ("Boone", 2), ("Cary", 2), ("Dover", 3)]
  arranges := ⟨by decide, by decide⟩

private def postgresOrder : hometowns.Arrangement byTeachers where
  rows := [("Ames", 1), ("Cary", 2), ("Boone", 2), ("Dover", 3)]
  arranges := ⟨by decide, by decide⟩

theorem sqlite_third : townAnswers.sqlite thirdQuestion.goldSql = .ok [[.str "Cary"]] :=
  congrArg Except.ok (if_neg (by decide))

theorem postgres_third : townAnswers.postgres thirdQuestion.goldSql = .ok [[.str "Boone"]] :=
  congrArg Except.ok (if_neg (by decide))

theorem preserved_third : Preserved townAnswers thirdQuestion.goldSql := by
  intro actual expected translated one rendered two
  obtain rfl := Except.ok.inj rendered
  obtain rfl := Except.ok.inj (sqlite_third.symm.trans one)
  obtain rfl := Except.ok.inj (postgres_third.symm.trans two)
  have same : SameAnswer allTowns allTowns := ⟨⟨1, by decide⟩, .refl _⟩
  have whole : townAnswers.sqlite "" = .ok allTowns := congrArg Except.ok (if_pos rfl)
  have moved : townAnswers.postgres "" = .ok allTowns := congrArg Except.ok (if_pos rfl)
  exact .cut (rfl : townAnswers.parseSelect thirdQuestion.goldSql = some thirdTown) rfl
    (rfl : hometowns.readOutputs thirdTown.outputs = some [(.column "hometown", none)])
    (rfl : hometowns.readOrder [(.column "hometown", none)] thirdTown.order = some byTeachers)
    (rfl : thirdTown.kept = some 1) (rfl : thirdTown.skipped = some 2) sqliteOrder postgresOrder
    (fun town => [.str town.1]) (fun _ => rfl) ⟨_, _, _, whole, rfl, moved, same⟩

private def unparsing : Platform where
  casefold text := text
  closeMatch _ _ := none
  parse _ := .error ""
  sql _ := ""
  str _ := ""
  float _ := none

private def thirdCompared : Comparison where
  verdict := .noColumnBijection
  matched := false
  detail := "no assignment of predicted columns to gold columns matches"

theorem checkOne_third : checkOne unparsing (fun _ => "") townAnswers thirdQuestion =
    .ok (reached thirdQuestion thirdQuestion.goldSql .mismatch thirdCompared
      thirdCompared.detail) := by
  have compared : Compare.compare unparsing (fun _ => "") [[.str "Boone"]] [[.str "Cary"]]
      (some thirdQuestion.goldSql) = .ok thirdCompared := by decide +kernel
  have untied : (townAnswers.source thirdQuestion.goldSql).limitCutIsTied
      (townAnswers.arrange thirdQuestion.goldSql)
        (townAnswers.parseSelect thirdQuestion.goldSql) = false := by decide +kernel
  have limited : limitIsUndetermined unparsing (fun _ => "") townAnswers thirdQuestion.goldSql =
      .ok false := by
    rw [limitIsUndetermined, untied]
    rfl
  have rendered : townAnswers.transpile thirdQuestion.goldSql = .ok thirdQuestion.goldSql := rfl
  simp only [checkOne, sqlite_third, rendered, postgres_third, judge, compared]
  refine bind_ok_iff.mpr ⟨_, rfl, ?_⟩
  exact bind_ok_iff.mpr ⟨false, rfl, bind_ok_iff.mpr ⟨false, limited, rfl⟩⟩

end Checks
