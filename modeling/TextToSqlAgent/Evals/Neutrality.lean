import Mathlib.Algebra.Order.BigOperators.Group.List
import Mathlib.Tactic.Linarith
import TextToSqlAgent.Evals.Evaluations

/-!
# Questions that were never asked

An infrastructure failure leaves the denominator of the accuracy. The averages
of recall are taken over every record, so there it counts wherever its reference
query names something to retrieve.
-/

namespace Neutrality

open Python Canonical Validator Recall Taxonomy Artifacts Runner Summary Evaluations

variable {harness : Harness}

/-! ## The averages of a list of questions -/

/-- Recall is measured for the question. -/
def Measured (e : Evaluation harness) : Prop :=
  (harness.extractGoldElements e.question.goldSql).isUsable = true

/-- The recall values at one cut-off. -/
def values (evaluations : List (Evaluation harness)) (k : Int) : List Rat :=
  evaluations.filterMap fun e => recallOf e.artifact k

def average (evaluations : List (Evaluation harness)) (k : Int) : Rat :=
  (values evaluations k).sum / (values evaluations k).length

theorem recallAtK_eq (e : Evaluation harness) : e.artifact.recallAtK = e.recalled.atK := by
  obtain ⟨prediction, -, -, -, recalls⟩ := e.holds
  exact recalls

theorem map_fst_recalled (e : Evaluation harness) :
    e.recalled.atK.map Prod.fst =
      if (harness.extractGoldElements e.question.goldSql).isUsable = true then defaultKValues
      else [] :=
  map_fst_atK _

theorem recallOf_isSome_iff (e : Evaluation harness) (k : Int) :
    (recallOf e.artifact k).isSome = true ↔ Measured e ∧ ∃ j ∈ defaultKValues, (j : Int) = k := by
  have keys : (recallOf e.artifact k).isSome = true ↔
      ∃ j ∈ e.recalled.atK.map Prod.fst, (j : Int) = k := by
    rw [recallOf, recallAtK_eq, Option.isSome_map, List.find?_isSome]
    simp
  rw [keys, map_fst_recalled, Measured]
  split_ifs with usable
  · simp [usable]
  · simp [usable]

theorem mem_of_recallOf {e : Evaluation harness} {k : Int} {q : Rat}
    (found : recallOf e.artifact k = some q) : ∃ r ∈ e.recalled.atK, r.2 = q := by
  rw [recallOf, recallAtK_eq] at found
  obtain ⟨r, first, value⟩ := Option.map_eq_some_iff.mp found
  exact ⟨r, List.mem_of_find?_eq_some first, value⟩

theorem recallOf_of_mem {e : Evaluation harness} {r : Nat × Rat} (listed : r ∈ e.recalled.atK) :
    recallOf e.artifact r.1 = some r.2 := by
  have distinct : (e.recalled.atK.map Prod.fst).Nodup := by
    rw [map_fst_recalled]
    split_ifs
    · decide
    · exact List.nodup_nil
  have known : (recallOf e.artifact r.1).isSome = true := by
    rw [recallOf, recallAtK_eq, Option.isSome_map, List.find?_isSome]
    exact ⟨r, listed, by simp⟩
  rw [recallOf, recallAtK_eq, Option.isSome_map] at known
  obtain ⟨other, first⟩ := Option.isSome_iff_exists.mp known
  have sameKey : other.1 = r.1 := by simpa using List.find?_some first
  have same := List.inj_on_of_nodup_map distinct (List.mem_of_find?_eq_some first) listed sameKey
  rw [recallOf, recallAtK_eq, first, same]
  rfl

theorem values_nonneg {evaluations : List (Evaluation harness)} {k : Int} {q : Rat}
    (listed : q ∈ values evaluations k) : 0 ≤ q := by
  obtain ⟨e, -, found⟩ := List.mem_filterMap.mp listed
  obtain ⟨r, measured, rfl⟩ := mem_of_recallOf found
  exact nonneg_of_mem_atK measured

theorem meanRecall_records (evaluations : List (Evaluation harness)) (k : Int) :
    meanRecall (records evaluations) k = .ok (k, .finite (average evaluations k)) := by
  have recorded : recallAt k (records evaluations) =
      (values evaluations k).map fun q => .float (.finite q) := by
    simp only [recallAt, records, values, List.filterMap_map, List.map_filterMap]
    exact List.filterMap_congr fun e _ => lookup_stored e.artifact k
  refine Fallible.bind_ok_iff.mpr ⟨.finite (values evaluations k).sum, ?_, ?_⟩
  · rw [recorded]
    exact sumOf_finite _
  · rw [recorded, List.length_map]
    rfl

theorem recall_eq {evaluations : List (Evaluation harness)} {s : RunSummary}
    (done : summarise (records evaluations) = .ok s) :
    s.recalls =
      (cutoffs (records evaluations)).map fun k => (k, .finite (average evaluations k)) := by
  have means := (aggregates done).recalls
  rw [Fallible.mapM_ok fun k _ => meanRecall_records evaluations k] at means
  exact (Except.ok.inj means).symm

theorem mem_cutoffs_records {evaluations : List (Evaluation harness)} {k : Int} :
    k ∈ cutoffs (records evaluations) ↔
      (∃ e ∈ evaluations, Measured e) ∧ ∃ j ∈ defaultKValues, (j : Int) = k := by
  have known : k ∈ cutoffs (records evaluations) ↔
      ∃ e ∈ evaluations, (recallOf e.artifact k).isSome = true := by
    rw [mem_cutoffs]
    constructor
    · rintro ⟨a, ha, listed⟩
      obtain ⟨e, he, rfl⟩ := List.mem_map.mp ha
      have found := AList.lookup_isSome.mpr listed
      rw [lookup_stored, Option.isSome_map] at found
      exact ⟨e, he, found⟩
    · rintro ⟨e, he, found⟩
      refine ⟨stored e.artifact, List.mem_map_of_mem he, AList.lookup_isSome.mp ?_⟩
      rw [lookup_stored, Option.isSome_map]
      exact found
  rw [known]
  constructor
  · rintro ⟨e, he, found⟩
    obtain ⟨measured, cutoff⟩ := (recallOf_isSome_iff e k).mp found
    exact ⟨⟨e, he, measured⟩, cutoff⟩
  · rintro ⟨⟨e, he, measured⟩, cutoff⟩
    exact ⟨e, he, (recallOf_isSome_iff e k).mpr ⟨measured, cutoff⟩⟩

/-- The cut-offs depend only on whether anything was measured. -/
theorem cutoffs_congr {one other : List (Evaluation harness)}
    (same : (∃ e ∈ one, Measured e) ↔ ∃ e ∈ other, Measured e) :
    cutoffs (records one) = cutoffs (records other) := by
  refine List.Perm.eq_of_pairwise' (List.pairwise_mergeSort' _ _) (List.pairwise_mergeSort' _ _) ?_
  refine (List.mergeSort_perm _ _).trans (List.Perm.trans ?_ (List.mergeSort_perm _ _).symm)
  refine (List.perm_ext_iff_of_nodup (List.nodup_dedup _) (List.nodup_dedup _)).mpr fun k => ?_
  have listed (l : List (Evaluation harness)) :
      k ∈ ((records l).flatMap fun a => a.recallAtK.keys).dedup ↔ k ∈ cutoffs (records l) :=
    List.mem_mergeSort.symm
  rw [listed one, listed other]
  exact mem_cutoffs_records.trans
    ((and_congr_left fun _ => same).trans mem_cutoffs_records.symm)

/-! ## Adding questions that were never asked -/

/-- The answerer reported an infrastructure failure, and retrieved nothing. -/
structure Unasked (e : Evaluation harness) : Prop where
  failed : isInfrastructure e.attempt.errorType = true
  retrieved : e.attempt.retrieved = []

/-- Questions that were never asked, added to others in any order. -/
structure Addition (harness : Harness) where
  base : List (Evaluation harness)
  added : List (Evaluation harness)
  whole : List (Evaluation harness)
  mixed : whole.Perm (base ++ added)
  unasked : ∀ e ∈ added, Unasked e

theorem not_scorable {e : Evaluation harness} (unasked : Unasked e) :
    (stored e.artifact).scorable = false := by
  obtain ⟨prediction, -, category, -, -⟩ := e.holds
  have failed : isInfrastructure (prediction.errorType e.attempt) = true := by
    cases prediction with
    | failed =>
      cases reported : e.attempt.errorType with
      | none =>
        have asked := unasked.failed
        rw [reported] at asked
        cases asked
      | some type =>
        have asked := unasked.failed
        rw [reported] at asked
        have named : type ≠ "" := by
          rintro rfl
          exact absurd asked (by decide)
        rw [Prediction.errorType, reported, orText, if_neg named]
        exact asked
    | notRun => exact unasked.failed
    | compared rows comparison => exact unasked.failed
  have filed : e.artifact.failureCategory = FailureCategory.goldError.value ∨
      e.artifact.failureCategory = FailureCategory.infrastructure.value := by
    rw [category, Evaluation.categoryOf]
    unfold classify
    cases e.gold.isNone with
    | true => exact Or.inl rfl
    | false =>
      rw [failed]
      exact Or.inr rfl
  simp only [StoredArtifact.scorable, unscored, List.any_cons, List.any_nil, isOf_stored]
  rcases filed with filed | filed
  · simp [filed]
  · simp [filed]

namespace Addition

variable (a : Addition harness)

/-- Both summaries report one accuracy, and the same recall at every cut-off. -/
def Neutral : Prop :=
  ∃ s t, summarise (records a.base) = .ok s ∧ summarise (records a.whole) = .ok t ∧
    t.executionAccuracy = s.executionAccuracy ∧ t.recalls = s.recalls

/-- Nothing of what is added is measured, or it joins values that are all zero. -/
def LeavesRecall : Prop :=
  (∀ e ∈ a.added, ¬Measured e) ∨
    (∃ e ∈ a.base, Measured e) ∧ ∀ e ∈ a.base, ∀ r ∈ e.recalled.atK, r.2 = 0

theorem records_perm : (records a.whole).Perm (records a.base ++ records a.added) := by
  rw [records, records, records, ← List.map_append]
  exact a.mixed.map _

/-- The accuracy is of the same questions. -/
theorem accuracy_eq {s t : RunSummary} (base : summarise (records a.base) = .ok s)
    (whole : summarise (records a.whole) = .ok t) :
    t.executionAccuracy = s.executionAccuracy := by
  have scorable : ((records a.whole).filter StoredArtifact.scorable).Perm
      ((records a.base).filter StoredArtifact.scorable) := by
    have none : (records a.added).filter StoredArtifact.scorable = [] := by
      refine List.filter_eq_nil_iff.mpr fun record listed => ?_
      obtain ⟨e, he, rfl⟩ := List.mem_map.mp listed
      simp [not_scorable (a.unasked e he)]
    have split := a.records_perm.filter StoredArtifact.scorable
    rw [List.filter_append, none, List.append_nil] at split
    exact split
  have ofBase := aggregates base
  have ofWhole := aggregates whole
  have scored : t.scored = s.scored := by
    rw [ofWhole.scored, ofBase.scored, scorable.length_eq]
  have matched : t.matched = s.matched := by
    rw [ofWhole.matched, ofBase.matched, scorable.countP_eq]
  rw [RunSummary.executionAccuracy, RunSummary.executionAccuracy, scored, matched]

theorem values_perm (k : Int) :
    (values a.whole k).Perm (values a.base k ++ values a.added k) := by
  rw [values, values, values, ← List.filterMap_append]
  exact a.mixed.filterMap _

theorem values_added {k : Int} {q : Rat} (listed : q ∈ values a.added k) : q = 0 := by
  obtain ⟨e, he, found⟩ := List.mem_filterMap.mp listed
  obtain ⟨r, measured, rfl⟩ := mem_of_recallOf found
  rw [Evaluation.recalled, (a.unasked e he).retrieved] at measured
  exact zero_of_mem_atK measured

/-- What is added adds nothing to a sum, and its number to a length. -/
theorem average_whole (k : Int) :
    average a.whole k =
      (values a.base k).sum / ((values a.base k).length + (values a.added k).length) := by
  have zero : (values a.added k).sum = 0 := List.sum_eq_zero fun q => a.values_added
  rw [average, (a.values_perm k).sum_eq, (a.values_perm k).length_eq, List.sum_append, zero,
    add_zero, List.length_append, Nat.cast_add]

theorem measured_whole :
    (∃ e ∈ a.whole, Measured e) ↔ (∃ e ∈ a.base, Measured e) ∨ ∃ e ∈ a.added, Measured e := by
  constructor
  · rintro ⟨e, he, measured⟩
    rcases List.mem_append.mp (a.mixed.mem_iff.mp he) with base | added
    · exact Or.inl ⟨e, base, measured⟩
    · exact Or.inr ⟨e, added, measured⟩
  · rintro (⟨e, base, measured⟩ | ⟨e, added, measured⟩)
    · exact ⟨e, a.mixed.mem_iff.mpr (List.mem_append_left _ base), measured⟩
    · exact ⟨e, a.mixed.mem_iff.mpr (List.mem_append_right _ added), measured⟩

/-- One recall is reported where the cut-offs are the same, and so are the
averages. -/
theorem neutral_of_averages (measured : (∃ e ∈ a.whole, Measured e) ↔ ∃ e ∈ a.base, Measured e)
    (averages : ∀ k, average a.whole k = average a.base k) : a.Neutral := by
  obtain ⟨s, base⟩ := summarise_stored (a.base.map Evaluation.artifact)
  obtain ⟨t, whole⟩ := summarise_stored (a.whole.map Evaluation.artifact)
  rw [List.map_map] at base whole
  refine ⟨s, t, base, whole, a.accuracy_eq base whole, ?_⟩
  rw [recall_eq base, recall_eq whole, cutoffs_congr measured]
  exact List.map_congr_left fun k _ => by rw [averages k]

theorem neutral_of_unmeasured (unmeasured : ∀ e ∈ a.added, ¬Measured e) : a.Neutral := by
  refine a.neutral_of_averages ?_ fun k => ?_
  · rw [a.measured_whole]
    exact or_iff_left fun ⟨e, he, measured⟩ => unmeasured e he measured
  · have none : values a.added k = [] := by
      refine List.filterMap_eq_nil_iff.mpr fun e he => ?_
      by_contra found
      have known := Option.isSome_iff_ne_none.mpr found
      exact unmeasured e he ((recallOf_isSome_iff e k).mp known).1
    rw [a.average_whole, none, average, List.length_nil, Nat.cast_zero, add_zero]

theorem neutral_of_zero (measured : ∃ e ∈ a.base, Measured e)
    (zero : ∀ e ∈ a.base, ∀ r ∈ e.recalled.atK, r.2 = 0) : a.Neutral := by
  refine a.neutral_of_averages ?_ fun k => ?_
  · rw [a.measured_whole]
    exact or_iff_left_of_imp fun _ => measured
  · have sum : (values a.base k).sum = 0 := by
      refine List.sum_eq_zero fun q listed => ?_
      obtain ⟨e, he, found⟩ := List.mem_filterMap.mp listed
      obtain ⟨r, measured, rfl⟩ := mem_of_recallOf found
      exact zero e he r measured
    rw [a.average_whole, average, sum, zero_div, zero_div]

/-- A measured question that was never asked lowers every average above zero. -/
theorem leavesRecall_of_neutral (neutral : a.Neutral) : a.LeavesRecall := by
  obtain ⟨s, t, base, whole, -, recalls⟩ := neutral
  by_cases added : ∃ e ∈ a.added, Measured e
  · obtain ⟨asked, askedAdded, askedMeasured⟩ := added
    rw [recall_eq base, recall_eq whole] at recalls
    have cutoff : ∀ {k}, k ∈ cutoffs (records a.whole) → k ∈ cutoffs (records a.base) ∧
        average a.whole k = average a.base k := by
      intro k listed
      have entry := List.mem_map_of_mem (f := fun k => (k, PyFloat.finite (average a.whole k)))
        listed
      rw [recalls] at entry
      obtain ⟨j, kept, same⟩ := List.mem_map.mp entry
      simp only [Prod.mk.injEq, PyFloat.finite.injEq] at same
      obtain ⟨rfl, averages⟩ := same
      exact ⟨kept, averages.symm⟩
    have everywhere : ∃ e ∈ a.whole, Measured e :=
      a.measured_whole.mpr (Or.inr ⟨asked, askedAdded, askedMeasured⟩)
    have measuredBase := (mem_cutoffs_records.mp
      (cutoff (mem_cutoffs_records.mpr ⟨everywhere, 1, by decide, rfl⟩)).1).1
    refine Or.inr ⟨measuredBase, fun e he r listed => ?_⟩
    have known : r.1 ∈ defaultKValues := by
      have key := List.mem_map_of_mem (f := Prod.fst) listed
      rw [map_fst_recalled] at key
      split_ifs at key with usable
      · exact key
      · exact absurd key List.not_mem_nil
    have value : r.2 ∈ values a.base r.1 := List.mem_filterMap.mpr ⟨e, he, recallOf_of_mem listed⟩
    have more : 0 < (values a.added r.1).length := by
      obtain ⟨q, found⟩ := Option.isSome_iff_exists.mp
        ((recallOf_isSome_iff asked r.1).mpr ⟨askedMeasured, r.1, known, rfl⟩)
      exact List.length_pos_of_mem (List.mem_filterMap.mpr ⟨asked, askedAdded, found⟩)
    have averages := (cutoff (mem_cutoffs_records.mpr ⟨everywhere, r.1, known, rfl⟩)).2
    have sum : (values a.base r.1).sum = 0 := by
      have length : 0 < (values a.base r.1).length := List.length_pos_of_mem value
      rw [a.average_whole, average] at averages
      have one : (0 : Rat) < (values a.base r.1).length := by exact_mod_cast length
      have two : (0 : Rat) < (values a.added r.1).length := by exact_mod_cast more
      rw [div_eq_div_iff (by positivity) (by positivity)] at averages
      have product : (values a.base r.1).sum * (values a.added r.1).length = 0 := by linarith
      exact (mul_eq_zero.mp product).resolve_right two.ne'
    exact List.all_zero_of_le_zero_le_of_sum_eq_zero (fun _ => values_nonneg) sum value
  · exact Or.inl fun e he measured => added ⟨e, he, measured⟩

/-- For every list of questions, and any that were never asked: the reported
accuracy and recall are the same with them exactly when none of them is
measured, or all that is measured without them is zero. -/
theorem neutral_iff (a : Addition harness) : a.Neutral ↔ a.LeavesRecall := by
  constructor
  · exact a.leavesRecall_of_neutral
  · rintro (unmeasured | ⟨measured, zero⟩)
    · exact a.neutral_of_unmeasured unmeasured
    · exact a.neutral_of_zero measured zero

end Addition

private def outageHarness : Harness := plainHarness { tables := {"customers"} }

private def whoAreThey : Question where
  questionId := "q1"
  question := "who are they?"
  goldSql := "SELECT * FROM customers"

/-- The model was shown the table, and declined. -/
private def declined : Evaluation outageHarness where
  outside :=
    { answerer := fun _ =>
        .ok { errorType := some "unanswerable", retrieved := [("customers", none)] }
      runQuery := fun _ _ _ => some []
      elapsed := .finite 1 }
  question := whoAreThey
  artifact := _
  evaluated := rfl

/-- The index could not be read. -/
private def unindexed : Evaluation outageHarness where
  outside :=
    { answerer := fun _ => .ok { errorType := some "retrieval_failed" }
      runQuery := fun _ _ _ => some []
      elapsed := .finite 1 }
  question := { whoAreThey with questionId := "q2" }
  artifact := _
  evaluated := rfl

/-- An outage halves the reported recall. -/
theorem outage_lowers_recall :
    ∃ a : Addition outageHarness, a.added ≠ [] ∧
      average a.base 20 = 1 ∧ average a.whole 20 = 1 / 2 ∧ ¬a.Neutral := by
  have unasked : ∀ e ∈ [unindexed], Unasked e := by
    intro e he
    obtain rfl := List.mem_singleton.mp he
    exact ⟨by decide, rfl⟩
  let outage : Addition outageHarness :=
    ⟨[declined], [unindexed], [declined, unindexed], List.Perm.refl _, unasked⟩
  have before : average [declined] 20 = 1 := by decide +kernel
  have after : average [declined, unindexed] 20 = 1 / 2 := by decide +kernel
  have measured : Measured unindexed := by
    unfold Measured
    decide
  refine ⟨outage, List.cons_ne_nil _ _, before, after, ?_⟩
  intro neutral
  rcases outage.leavesRecall_of_neutral neutral with unmeasured | ⟨-, zero⟩
  · exact unmeasured unindexed List.mem_cons_self measured
  · exact absurd (zero declined List.mem_cons_self (20, 1) (by decide +kernel)) (by decide)

end Neutrality
