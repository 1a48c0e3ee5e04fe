import TextToSqlAgent.Core.FloatText
import TextToSqlAgent.Core.Sha256
import TextToSqlAgent.Evals.Recovery

/-!
# Records written and read

A record's file name is made of a part of its id and of eight digits of the id's
hash. Where the names of a run's records are apart, each record is read as it
was written, in the order of the names, and a summary does not depend on that
order. Where two names are one, the later record replaces the earlier.
-/

namespace RoundTrip

open Python Exceptions Canonical Taxonomy Artifacts Summary Evaluations Fallible Recovery

/-! ## Cut-offs as keys -/

theorem decimalDigit_of_isDigit {c : Char} (digit : c.isDigit = true) :
    decimalDigit c = some (c.toNat - '0'.toNat) := by
  simp only [Char.isDigit, Bool.and_eq_true, decide_eq_true_eq] at digit
  have low : 48 ≤ c.toNat := digit.1
  have high : c.toNat ≤ 57 := digit.2
  have first : decimalZeros.find? (fun first => first ≤ c.toNat && c.toNat < first + 10) =
      some 0x30 := by
    refine List.find?_cons_of_pos ?_
    simp only [Bool.and_eq_true, decide_eq_true_eq]
    omega
  rw [decimalDigit, first]
  rfl

theorem readDigits_of_isDigit {digits : List Char} (all : ∀ c ∈ digits, c.isDigit = true)
    (value : Nat) :
    readDigits value true digits = some (Nat.ofDigitChars 10 digits value) := by
  induction digits generalizing value with
  | nil => rfl
  | cons c rest hyp =>
    have digit := all c List.mem_cons_self
    have plain : c ≠ '_' := by
      rintro rfl
      cases digit
    rw [readDigits, if_neg plain, decimalDigit_of_isDigit digit, Nat.ofDigitChars_cons]
    exact hyp (fun d listed => all d (List.mem_cons_of_mem c listed)) _

/-- A number of no more digits than Python converts. -/
def Convertible (k : Nat) : Prop := (Nat.toDigits 10 k).length ≤ 4300

instance : DecidablePred Convertible := fun k =>
  inferInstanceAs (Decidable ((Nat.toDigits 10 k).length ≤ 4300))

/-- A number is read as it was written unless it has too many digits. -/
theorem int_toString (k : Nat) :
    int (toString k) = if Convertible k then some (k : Int) else none := by
  have digits : (toString k).toList = Nat.toDigits 10 k := Nat.toList_repr
  have all : ∀ c ∈ Nat.toDigits 10 k, c.isDigit = true := fun c listed =>
    Nat.isDigit_of_mem_toDigits (by omega) (by omega) listed
  have value := Nat.ofDigitChars_ten_toDigits (n := k)
  have count : (Nat.toDigits 10 k).countP (fun c => c ≠ '_') = (Nat.toDigits 10 k).length := by
    refine List.countP_eq_length.mpr fun c listed => ?_
    have digit := all c listed
    simp only [ne_eq, decide_not, Bool.not_eq_true', decide_eq_false_iff_not]
    rintro rfl
    cases digit
  have visible : ∀ c ∈ Nat.toDigits 10 k, (c = ' ' || (9 ≤ c.toNat && c.toNat ≤ 13) ||
      (127 < c.toNat && isSpace c)) = false := by
    intro c listed
    have digit := all c listed
    simp only [Char.isDigit, Bool.and_eq_true, decide_eq_true_eq] at digit
    have low : 48 ≤ c.toNat := digit.1
    have high : c.toNat ≤ 57 := digit.2
    have noSpace : c ≠ ' ' := by
      rintro rfl
      exact absurd low (by decide)
    simp only [noSpace, decide_false, Bool.false_or, Bool.or_eq_false_iff, Bool.and_eq_false_iff,
      decide_eq_false_iff_not]
    omega
  change int (toString k) = if (Nat.toDigits 10 k).length ≤ 4300 then some (k : Int) else none
  rw [int, digits]
  cases shape : Nat.toDigits 10 k with
  | nil => exact absurd shape Nat.toDigits_ne_nil
  | cons c rest =>
    rw [shape] at all count value visible
    have untouched : ((c :: rest).dropWhile fun c => c = ' ' || (9 ≤ c.toNat && c.toNat ≤ 13) ||
        (127 < c.toNat && isSpace c)) = c :: rest := by
      rw [List.dropWhile_cons_of_neg]
      rw [visible c List.mem_cons_self]
      decide
    have whole : ((c :: rest).rdropWhile fun c => c = ' ' || (9 ≤ c.toNat && c.toNat ≤ 13) ||
        (127 < c.toNat && isSpace c)) = c :: rest := by
      refine List.rdropWhile_eq_self_iff.mpr fun nonempty => ?_
      rw [visible _ (List.getLast_mem nonempty)]
      decide
    have first := all c List.mem_cons_self
    have unsigned : c ≠ '-' ∧ c ≠ '+' ∧ c ≠ '_' := by
      refine ⟨?_, ?_, ?_⟩ <;> (rintro rfl; cases first)
    simp only [untouched, whole]
    split
    case h_1 => exact absurd (List.cons.inj ‹_›).1 unsigned.1
    case h_2 => exact absurd (List.cons.inj ‹_›).1 unsigned.2.1
    case h_3 =>
      rw [count]
      by_cases short : (c :: rest).length ≤ 4300
      · rw [if_neg (by omega), if_pos short, readDigits, if_neg unsigned.2.2,
          decimalDigit_of_isDigit first]
        simp only [readDigits_of_isDigit fun d listed => all d (List.mem_cons_of_mem c listed)]
        rw [Nat.ofDigitChars_cons, Nat.mul_zero, Nat.zero_add] at value
        simpa using value
      · rw [if_pos (by omega), if_neg short]
        rfl

/-- The member that a cut-off is written as. -/
def keyed (entry : Nat × Rat) : String × Json := (toString entry.1, .float (.finite entry.2))

theorem intKeys_isOk_iff {recalls : List (Nat × Rat)} (d : AList fun _ : Int => Json) :
    (∃ read, intKeys d (recalls.map keyed) = .ok read) ↔ ∀ r ∈ recalls, Convertible r.1 := by
  induction recalls generalizing d with
  | nil => simp [intKeys]
  | cons r rest hyp =>
    rw [List.forall_mem_cons, List.map_cons, keyed, intKeys, int_toString]
    by_cases short : Convertible r.1
    · rw [if_pos short]
      simpa only [short, true_and] using hyp _
    · rw [if_neg short]
      simp [short]

/-- Distinct cut-offs keep their values. -/
theorem lookup_intKeys {recalls : List (Nat × Rat)} {d read : AList fun _ : Int => Json}
    (distinct : (recalls.map Prod.fst).Nodup)
    (done : intKeys d (recalls.map keyed) = .ok read) (k : Int) :
    read.lookup k = ((recalls.find? fun r => (r.1 : Int) = k).map fun r =>
      Json.float (.finite r.2)).or (d.lookup k) := by
  induction recalls generalizing d with
  | nil =>
    obtain rfl := Except.ok.inj done
    simp
  | cons r rest hyp =>
    rw [List.map_cons, List.nodup_cons] at distinct
    rw [List.map_cons, keyed, intKeys, int_toString] at done
    by_cases short : Convertible r.1
    · rw [if_pos short] at done
      rw [hyp distinct.2 done]
      by_cases own : (r.1 : Int) = k
      · subst own
        have fresh : rest.find? (fun s => (s.1 : Int) = (r.1 : Int)) = none := by
          refine List.find?_eq_none.mpr fun s listed same => distinct.1 ?_
          have equal : s.1 = r.1 := by simpa using same
          exact equal ▸ List.mem_map_of_mem listed
        rw [fresh, AList.lookup_insert, List.find?_cons_of_pos (by simp)]
        rfl
      · rw [AList.lookup_insert_ne (fun same => own same.symm),
          List.find?_cons_of_neg (by simpa using own)]
    · rw [if_neg short] at done
      cases done

/-! ## Records that are alike -/

/-- Two records with the same fields, whatever order their cut-offs are in. -/
structure Same (a b : StoredArtifact) : Prop where
  matched : a.matched = b.matched
  failureCategory : a.failureCategory = b.failureCategory
  recallAt : ∀ k, a.recallAtK.lookup k = b.recallAtK.lookup k
  unresolvedReferences : a.unresolvedReferences = b.unresolvedReferences
  durationMs : a.durationMs = b.durationMs
  inputTokens : a.inputTokens = b.inputTokens
  outputTokens : a.outputTokens = b.outputTokens
  answeringModel : a.answeringModel = b.answeringModel

variable {str : PyValue → String} {hashing : Hashing} {artifact : QuestionArtifact}

theorem recallItems_keyed (recalls : List (Nat × Rat)) :
    recallItems (some (.obj (recalls.map keyed))) = intKeys ∅ (recalls.map keyed) := by
  cases recalls <;> rfl

/-- A record is read back unless one of its cut-offs has too many digits. -/
theorem load_payload_isOk_iff :
    (∃ a, load (.ok (artifact.payload str)) = .ok a) ↔
      ∀ r ∈ artifact.recallAtK, Convertible r.1 := by
  rw [← intKeys_isOk_iff ∅, ← recallItems_keyed]
  constructor
  · rintro ⟨a, loaded⟩
    obtain ⟨read, items, -⟩ := bind_ok_iff.mp loaded
    exact ⟨read, items⟩
  · rintro ⟨read, items⟩
    exact ⟨_, bind_ok_iff.mpr ⟨read, items, rfl⟩⟩

/-- What is read back is the record in memory: clipping the rows and writing what
JSON has no form for changes nothing that is read. -/
theorem same_of_load {a : StoredArtifact} (distinct : (artifact.recallAtK.map Prod.fst).Nodup)
    (loaded : load (.ok (artifact.payload str)) = .ok a) : Same a (stored artifact) := by
  obtain ⟨read, items, built⟩ := bind_ok_iff.mp loaded
  obtain rfl := Except.ok.inj built
  refine ⟨rfl, rfl, fun k => ?_, rfl, rfl, rfl, rfl, rfl⟩
  have kept := lookup_intKeys distinct ((recallItems_keyed _).symm.trans items) k
  rw [lookup_stored, recallOf, kept, AList.lookup_empty, Option.or_none, Option.map_map]
  rfl

/-- The same records, up to their order. -/
def Alike (l m : List StoredArtifact) : Prop := ∃ n, List.Forall₂ Same l n ∧ n.Perm m

section Alike

variable {l m : List StoredArtifact}

theorem map_eq_of_same {β : Type*} {f : StoredArtifact → β}
    (respects : ∀ a b, Same a b → f a = f b) (same : List.Forall₂ Same l m) :
    l.map f = m.map f := by
  induction same with
  | nil => rfl
  | cons first _ hyp => rw [List.map_cons, List.map_cons, respects _ _ first, hyp]

theorem exists_same (same : List.Forall₂ Same l m) {a : StoredArtifact} (listed : a ∈ l) :
    ∃ b ∈ m, Same a b := by
  induction same with
  | nil => cases listed
  | @cons c b _ _ first _ hyp =>
    rcases List.mem_cons.mp listed with rfl | later
    · exact ⟨b, List.mem_cons_self, first⟩
    · obtain ⟨d, own, alike⟩ := hyp later
      exact ⟨d, List.mem_cons_of_mem b own, alike⟩

theorem Alike.map {β : Type*} (alike : Alike l m) {f : StoredArtifact → β}
    (respects : ∀ a b, Same a b → f a = f b) : (l.map f).Perm (m.map f) := by
  obtain ⟨n, same, perm⟩ := alike
  rw [map_eq_of_same respects same]
  exact perm.map f

theorem Alike.length_eq (alike : Alike l m) : l.length = m.length := by
  obtain ⟨n, same, perm⟩ := alike
  exact same.length_eq.trans perm.length_eq

theorem Alike.countP_eq (alike : Alike l m) {p : StoredArtifact → Bool}
    (respects : ∀ a b, Same a b → p a = p b) : l.countP p = m.countP p := by
  have counted := (alike.map respects).countP_eq id
  simpa [List.countP_map] using counted

theorem Alike.summable (alike : Alike l m) (all : ∀ a ∈ m, Summable a) : ∀ a ∈ l, Summable a := by
  obtain ⟨n, same, perm⟩ := alike
  intro a listed
  obtain ⟨b, own, alike⟩ := exists_same same listed
  have summable := all b (perm.mem_iff.mp own)
  exact {
    category := alike.failureCategory ▸ summable.category
    model := alike.answeringModel ▸ summable.model
    unresolved := alike.unresolvedReferences ▸ summable.unresolved
    recalls := fun k => alike.recallAt k ▸ summable.recalls k
    input := alike.inputTokens ▸ summable.input
    output := alike.outputTokens ▸ summable.output
    duration := alike.durationMs ▸ summable.duration }

theorem Alike.cutoffs_eq (alike : Alike l m) : cutoffs l = cutoffs m := by
  have sorted : ∀ n : List StoredArtifact, (cutoffs n).Pairwise (· ≤ ·) := by
    intro n
    have ordered := @List.pairwise_mergeSort Int (fun j k => decide (j ≤ k))
      (fun a b c => by simpa using Int.le_trans) (fun a b => by simpa using Int.le_total a b)
      ((n.flatMap fun a => a.recallAtK.keys).dedup)
    simpa [cutoffs] using ordered
  have nodup : ∀ n : List StoredArtifact, (cutoffs n).Nodup := fun n =>
    (List.mergeSort_perm _ _).nodup_iff.mpr (List.nodup_dedup _)
  have members : ∀ k, k ∈ cutoffs l ↔ k ∈ cutoffs m := by
    intro k
    have known : ∀ n, k ∈ cutoffs n ↔ true ∈ n.map fun a => (a.recallAtK.lookup k).isSome := by
      intro n
      simp [mem_cutoffs, AList.lookup_isSome]
    rw [known, known]
    exact (alike.map fun a b same => by rw [same.recallAt k]).mem_iff
  exact ((List.perm_ext_iff_of_nodup (nodup l) (nodup m)).mpr members).eq_of_pairwise
    (fun a b _ _ => Int.le_antisymm) (sorted l) (sorted m)

theorem Alike.recallAt (alike : Alike l m) (k : Int) : (recallAt k l).Perm (recallAt k m) := by
  have looked := (alike.map fun a b same => same.recallAt k).filterMap id
  simpa [Summary.recallAt, List.filterMap_map] using looked

end Alike

/-! ## Sums in any order -/

theorem float_add_right_comm (x y z : PyFloat) : (x.add y).add z = (x.add z).add y := by
  rcases x with q | negative | _ <;> rcases y with r | other | _ <;>
    rcases z with t | third | _ <;> try rfl
  case finite.finite.finite => rw [PyFloat.add, PyFloat.add, PyFloat.add, PyFloat.add, add_right_comm]
  case finite.inf.inf => cases other <;> cases third <;> rfl
  case inf.finite.inf => cases negative <;> cases third <;> rfl
  case inf.inf.finite => cases negative <;> cases other <;> rfl
  case inf.inf.inf => cases negative <;> cases other <;> cases third <;> rfl
  case inf.inf.nan => cases negative <;> cases other <;> rfl
  case inf.nan.inf => cases negative <;> cases third <;> rfl

instance : RightCommutative PyFloat.add := ⟨float_add_right_comm⟩

/-- The sum of what is a number. -/
def totalOf (values : List Json) : PyFloat :=
  (values.filterMap Json.number).foldl PyFloat.add (.finite 0)

theorem sumOf_eq {values : List Json} (numbers : ∀ v ∈ values, v.number.isSome = true) :
    sumOf values = .ok (totalOf values) := by
  obtain ⟨x, summed⟩ := sumOf_isOk_iff.mpr numbers
  obtain ⟨found, mapped, added⟩ := bind_ok_iff.mp summed
  have same : values.filterMap Json.number = found := by
    rw [← filterMap_of_mapM mapped]
    refine List.filterMap_congr fun v listed => ?_
    obtain ⟨number, some_⟩ := Option.isSome_iff_exists.mp (numbers v listed)
    rw [some_]
    rfl
  rw [summed, ← added, totalOf, same]
  rfl

theorem totalOf_perm {values others : List Json} (perm : values.Perm others) :
    totalOf values = totalOf others :=
  (perm.filterMap Json.number).foldl_eq _

/-- What the summary of records is that can be added up. -/
def aggregate (stored : List StoredArtifact) : RunSummary where
  total := stored.length
  scored := (stored.filter StoredArtifact.scorable).length
  matched := (stored.filter StoredArtifact.scorable).countP fun a => a.matched.truthy
  goldErrors := stored.countP fun a => a.isOf .goldError
  infrastructureErrors := stored.countP fun a => a.isOf .infrastructure
  answeredBy := answeredBy (stored.map StoredArtifact.answeringModel)
  failures := counts (stored.map fun a => parseCategory a.failureCategory)
  recallScored := stored.countP fun a => !a.recallAtK.entries.isEmpty
  unresolvedReferences := totalOf (stored.map StoredArtifact.unresolvedReferences)
  recalls := (cutoffs stored).map fun k =>
    (k, (totalOf (recallAt k stored)).divBy (recallAt k stored).length)
  inputTokens := totalOf (stored.map StoredArtifact.inputTokens)
  outputTokens := totalOf (stored.map StoredArtifact.outputTokens)
  durationMs := totalOf (stored.map StoredArtifact.durationMs)

theorem summarise_eq {stored : List StoredArtifact} (summable : ∀ a ∈ stored, Summable a) :
    summarise stored = .ok (aggregate stored) := by
  obtain ⟨s, done⟩ := summarise_isOk_iff.mpr summable
  rw [done]
  obtain ⟨⟨⟩, -, done⟩ := bind_ok_iff.mp done
  obtain ⟨⟨⟩, -, done⟩ := bind_ok_iff.mp done
  obtain ⟨unresolved, unresolvedSum, done⟩ := bind_ok_iff.mp done
  obtain ⟨recalls, means, done⟩ := bind_ok_iff.mp done
  obtain ⟨input, inputSum, done⟩ := bind_ok_iff.mp done
  obtain ⟨output, outputSum, done⟩ := bind_ok_iff.mp done
  obtain ⟨duration, durationSum, done⟩ := bind_ok_iff.mp done
  obtain rfl := Except.ok.inj done
  have sums : ∀ field : StoredArtifact → Json, (∀ a ∈ stored, (field a).number.isSome = true) →
      sumOf (stored.map field) = .ok (totalOf (stored.map field)) :=
    fun field numbers => sumOf_eq (by simpa using numbers)
  have averaged : (cutoffs stored).mapM (meanRecall stored) = .ok ((cutoffs stored).map fun k =>
      (k, (totalOf (recallAt k stored)).divBy (recallAt k stored).length)) := by
    refine mapM_ok fun k _ => ?_
    have own : sumOf (recallAt k stored) = .ok (totalOf (recallAt k stored)) := by
      refine sumOf_eq fun v listed => ?_
      obtain ⟨a, recorded, found⟩ := List.mem_filterMap.mp listed
      exact (summable a recorded).recalls k v found
    rw [meanRecall, own]
    rfl
  have one := (sums _ fun a ha => (summable a ha).unresolved).symm.trans unresolvedSum
  have two := averaged.symm.trans means
  have three := (sums _ fun a ha => (summable a ha).input).symm.trans inputSum
  have four := (sums _ fun a ha => (summable a ha).output).symm.trans outputSum
  have five := (sums _ fun a ha => (summable a ha).duration).symm.trans durationSum
  rw [Except.ok.injEq] at one two three four five
  rw [← one, ← two, ← three, ← four, ← five]
  rfl

/-- Two summaries that compare as equal: the questions of each model are counted
in a dictionary, whose order counts for nothing. -/
def SameSummary (s t : RunSummary) : Prop :=
  s.answeredBy.Perm t.answeredBy ∧ { s with answeredBy := [] } = { t with answeredBy := [] }

/-- A summary depends neither on the order of the records nor on that of their
cut-offs. -/
theorem sameSummary_of_alike {l m : List StoredArtifact} (alike : Alike l m) :
    SameSummary (aggregate l) (aggregate m) := by
  constructor
  · have models := alike.map fun a b same => same.answeringModel
    exact Counting.items_perm ((models.filter Json.truthy).map keyOf)
  · have isOf : ∀ a b c, Same a b → StoredArtifact.isOf a c = StoredArtifact.isOf b c := by
      intro a b c same
      simp only [StoredArtifact.isOf, same.failureCategory]
    have scorable : ∀ a b, Same a b → StoredArtifact.scorable a = StoredArtifact.scorable b := by
      intro a b same
      simp only [StoredArtifact.scorable, unscored, List.any_cons, isOf a b _ same]
      rfl
    have categories := alike.map (f := fun a => parseCategory a.failureCategory)
      fun a b same => by simp only [same.failureCategory]
    have recorded : ∀ a b, Same a b →
        (!a.recallAtK.entries.isEmpty) = !b.recallAtK.entries.isEmpty := by
      intro a b same
      have entries : a.recallAtK.entries.Perm b.recallAtK.entries :=
        List.lookup_ext a.recallAtK.nodupKeys b.recallAtK.nodupKeys fun k v => by
          rw [← AList.lookup, ← AList.lookup, same.recallAt k]
      rw [entries.isEmpty_eq]
    have filtered : ∀ n : List StoredArtifact, ∀ p : StoredArtifact → Bool,
        (n.filter StoredArtifact.scorable).countP p = n.countP fun a => p a && a.scorable :=
      fun n p => List.countP_filter
    have failures : counts (l.map fun a => parseCategory a.failureCategory) =
        counts (m.map fun a => parseCategory a.failureCategory) := by
      rw [counts_eq, counts_eq]
      exact List.map_congr_left fun c _ => by rw [categories.count_eq]
    have means : ∀ k, (totalOf (recallAt k l)).divBy (recallAt k l).length =
        (totalOf (recallAt k m)).divBy (recallAt k m).length := fun k => by
      rw [totalOf_perm (alike.recallAt k), (alike.recallAt k).length_eq]
    simp only [aggregate, RunSummary.mk.injEq, true_and]
    refine ⟨alike.length_eq, ?_, ?_, ?_, ?_, failures, alike.countP_eq recorded, ?_, ?_, ?_, ?_, ?_⟩
    · rw [← List.countP_eq_length_filter, ← List.countP_eq_length_filter]
      exact alike.countP_eq scorable
    · rw [filtered, filtered]
      exact alike.countP_eq fun a b same => by rw [scorable a b same, same.matched]
    · exact alike.countP_eq fun a b same => isOf a b _ same
    · exact alike.countP_eq fun a b same => isOf a b _ same
    · exact totalOf_perm (alike.map fun a b same => same.unresolvedReferences)
    · rw [alike.cutoffs_eq]
      exact List.map_congr_left fun k _ => by rw [means k]
    · exact totalOf_perm (alike.map fun a b same => same.inputTokens)
    · exact totalOf_perm (alike.map fun a b same => same.outputTokens)
    · exact totalOf_perm (alike.map fun a b same => same.durationMs)

/-! ## The files of a run -/

section files

variable (hashing : Hashing) (str : PyValue → String)

/-- The files of a fresh run in which these questions are recorded. -/
def recordAll (artifacts : List QuestionArtifact) : AList fun _ : String => FileContent :=
  artifacts.foldl (record hashing str) ∅

/-- The name of a record's file. -/
def nameOf (artifact : QuestionArtifact) : String := artifactFilename hashing artifact.questionId

/-- The file that a record is written to. -/
def fileOf (artifact : QuestionArtifact) : Sigma fun _ : String => FileContent :=
  ⟨nameOf hashing artifact, .ok (artifact.payload str)⟩

variable {hashing str}

theorem record_eq (files : AList fun _ : String => FileContent) (artifact : QuestionArtifact) :
    record hashing str files artifact =
      files.insert (nameOf hashing artifact) (.ok (artifact.payload str)) := rfl

theorem keys_recordAll (files : AList fun _ : String => FileContent)
    (artifacts : List QuestionArtifact) (name : String) :
    name ∈ artifacts.foldl (record hashing str) files ↔
      name ∈ files ∨ name ∈ artifacts.map (nameOf hashing) := by
  induction artifacts generalizing files with
  | nil => simp
  | cons artifact rest hyp =>
    rw [List.foldl_cons, hyp, record_eq, AList.mem_insert, List.map_cons, List.mem_cons]
    constructor
    · rintro ((same | old) | later)
      · exact Or.inr (Or.inl same)
      · exact Or.inl old
      · exact Or.inr (Or.inr later)
    · rintro (old | same | later)
      · exact Or.inl (Or.inr old)
      · exact Or.inl (Or.inl same)
      · exact Or.inr later

variable (str) in
/-- Records whose names are apart have a file each. -/
theorem entries_recordAll {files : AList fun _ : String => FileContent}
    {artifacts : List QuestionArtifact} (apart : (artifacts.map (nameOf hashing)).Nodup)
    (fresh : ∀ name ∈ artifacts.map (nameOf hashing), name ∉ files) :
    (artifacts.foldl (record hashing str) files).entries.Perm
      (artifacts.map (fileOf hashing str) ++ files.entries) := by
  induction artifacts generalizing files with
  | nil => exact List.Perm.refl _
  | cons artifact rest hyp =>
    rw [List.map_cons, List.nodup_cons] at apart
    rw [List.map_cons, List.forall_mem_cons] at fresh
    have later : ∀ name ∈ rest.map (nameOf hashing), name ∉ record hashing str files artifact := by
      intro name listed inside
      rw [record_eq, AList.mem_insert] at inside
      rcases inside with same | old
      · exact apart.1 (same ▸ listed)
      · exact fresh.2 name listed old
    refine (hyp apart.2 later).trans ?_
    rw [record_eq, AList.entries_insert_of_notMem fresh.1, List.map_cons]
    exact List.perm_middle

variable (str) in
/-- There are fewer files than records where two of them share a name. -/
theorem length_recordAll_lt {artifacts : List QuestionArtifact}
    (shared : ¬(artifacts.map (nameOf hashing)).Nodup) :
    (recordAll hashing str artifacts).entries.length < artifacts.length := by
  have keys : (recordAll hashing str artifacts).keys.Perm
      (artifacts.map (nameOf hashing)).dedup := by
    refine (List.perm_ext_iff_of_nodup (AList.keys_nodup _) (List.nodup_dedup _)).mpr fun name => ?_
    rw [← AList.mem_keys, List.mem_dedup, recordAll, keys_recordAll]
    simp
  have count := keys.length_eq
  rw [AList.keys, List.keys, List.length_map] at count
  rw [count]
  refine lt_of_le_of_ne ?_ fun same => shared ?_
  · exact (List.dedup_sublist _).length_le.trans (by rw [List.length_map])
  · have whole : (artifacts.map (nameOf hashing)).dedup = artifacts.map (nameOf hashing) :=
      (List.dedup_sublist _).eq_of_length (by rw [same, List.length_map])
    exact whole ▸ List.nodup_dedup _

theorem total_of_summaryOf {files : AList fun _ : String => FileContent} {s : RunSummary}
    (done : summaryOf files = .ok s) : s.total = files.entries.length := by
  obtain ⟨stored, loaded, summed⟩ := bind_ok_iff.mp done
  rw [(aggregates summed).total, length_of_mapM loaded, sortedFiles, List.length_mergeSort]

variable (str) in
/-- What is read back of a run whose names are apart. -/
theorem artifacts_recordAll {artifacts : List QuestionArtifact}
    (apart : (artifacts.map (nameOf hashing)).Nodup)
    (dictionaries : ∀ a ∈ artifacts, (a.recallAtK.map Prod.fst).Nodup)
    (convertible : ∀ a ∈ artifacts, ∀ r ∈ a.recallAtK, Convertible r.1) :
    ∃ read, Summary.artifacts (recordAll hashing str artifacts) = .ok read ∧
      Alike read (artifacts.map stored) := by
  have listed : (sortedFiles (recordAll hashing str artifacts)).Perm
      (artifacts.map (fileOf hashing str)) := by
    have entries := entries_recordAll str apart fun name _ => AList.notMem_empty name
    exact ((List.mergeSort_perm _ _).trans entries).trans (by rw [AList.empty_entries,
      List.append_nil])
  obtain ⟨arranged, files, perm⟩ :=
    (congrFun₂ (List.eq_map_comp_perm (fileOf hashing str)) _ _).mpr listed
  rw [Summary.artifacts, files]
  have each : ∀ a ∈ arranged, ∃ b, load (.ok (a.payload str)) = .ok b ∧ Same b (stored a) := by
    intro a own
    obtain ⟨b, loaded⟩ := load_payload_isOk_iff.mpr (convertible a (perm.mem_iff.mp own))
    exact ⟨b, loaded, same_of_load (dictionaries a (perm.mem_iff.mp own)) loaded⟩
  suffices loaded : ∃ read, (arranged.map (fileOf hashing str)).mapM (fun file => load file.2) =
      .ok read ∧ List.Forall₂ Same read (arranged.map stored) by
    obtain ⟨read, done, same⟩ := loaded
    exact ⟨read, done, arranged.map stored, same, perm.map stored⟩
  clear perm files
  induction arranged with
  | nil => exact ⟨[], rfl, List.Forall₂.nil⟩
  | cons a rest hyp =>
    obtain ⟨b, loaded, same⟩ := each a List.mem_cons_self
    obtain ⟨read, done, others⟩ := hyp fun c own => each c (List.mem_cons_of_mem a own)
    exact ⟨b :: read, mapM_cons_ok_iff.mpr ⟨b, read, loaded, done, rfl⟩, others.cons same⟩

end files

/-! ## The round trip -/

/-- The summary over what is read back of a fresh run is that over what was
recorded. -/
def RoundTrips (hashing : Hashing) (str : PyValue → String) (artifacts : List QuestionArtifact) :
    Prop :=
  ∃ before after, summarise (artifacts.map stored) = .ok before ∧
    summaryOf (recordAll hashing str artifacts) = .ok after ∧ SameSummary after before

theorem summarise_stored_eq (artifacts : List QuestionArtifact) :
    summarise (artifacts.map stored) = .ok (aggregate (artifacts.map stored)) := by
  refine summarise_eq fun a listed => ?_
  obtain ⟨artifact, -, rfl⟩ := List.mem_map.mp listed
  exact summable_stored artifact

theorem SameSummary.total_eq {s t : RunSummary} (same : SameSummary s t) : s.total = t.total :=
  (RunSummary.mk.inj same.2).1

/-- Every record is counted, so each has a file of its own. -/
theorem apart_of_roundTrips {artifacts : List QuestionArtifact}
    (trip : RoundTrips hashing str artifacts) : (artifacts.map (nameOf hashing)).Nodup := by
  obtain ⟨before, after, summed, read, same⟩ := trip
  by_contra shared
  have fewer := length_recordAll_lt str shared
  have totals := same.total_eq
  rw [total_of_summaryOf read, (aggregates summed).total, List.length_map] at totals
  omega

/-- Each file of a summarised run was read. -/
theorem convertible_of_summaryOf {artifacts : List QuestionArtifact} {s : RunSummary}
    (apart : (artifacts.map (nameOf hashing)).Nodup)
    (done : summaryOf (recordAll hashing str artifacts) = .ok s) {a : QuestionArtifact}
    (listed : a ∈ artifacts) : ∀ r ∈ a.recallAtK, Convertible r.1 := by
  have entries := entries_recordAll str apart fun name _ => AList.notMem_empty name
  have file : fileOf hashing str a ∈ (recordAll hashing str artifacts).entries :=
    entries.mem_iff.mpr (List.mem_append_left _ (List.mem_map_of_mem listed))
  obtain ⟨b, loaded, -⟩ := summaryOf_isOk_iff.mp ⟨s, done⟩ (nameOf hashing a)
    (.ok (a.payload str)) (AList.mem_lookup_iff.mpr file)
  exact load_payload_isOk_iff.mp ⟨b, loaded⟩

/-- Nothing a summary depends on is lost exactly when no two records share the
name of their file and every cut-off has few enough digits to be read. -/
theorem roundTrips_iff (hashing : Hashing) (str : PyValue → String)
    {artifacts : List QuestionArtifact}
    (dictionaries : ∀ a ∈ artifacts, (a.recallAtK.map Prod.fst).Nodup) :
    RoundTrips hashing str artifacts ↔
      (artifacts.map fun a => artifactFilename hashing a.questionId).Nodup ∧
        ∀ a ∈ artifacts, ∀ r ∈ a.recallAtK, Convertible r.1 := by
  constructor
  · intro trip
    have apart := apart_of_roundTrips trip
    obtain ⟨before, after, summed, read, same⟩ := trip
    exact ⟨apart, fun a listed => convertible_of_summaryOf apart read listed⟩
  · rintro ⟨apart, convertible⟩
    obtain ⟨read, loaded, alike⟩ := artifacts_recordAll str apart dictionaries convertible
    have summable : ∀ a ∈ read, Summable a := by
      refine alike.summable fun a listed => ?_
      obtain ⟨artifact, -, rfl⟩ := List.mem_map.mp listed
      exact summable_stored artifact
    refine ⟨_, aggregate read, summarise_stored_eq artifacts, ?_, sameSummary_of_alike alike⟩
    exact bind_ok_iff.mpr ⟨read, loaded, summarise_eq summable⟩

/-- The hash of the standard library. -/
def hashlib : Hashing where
  sha256 := Sha256.hexdigest
  dumps _ := ""
  length_sha256 := Sha256.length_hexdigest

/-- A question of which nothing is known but its id. -/
private def unanswered (questionId : String) : QuestionArtifact where
  questionId
  question := "Which towns?"
  goldSql := "SELECT town FROM teacher"

theorem roundTrips_two :
    RoundTrips hashlib (fun _ => "") [unanswered "dev:1", unanswered "dev:2"] :=
  (roundTrips_iff hashlib (fun _ => "") (by decide)).mpr ⟨by decide +kernel, by decide⟩

/-- Two ids that differ in characters no file name keeps, and whose hashes begin
with the same eight digits. -/
theorem ids_share_file :
    ["q.!+*", "q&*,["].Nodup ∧
      artifactFilename hashlib "q.!+*" = "q-----bfd8f051.json" ∧
      artifactFilename hashlib "q&*,[" = "q-----bfd8f051.json" ∧
      ¬RoundTrips hashlib (fun _ => "") [unanswered "q.!+*", unanswered "q&*,["] := by
  have first : artifactFilename hashlib "q.!+*" = "q-----bfd8f051.json" := by decide +kernel
  have second : artifactFilename hashlib "q&*,[" = "q-----bfd8f051.json" := by decide +kernel
  refine ⟨by decide, first, second, fun trip => ?_⟩
  have apart := apart_of_roundTrips trip
  simp only [List.map_cons, List.map_nil, nameOf, unanswered, first, second] at apart
  exact absurd apart (by decide)

end RoundTrip
