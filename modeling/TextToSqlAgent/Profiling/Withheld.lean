import TextToSqlAgent.Profiling.Profiler

/-!
# What a profile says of what it leaves out

Each part of a column's profile that may be absent, and each reason that a profile
gives: which parts it is about, and when what it says is so.
-/

namespace Withheld

open Python Exceptions Settings Catalog Schema Profiler

inductive Part
  | minimum
  | maximum
  | frequentValues
  | sampleValues
  deriving DecidableEq, Repr

def Lacks (c : ColumnProfile) : Part → Prop
  | .minimum => c.minimum = none
  | .maximum => c.maximum = none
  | .frequentValues => c.frequentValues = []
  | .sampleValues => c.sampleValues = []

inductive Reason
  | sensitiveName
  | unorderedType (dataType : String)
  | topKDisabled
  | rare (threshold : Nat)
  | samplingDisabled
  | refused

def Reason.text : Reason → String
  | .sensitiveName => withheldSensitiveName
  | .unorderedType dataType => withheldUnorderedType dataType
  | .topKDisabled => withheldTopKDisabled
  | .rare threshold => withheldRare threshold
  | .samplingDisabled => withheldSamplingDisabled
  | .refused => withheldRefused

section Meaning

variable {V K : Type} [DecidableEq K]

/-- The parts a reason is about. Whether a refusal to compute statistics also says why
there are no samples is left open: `covers`. -/
def Reason.parts (covers : Bool) : Reason → List Part
  | .sensitiveName => [.minimum, .maximum, .frequentValues, .sampleValues]
  | .unorderedType _ => [.minimum, .maximum]
  | .topKDisabled => [.frequentValues]
  | .rare _ => [.frequentValues]
  | .samplingDisabled => [.sampleValues]
  | .refused => [.minimum, .maximum, .frequentValues] ++ if covers then [.sampleValues] else []

/-- When what a reason says of a column is so. -/
def Reason.Holds (profiler : TableProfiler V K) (table column dataType : String) : Reason → Prop
  | .sensitiveName => isSensitive profiler.names column profiler.sensitivePatterns = true
  | .unorderedType reported =>
    reported = dataType ∧ supportsExtremes profiler.names dataType = false
  | .topKDisabled => profiler.settings.topK = 0
  | .rare threshold => ∀ v, some v ∈ profiler.scanned table column →
    occurrences profiler.db (profiler.scanned table column) v < threshold
  | .samplingDisabled => profiler.settings.allowValueSampling = false
  | .refused => ∃ e, profiler.db.rows .statistics table column = .error e

/-- Each absent part has a reason that is so, and no part that is there has a reason. -/
structure Accounted (covers : Bool) (profiler : TableProfiler V K) (table : String)
    (c : ColumnProfile) : Prop where
  explained : ∀ part, Lacks c part → ∃ reason : Reason, reason.text ∈ c.withheld ∧
    part ∈ reason.parts covers ∧ reason.Holds profiler table c.column c.dataType
  apart : ∀ reason : Reason, reason.text ∈ c.withheld →
    ∀ part ∈ reason.parts covers, Lacks c part

/-- Nothing is left out of a column for a reason that is not given: of a column that is
not sensitive, the statistics are computed, an extreme that is asked for exists, and
samples are either not allowed or wanted and found. -/
def Outspoken (covers : Bool) (profiler : TableProfiler V K) (table column dataType : String)
    (sampleRows : Int) : Prop :=
  isSensitive profiler.names column profiler.sensitivePatterns = true ∨
    match profiler.db.rows .statistics table column with
    | .error _ => covers = true
    | .ok rows =>
      (supportsExtremes profiler.names dataType = true →
        profiler.db.least ((scan profiler.settings rows).filterMap id) ≠ none ∧
          profiler.db.greatest ((scan profiler.settings rows).filterMap id) ≠ none) ∧
      if 0 < sampleRows then
        ∃ sampled, profiler.db.rows .sample table column = .ok sampled ∧ sampled.filterMap id ≠ []
      else profiler.settings.allowValueSampling = false

end Meaning

/-! ## Reasons by their texts -/

/-- The beginning of a reason tells which it is. -/
def Reason.lead : Reason → List Char
  | .sensitiveName => ['c', 'o']
  | .unorderedType _ => ['e', 'x']
  | .topKDisabled => ['f', 'r']
  | .rare _ => ['e', 'v']
  | .samplingDisabled => ['r', 'a']
  | .refused => ['t', 'h']

theorem take_append {start : String} (long : 2 ≤ start.toList.length) (rest : String) :
    (start ++ rest).toList.take 2 = start.toList.take 2 := by
  rw [String.toList_append, List.take_append_of_le_length long]

theorem take_text (reason : Reason) : reason.text.toList.take 2 = reason.lead := by
  cases reason with
  | unorderedType dataType =>
    have begins : "extremes are not reported for type ".toList.take 2 = ['e', 'x'] := by
      decide
    exact (take_append (by decide) dataType).trans begins
  | rare threshold =>
    have begins : "every value occurs fewer than ".toList.take 2 = ['e', 'v'] := by
      decide
    have whole : withheldRare threshold = "every value occurs fewer than " ++
        (toString threshold ++ " times in the scanned rows") := String.append_assoc
    rw [Reason.text, whole]
    exact (take_append (by decide) _).trans begins
  | sensitiveName => decide
  | topKDisabled => decide
  | samplingDisabled => decide
  | refused => decide

/-- Reasons of one text are about the same parts. -/
theorem parts_eq_of_text_eq {covers : Bool} {reason other : Reason}
    (same : reason.text = other.text) : reason.parts covers = other.parts covers := by
  have leads : reason.lead = other.lead := by rw [← take_text, same, take_text]
  cases reason <;> cases other <;> first | rfl | exact absurd leads (by simp [Reason.lead])

section Columns

variable {V K : Type} [DecidableEq K] {profiler : TableProfiler V K} {table column : String}

/-! ## Frequent values -/

theorem freq_eq_nil_iff {db : Database V K} {settings : ProfilingSettings} {limit : Nat}
    (positive : 0 < limit) (scanned : List (Option V)) : freq db settings limit scanned = [] ↔
      ∀ v, some v ∈ scanned → occurrences db scanned v < settings.minValueFrequency := by
  have kept : freq db settings limit scanned = [] ↔
      ∀ group ∈ (Dictionary.groupBy db.key (scanned.filterMap id)).entries,
        group.2.length < settings.minValueFrequency := by
    rw [freq, List.map_eq_nil_iff, frequentGroups, List.take_eq_nil_iff,
      or_iff_right (Nat.ne_of_gt positive), ← List.length_eq_zero_iff, List.length_insertionSort,
      List.length_eq_zero_iff, List.filter_eq_nil_iff]
    simp only [decide_eq_true_eq, Nat.not_le]
  rw [kept]
  constructor
  · intro few v stored
    have group : (db.key v, (scanned.filterMap id).filter fun a => db.key a = db.key v) ∈
        (Dictionary.groupBy db.key (scanned.filterMap id)).entries := by
      rw [Dictionary.entries_groupBy]
      refine List.mem_map.mpr ⟨db.key v, List.mem_eraseDups.mpr ?_, rfl⟩
      exact List.mem_map.mpr ⟨v, by simpa using stored, rfl⟩
    have size := few _ group
    rwa [← List.countP_eq_length_filter] at size
  · intro few group listed
    obtain ⟨v, stored, -, -, size⟩ := exists_of_mem_groups listed
    rw [size]
    exact few v stored

/-! ## One column -/

omit [DecidableEq K] in
theorem extremeText_eq_none_iff {db : Database V K} {settings : ProfilingSettings}
    {extremes : Bool} {extreme : List V → Option V} {rows : List (Option V)} :
    extremeText db settings extremes extreme rows = none ↔
      extremes = true → extreme ((scan settings rows).filterMap id) = none := by
  unfold extremeText
  split
  · rename_i asked
    rw [Option.map_eq_none_iff]
    exact ⟨fun none_ _ => none_, fun none_ => none_ asked⟩
  · rename_i unasked
    exact iff_of_true rfl fun asked => absurd asked unasked

omit [DecidableEq K] in
theorem sample_ne_nil_iff {limit : Nat} (positive : 0 < limit) :
    profiler.sample table column limit ≠ [] ↔
      ∃ sampled, profiler.db.rows .sample table column = .ok sampled ∧
        sampled.filterMap id ≠ [] := by
  unfold TableProfiler.sample
  cases profiler.db.rows .sample table column with
  | error e => simp
  | ok rows => simp [sampleQuery, Nat.ne_of_gt positive]

/-- The reasons that are noted before any value is read. -/
def early (profiler : TableProfiler V K) (dataType : String) : List Reason :=
  (if supportsExtremes profiler.names dataType then [] else [.unorderedType dataType]) ++
    if profiler.settings.topK = 0 then [.topKDisabled] else []

/-- The reasons of a profile with some frequent values. -/
def given (profiler : TableProfiler V K) (dataType : String) (sampleRows : Int)
    (frequent : List FrequentValue) : List Reason :=
  early profiler dataType ++
    (if 0 < profiler.settings.topK ∧ frequent = [] then
      [.rare profiler.settings.minValueFrequency] else []) ++
    if 0 < sampleRows then [] else [.samplingDisabled]

/-- What a column's profile holds once its statistics are computed. -/
structure Computed (profiler : TableProfiler V K) (table column dataType : String)
    (sampleRows : Int) (rows : List (Option V)) (c : ColumnProfile) : Prop where
  minimum : c.minimum = extremeText profiler.db profiler.settings
    (supportsExtremes profiler.names dataType) profiler.db.least rows
  maximum : c.maximum = extremeText profiler.db profiler.settings
    (supportsExtremes profiler.names dataType) profiler.db.greatest rows
  frequent : c.frequentValues = if profiler.settings.topK = 0 then [] else
    (freq profiler.db profiler.settings (max profiler.settings.topK 1)
      (profiler.scanned table column)).map fun row => ⟨row.1, row.2⟩
  samples : c.sampleValues =
    if 0 < sampleRows then profiler.sample table column sampleRows.toNat else []
  withheld : c.withheld =
    (given profiler dataType sampleRows c.frequentValues).map Reason.text

omit [DecidableEq K] in
theorem readStats_ne_driver {topK : Nat} {rows : List StatsRow} {e : PsycopgError} :
    readStats topK table column rows ≠ .error (.driver e) := by
  unfold readStats
  split
  · intro same
    cases same
  · intro same
    cases same

/-- A column is passed over for its name, or refused, or profiled. -/
theorem profileColumn_cases {dataType : String} {sampleRows : Int} {c : ColumnProfile}
    (made : profiler.profileColumn table column dataType sampleRows = .ok c) :
    c.column = column ∧ c.dataType = dataType ∧
      ((isSensitive profiler.names column profiler.sensitivePatterns = true ∧
          (∀ part, Lacks c part) ∧ c.withheld = [Reason.sensitiveName].map Reason.text) ∨
        (isSensitive profiler.names column profiler.sensitivePatterns = false ∧
          (∃ e, profiler.db.rows .statistics table column = .error e) ∧ (∀ part, Lacks c part) ∧
            c.withheld = (early profiler dataType ++ [Reason.refused]).map Reason.text) ∨
        (isSensitive profiler.names column profiler.sensitivePatterns = false ∧
          ∃ rows, profiler.db.rows .statistics table column = .ok rows ∧
            Computed profiler table column dataType sampleRows rows c)) := by
  have noted : (early profiler dataType).map Reason.text =
      (if supportsExtremes profiler.names dataType then [] else [withheldUnorderedType dataType]) ++
        if profiler.settings.topK = 0 then [withheldTopKDisabled] else [] := by
    rw [early, List.map_append]
    split <;> split <;> rfl
  unfold TableProfiler.profileColumn at made
  split at made
  · rename_i sensitive
    obtain rfl := Except.ok.inj made
    exact ⟨rfl, rfl, Or.inl ⟨sensitive, fun part => by cases part <;> rfl, rfl⟩⟩
  · rename_i plain
    have plain := Bool.eq_false_iff.mpr plain
    dsimp only at made
    split at made
    · cases made
    · rename_i e run
      obtain rfl := Except.ok.inj made
      refine ⟨rfl, rfl, Or.inr (Or.inl ⟨plain, ?_, fun part => by cases part <;> rfl, ?_⟩)⟩
      · unfold TableProfiler.runStats at run
        split at run
        · rename_i failure met
          exact ⟨failure, met⟩
        · exact absurd run readStats_ne_driver
      · rw [List.map_append, noted]
        rfl
    · rename_i stats frequent run
      obtain rfl := Except.ok.inj made
      obtain ⟨rows, met, low, high, found⟩ := runStats_ok run
      refine ⟨rfl, rfl, Or.inr (Or.inr ⟨plain, rows, met, low, high, found, rfl, ?_⟩)⟩
      rw [given, List.map_append, List.map_append, noted]
      dsimp only
      congr 1
      · congr 1
        split <;> rfl
      · split <;> rfl

omit [DecidableEq K] in
theorem of_mem_early {dataType : String} {reason : Reason}
    (listed : reason ∈ early profiler dataType) :
    (reason = .unorderedType dataType ∧ supportsExtremes profiler.names dataType = false) ∨
      reason = .topKDisabled ∧ profiler.settings.topK = 0 := by
  rcases List.mem_append.mp listed with unordered | disabled
  · split at unordered
    · cases unordered
    · rename_i other
      exact Or.inl ⟨List.mem_singleton.mp unordered, Bool.eq_false_iff.mpr other⟩
  · split at disabled
    · rename_i none_
      exact Or.inr ⟨List.mem_singleton.mp disabled, none_⟩
    · cases disabled

omit [DecidableEq K] in
theorem of_mem_given {dataType : String} {sampleRows : Int} {frequent : List FrequentValue}
    {reason : Reason} (listed : reason ∈ given profiler dataType sampleRows frequent) :
    (reason = .unorderedType dataType ∧ supportsExtremes profiler.names dataType = false) ∨
      (reason = .topKDisabled ∧ profiler.settings.topK = 0) ∨
      (reason = .rare profiler.settings.minValueFrequency ∧ frequent = []) ∨
      reason = .samplingDisabled ∧ ¬0 < sampleRows := by
  rcases List.mem_append.mp listed with listed | unsampled
  · rcases List.mem_append.mp listed with first | rare
    · rcases of_mem_early first with unordered | disabled
      · exact Or.inl unordered
      · exact Or.inr (Or.inl disabled)
    · split at rare
      · rename_i few
        exact Or.inr (Or.inr (Or.inl ⟨List.mem_singleton.mp rare, few.2⟩))
      · cases rare
  · split at unsampled
    · cases unsampled
    · rename_i unwanted
      exact Or.inr (Or.inr (Or.inr ⟨List.mem_singleton.mp unsampled, unwanted⟩))

theorem accounted_of_silent {covers : Bool} {c : ColumnProfile} {reasons : List Reason}
    (silent : ∀ part, Lacks c part) (withheld : c.withheld = reasons.map Reason.text)
    (reason : Reason) (listed : reason ∈ reasons)
    (holds : reason.Holds profiler table c.column c.dataType)
    (whole : ∀ part, part ∈ reason.parts covers) : Accounted covers profiler table c where
  explained part _ := ⟨reason, withheld ▸ List.mem_map_of_mem listed, whole part, holds⟩
  apart _ _ part _ := silent part

theorem accounted_refused_iff {covers : Bool} {c : ColumnProfile} {e : PsycopgError}
    (met : profiler.db.rows .statistics table c.column = .error e)
    (silent : ∀ part, Lacks c part)
    (withheld : c.withheld =
      (early profiler c.dataType ++ [Reason.refused]).map Reason.text) :
    Accounted covers profiler table c ↔ covers = true := by
  constructor
  · intro accounted
    obtain ⟨reason, recorded, about, -⟩ := accounted.explained .sampleValues (silent _)
    rw [withheld] at recorded
    obtain ⟨other, listed, same⟩ := List.mem_map.mp recorded
    rw [← parts_eq_of_text_eq same] at about
    rcases List.mem_append.mp listed with first | last
    · rcases of_mem_early first with ⟨rfl, -⟩ | ⟨rfl, -⟩ <;> simp [Reason.parts] at about
    · rw [List.mem_singleton.mp last] at about
      simpa [Reason.parts] using about
  · rintro rfl
    refine accounted_of_silent silent withheld .refused (by simp) ⟨e, met⟩ fun part => ?_
    cases part <;> simp [Reason.parts]

/-- The parts that may be given a reason once the statistics are computed. -/
theorem lacks_of_given {covers : Bool} {c : ColumnProfile} {sampleRows : Int}
    {rows : List (Option V)}
    (computed : Computed profiler table c.column c.dataType sampleRows rows c) {reason : Reason}
    (listed : reason ∈ given profiler c.dataType sampleRows c.frequentValues) :
    ∀ part ∈ reason.parts covers, Lacks c part := by
  intro part about
  rcases of_mem_given listed with ⟨rfl, unordered⟩ | ⟨rfl, disabled⟩ | ⟨rfl, none_⟩ |
    ⟨rfl, unwanted⟩
  · have silent : supportsExtremes profiler.names c.dataType ≠ true := by simp [unordered]
    rcases List.mem_pair.mp about with rfl | rfl
    · exact computed.minimum.trans (extremeText_eq_none_iff.mpr fun asked => absurd asked silent)
    · exact computed.maximum.trans (extremeText_eq_none_iff.mpr fun asked => absurd asked silent)
  · rw [List.mem_singleton.mp about]
    exact computed.frequent.trans (if_pos disabled)
  · rw [List.mem_singleton.mp about]
    exact none_
  · rw [List.mem_singleton.mp about]
    exact computed.samples.trans (if_neg unwanted)

/-- What is given for a profile that was computed explains what it lacks, but for an
extreme that does not exist and samples that were not found or not wanted. -/
theorem accounted_computed_iff {covers : Bool} {c : ColumnProfile} {sampleRows : Int}
    {rows : List (Option V)}
    (computed : Computed profiler table c.column c.dataType sampleRows rows c) :
    Accounted covers profiler table c ↔
      (supportsExtremes profiler.names c.dataType = true →
        profiler.db.least ((scan profiler.settings rows).filterMap id) ≠ none ∧
          profiler.db.greatest ((scan profiler.settings rows).filterMap id) ≠ none) ∧
      if 0 < sampleRows then
        ∃ sampled, profiler.db.rows .sample table c.column = .ok sampled ∧
          sampled.filterMap id ≠ []
      else profiler.settings.allowValueSampling = false := by
  have given_of {reason : Reason} (recorded : reason.text ∈ c.withheld) :
      ∃ other ∈ given profiler c.dataType sampleRows c.frequentValues,
        other.text = reason.text ∧ other.parts covers = reason.parts covers := by
    rw [computed.withheld] at recorded
    obtain ⟨other, listed, same⟩ := List.mem_map.mp recorded
    exact ⟨other, listed, same, parts_eq_of_text_eq same⟩
  have low : Lacks c .minimum ↔ _ := computed.minimum ▸ extremeText_eq_none_iff
  have high : Lacks c .maximum ↔ _ := computed.maximum ▸ extremeText_eq_none_iff
  constructor
  · intro accounted
    have present : ∀ part ∈ [Part.minimum, .maximum],
        supportsExtremes profiler.names c.dataType = true → ¬Lacks c part := by
      intro part extreme supports lacks
      obtain ⟨reason, recorded, about, -⟩ := accounted.explained part lacks
      obtain ⟨other, listed, -, parts⟩ := given_of recorded
      rw [← parts] at about
      rcases of_mem_given listed with ⟨rfl, unordered⟩ | ⟨rfl, -⟩ | ⟨rfl, -⟩ | ⟨rfl, -⟩
      · rw [supports] at unordered
        cases unordered
      all_goals
        rw [List.mem_singleton.mp about] at extreme
        simp at extreme
    have sampling : Lacks c .sampleValues →
        ¬0 < sampleRows ∧ profiler.settings.allowValueSampling = false := by
      intro lacks
      obtain ⟨reason, recorded, about, holds⟩ := accounted.explained .sampleValues lacks
      obtain ⟨other, listed, same, parts⟩ := given_of recorded
      rw [← parts] at about
      rcases of_mem_given listed with ⟨rfl, -⟩ | ⟨rfl, -⟩ | ⟨rfl, -⟩ | ⟨rfl, unwanted⟩
      · simp [Reason.parts] at about
      · simp [Reason.parts] at about
      · simp [Reason.parts] at about
      · have lead : Reason.samplingDisabled.lead = reason.lead := by
          rw [← take_text, same, take_text]
        cases reason with
        | samplingDisabled => exact ⟨unwanted, holds⟩
        | _ => exact absurd lead (by simp [Reason.lead])
    refine ⟨fun supports => ⟨fun none_ => ?_, fun none_ => ?_⟩, ?_⟩
    · exact present .minimum (by simp) supports (low.mpr fun _ => none_)
    · exact present .maximum (by simp) supports (high.mpr fun _ => none_)
    · split
      · rename_i wanted
        rw [← sample_ne_nil_iff (Int.pos_iff_toNat_pos.mp wanted)]
        intro none_
        exact (sampling (computed.samples.trans ((if_pos wanted).trans none_))).1 wanted
      · rename_i unwanted
        exact (sampling (computed.samples.trans (if_neg unwanted))).2
  · rintro ⟨extremes, sampling⟩
    have recorded {reason : Reason}
        (listed : reason ∈ given profiler c.dataType sampleRows c.frequentValues) :
        reason.text ∈ c.withheld :=
      computed.withheld ▸ List.mem_map_of_mem listed
    have unordered : supportsExtremes profiler.names c.dataType = false →
        ∀ part ∈ [Part.minimum, .maximum], ∃ reason : Reason, reason.text ∈ c.withheld ∧
          part ∈ reason.parts covers ∧ reason.Holds profiler table c.column c.dataType := by
      intro other part extreme
      refine ⟨.unorderedType c.dataType, recorded ?_, extreme, rfl, other⟩
      simp [given, early, other]
    refine ⟨fun part lacks => ?_, fun reason listed part about => ?_⟩
    · cases part with
      | minimum =>
        refine unordered (Bool.eq_false_iff.mpr fun supports => ?_) _ (by simp)
        exact (extremes supports).1 (low.mp lacks supports)
      | maximum =>
        refine unordered (Bool.eq_false_iff.mpr fun supports => ?_) _ (by simp)
        exact (extremes supports).2 (high.mp lacks supports)
      | frequentValues =>
        by_cases disabled : profiler.settings.topK = 0
        · refine ⟨.topKDisabled, recorded ?_, by simp [Reason.parts], disabled⟩
          simp [given, early, disabled]
        · refine ⟨.rare profiler.settings.minValueFrequency, recorded ?_, by simp [Reason.parts],
            ?_⟩
          · have none_ : c.frequentValues = [] := lacks
            simp [given, none_, Nat.pos_of_ne_zero disabled]
          · have none_ := (computed.frequent.trans (if_neg disabled)).symm.trans lacks
            exact (freq_eq_nil_iff (by omega) _).mp (List.map_eq_nil_iff.mp none_)
      | sampleValues =>
        by_cases wanted : 0 < sampleRows
        · rw [if_pos wanted, ← sample_ne_nil_iff (Int.pos_iff_toNat_pos.mp wanted)] at sampling
          exact absurd ((computed.samples.trans (if_pos wanted)).symm.trans lacks) sampling
        · rw [if_neg wanted] at sampling
          refine ⟨.samplingDisabled, recorded ?_, by simp [Reason.parts], sampling⟩
          simp [given, wanted]
    · obtain ⟨other, listed, -, parts⟩ := given_of listed
      exact lacks_of_given computed listed part (parts ▸ about)

theorem accounted_profileColumn_iff (covers : Bool) {dataType : String} {sampleRows : Int}
    {c : ColumnProfile}
    (made : profiler.profileColumn table column dataType sampleRows = .ok c) :
    Accounted covers profiler table c ↔
      Outspoken covers profiler table column dataType sampleRows := by
  obtain ⟨rfl, rfl, outcome⟩ := profileColumn_cases made
  unfold Outspoken
  rcases outcome with ⟨sensitive, silent, withheld⟩ | ⟨plain, ⟨e, met⟩, silent, withheld⟩ |
    ⟨plain, rows, met, computed⟩
  · refine iff_of_true ?_ (Or.inl sensitive)
    refine accounted_of_silent silent withheld .sensitiveName (by simp) sensitive fun part => ?_
    cases part <;> simp [Reason.parts]
  · rw [or_iff_right (by simp [plain]), met]
    exact accounted_refused_iff met silent withheld
  · rw [or_iff_right (by simp [plain]), met]
    exact accounted_computed_iff computed

/-- Whatever a table holds and whichever statements fail, nothing is silently absent from
its profile if and only if each column that is profiled is outspoken. -/
theorem accounted_iff (covers : Bool) (profiler : TableProfiler V K) (table : String)
    (columns : Option (List String)) (sampleRows : Option Int) {report : TableProfile}
    (returned : profiler.profile table columns sampleRows = .ok report) :
    ∃ selected omitted, profiler.selectColumns report.table columns = .ok (selected, omitted) ∧
      ((∀ c ∈ report.columns, Accounted covers profiler report.table c) ↔
        ∀ entry ∈ selected, Outspoken covers profiler report.table entry.1 entry.2
          (profiler.settings.clampSampleRows sampleRows)) := by
  obtain ⟨selected, omitted, resolved, made⟩ := columns_of_profile returned
  refine ⟨selected, omitted, resolved, fun accounted entry listed => ?_,
    fun outspoken c listed => ?_⟩
  · obtain ⟨c, profiled⟩ := Fallible.ok_of_mapM made entry listed
    have present : c ∈ report.columns := (Fallible.mem_of_mapM made).mpr ⟨entry, listed, profiled⟩
    exact (accounted_profileColumn_iff covers profiled).mp (accounted c present)
  · obtain ⟨entry, member, profiled⟩ := (Fallible.mem_of_mapM made).mp listed
    exact (accounted_profileColumn_iff covers profiled).mpr (outspoken entry member)

end Columns

/-! ## Dates that are all missing -/

private def loans (due : List (Option Nat)) : TableProfiler Nat Nat where
  names := ⟨fun text => text, fun _ _ => none⟩
  quote text := text
  catalog := ⟨[("loans", ["due"])]⟩
  settings := ProfilingSettings.default
  sensitivePatterns := []
  db :=
    { columnTypes := fun _ => .ok [("due", "date")]
      rowEstimate := fun _ => .ok none
      rows := fun _ _ _ => .ok due
      key := fun day => day
      text := fun day => toString day
      least := fun days => days.min?
      greatest := fun days => days.max?
      collates := fun _ _ => true }

/-- One date that is there is both extremes, and what else is absent has a reason. -/
theorem accounted_loans : ∃ report, (loans [some 5, none]).profile "loans" none none = .ok report ∧
    ∀ c ∈ report.columns, Accounted false (loans [some 5, none]) report.table c := by
  have known : ((loans [some 5, none]).profile "loans" none none).toOption.map
      TableProfile.table = some "loans" := by
    decide
  cases made : (loans [some 5, none]).profile "loans" none none with
  | error e =>
    rw [made] at known
    cases known
  | ok report =>
    rw [made] at known
    obtain ⟨selected, omitted, resolved, accounted⟩ := accounted_iff false _ "loans" none none made
    rw [Option.some.inj known] at resolved
    have columns : ((loans [some 5, none]).selectColumns "loans" none).toOption =
        some ([("due", "date")], 0) := by
      decide
    rw [resolved] at columns
    obtain ⟨rfl, -⟩ := Prod.mk.inj (Option.some.inj columns)
    refine ⟨report, rfl, accounted.mpr fun entry listed => ?_⟩
    rw [List.mem_singleton.mp listed]
    exact Or.inr ⟨fun _ => ⟨by decide, by decide⟩, rfl⟩

/-- Of dates that are all missing there is no extreme, and no reason for that. -/
theorem not_accounted_loans : ∃ report, (loans [none]).profile "loans" none none = .ok report ∧
    report.columns.map (fun c => (c.minimum, c.maximum, c.withheld)) =
      [(none, none, [withheldRare 5, withheldSamplingDisabled])] ∧
    ∀ covers, ¬∀ c ∈ report.columns, Accounted covers (loans [none]) report.table c := by
  have silent : ∀ covers, ¬Outspoken covers (loans [none]) "loans" "due" "date" 0 := by
    rintro covers (sensitive | ⟨extremes, -⟩)
    · exact absurd sensitive (by decide)
    · exact (extremes (by decide)).1 rfl
  have held : ((loans [none]).profile "loans" none none).toOption.map
      (fun report => (report.table, report.columns)) =
        ((loans [none]).profileColumn "loans" "due" "date" 0).toOption.map fun c =>
          ("loans", [c]) := by
    decide +kernel
  have shown : ((loans [none]).profileColumn "loans" "due" "date" 0).toOption.map
      (fun c => (c.minimum, c.maximum, c.withheld)) =
        some (none, none, [withheldRare 5, withheldSamplingDisabled]) := by
    decide
  cases profiled : (loans [none]).profileColumn "loans" "due" "date" 0 with
  | error e =>
    rw [profiled] at shown
    cases shown
  | ok c =>
    rw [profiled] at held shown
    obtain ⟨report, found, same⟩ := Option.map_eq_some_iff.mp held
    obtain ⟨named, columns⟩ := Prod.mk.inj same
    refine ⟨report, Fallible.toOption_eq_some_iff.mp found, ?_, fun covers accounted => ?_⟩
    · rw [columns]
      exact congrArg (fun row => [row]) (Option.some.inj shown)
    · rw [columns, named] at accounted
      refine silent covers ((accounted_profileColumn_iff covers profiled).mp (accounted c ?_))
      exact List.mem_singleton_self c

end Withheld
