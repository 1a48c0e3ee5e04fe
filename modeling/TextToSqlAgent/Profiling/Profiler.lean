import Mathlib.Data.List.Sort
import TextToSqlAgent.Core.Exceptions
import TextToSqlAgent.Core.Settings
import TextToSqlAgent.Library.Dictionary
import TextToSqlAgent.Library.Fallible
import TextToSqlAgent.Schema.Models

/-!
# Table profiles under a disclosure budget

`TableProfiler.profile`: which columns are read, what is computed of each, and
what is said of it. The two statements that read values have the meaning of
their SQL, over the rows that the database meets first.
-/

namespace Profiler

open Python Exceptions Settings Catalog Schema

/-! ## The database -/

/-- A statement that the database did not run to its end. -/
structure PsycopgError where
  text : String

inductive Purpose
  | statistics
  | sample

/-- The relations of the target schema. `rows` are a column's values in the order
in which a statement meets them, `NULL` being none; `=` compares values by their
keys; the order of texts and the aggregates are the database's own. -/
structure Database (V K : Type) where
  columnTypes : String → Except PsycopgError (List (String × String))
  rowEstimate : String → Except PsycopgError (Option Int)
  rows : Purpose → String → String → Except PsycopgError (List (Option V))
  key : V → K
  text : V → String
  least : List V → Option V
  greatest : List V → Option V
  collates : String → String → Bool

/-! ## Reports -/

structure FrequentValue where
  value : String
  count : Nat
  deriving DecidableEq

/-- What one column looks like, and what was deliberately not said about it. -/
structure ColumnProfile where
  column : String
  dataType : String
  nullFraction : Option Rat := none
  distinctCount : Option Nat := none
  minimum : Option String := none
  maximum : Option String := none
  frequentValues : List FrequentValue := []
  sampleValues : List String := []
  withheld : List String := []
  deriving DecidableEq

structure TableProfile where
  table : String
  columns : List ColumnProfile
  rowEstimate : Option Int
  scannedRows : Nat
  columnsOmitted : Nat

structure Stats where
  nullFraction : Option Rat
  distinctCount : Nat
  minimum : Option String
  maximum : Option String

def withheldSensitiveName : String := "column name matches the sensitive-column denylist"
def withheldRare (threshold : Nat) : String :=
  s!"every value occurs fewer than {threshold} times in the scanned rows"
def withheldUnorderedType (dataType : String) : String :=
  s!"extremes are not reported for type {dataType}"
def withheldSamplingDisabled : String := "raw values require PROFILE_ALLOW_VALUE_SAMPLING"
def withheldTopKDisabled : String := "frequent values are disabled (PROFILE_TOP_K=0)"
def withheldRefused : String := "the database refused to compute statistics for this column"

def orderedTypePrefixes : List String :=
  ["smallint", "integer", "bigint", "decimal", "numeric", "real", "double precision", "money",
    "date", "timestamp", "time", "interval"]

/-- Whether `min` and `max` on this type are a bound rather than a cell. -/
def supportsExtremes (names : Names) (dataType : String) : Bool :=
  let lowered := names.casefold (strip dataType)
  !("[]".toList <:+ lowered.toList : Bool) &&
    orderedTypePrefixes.any fun start => start.toList <+: lowered.toList

/-! ## Statements -/

variable {V K : Type} [DecidableEq K]

/-- `left(text, n)`. -/
def left (n : Nat) (text : String) : String := String.ofList (text.toList.take n)

/-- The rows of `scan`. -/
def scan (settings : ProfilingSettings) (rows : List (Option V)) : List (Option V) :=
  rows.take settings.scanLimit

/-- `left(v::text, n)` of a group of equal values. -/
def groupText (db : Database V K) (settings : ProfilingSettings) (group : K × List V) : String :=
  left settings.maxValueChars ((group.2.head?.map db.text).getD "")

/-- `GROUP BY v HAVING count(*) >= … ORDER BY count(*) DESC, 1 LIMIT …`. -/
def frequentGroups (db : Database V K) (settings : ProfilingSettings) (limit : Nat)
    (scanned : List (Option V)) : List (K × List V) :=
  let groups := (Dictionary.groupBy db.key (scanned.filterMap id)).entries
  let kept := groups.filter fun group => settings.minValueFrequency ≤ group.2.length
  (kept.insertionSort fun a b => b.2.length < a.2.length ∨ (a.2.length = b.2.length ∧
    db.collates (groupText db settings a) (groupText db settings b) = true)).take limit

/-- The rows of `freq`. -/
def freq (db : Database V K) (settings : ProfilingSettings) (limit : Nat)
    (scanned : List (Option V)) : List (String × Nat) :=
  (frequentGroups db settings limit scanned).map fun group =>
    (groupText db settings group, group.2.length)

/-- A row of `stats LEFT JOIN freq ON true`. -/
structure StatsRow where
  n : Nat
  nonNull : Nat
  distinctCount : Nat
  lo : Option String
  hi : Option String
  value : Option String
  freq : Option Nat

def statsQuery (db : Database V K) (settings : ProfilingSettings) (extremes : Bool) (limit : Nat)
    (rows : List (Option V)) : List StatsRow :=
  let scanned := scan settings rows
  let values := scanned.filterMap id
  let bound (extreme : List V → Option V) : Option String :=
    if extremes then (extreme values).map fun v => left settings.maxValueChars (db.text v)
    else none
  let stats (value : Option String) (freq : Option Nat) : StatsRow :=
    ⟨scanned.length, values.length, (values.map db.key).eraseDups.length, bound db.least,
      bound db.greatest, value, freq⟩
  match freq db settings limit scanned with
  | [] => [stats none none]
  | groups => groups.map fun group => stats (some group.1) (some group.2)

def sampleQuery (db : Database V K) (settings : ProfilingSettings) (limit : Nat)
    (rows : List (Option V)) : List String :=
  ((rows.filterMap id).take limit).map fun v => left settings.maxValueChars (db.text v)

/-! ## The profiler -/

/-- What leaves `_run_stats`: an error of the driver, or one of the domain. -/
inductive StatsError
  | driver (e : PsycopgError)
  | domain (e : Raised)

def profilingError (message : String) : Raised := .domain ⟨.profilingError, message, none, none⟩

/-- `TableProfiler`; `quote` is `repr` of a text. -/
structure TableProfiler (V K : Type) where
  names : Names
  quote : String → String
  catalog : SchemaCatalog
  settings : ProfilingSettings
  sensitivePatterns : List String
  db : Database V K

variable (profiler : TableProfiler V K)

/-- `f"; did you mean {suggestion!r}?"`, where there is one. -/
def TableProfiler.hint (suggestion : Option String) : String :=
  match suggestion with
  | some name => if name = "" then "" else s!"; did you mean {profiler.quote name}?"
  | none => ""

/-- `_resolve_table`. -/
def TableProfiler.resolveTable (table : String) : Except Raised String :=
  if profiler.catalog.hasTable profiler.names table then .ok (profiler.names.casefold table)
  else
    let hint := profiler.hint (profiler.catalog.suggestTable profiler.names table)
    .error (.domain ⟨.unknownTableError,
      s!"table {profiler.quote table} is not in the catalog{hint}", none, none⟩)

/-- `self._catalog.columns_by_table[table]`, of a table that is there. -/
def TableProfiler.known (table : String) : List String :=
  match profiler.catalog.columnsByTable.find? fun entry => entry.1 == table with
  | some entry => entry.2.eraseDups
  | none => []

/-- An error of the driver that nobody catches. -/
def uncaught {α : Type} (outcome : Except PsycopgError α) : Except Raised α :=
  outcome.mapError fun e => .unexpected e.text

/-- `_column_types`; of two columns of one folded name the later one stays. -/
def TableProfiler.columnTypes (table : String) : Except Raised (List (String × String)) :=
  (uncaught (profiler.db.columnTypes table)).map fun types =>
    types.map fun entry => (profiler.names.casefold entry.1, entry.2)

def typeOf (types : List (String × String)) (name : String) : String :=
  match types.reverse.find? fun entry => entry.1 == name with
  | some entry => entry.2
  | none => "unknown"

/-- The names that are asked for, or else all in order. -/
def TableProfiler.wantedColumns (table : String) (requested : Option (List String)) :
    Except Raised (List String) :=
  let known := profiler.known table
  match requested with
  | some columns =>
    match columns.find? fun c => !known.contains (profiler.names.casefold c) with
    | some unknown =>
      let hint := profiler.hint (profiler.catalog.suggestColumn profiler.names unknown [table])
      .error (profilingError
        s!"column {profiler.quote unknown} is not in {profiler.quote table}{hint}")
    | none => .ok (columns.map profiler.names.casefold)
  | none => .ok (known.insertionSort (· ≤ ·))

/-- `_select_columns`. -/
def TableProfiler.selectColumns (table : String) (requested : Option (List String)) :
    Except Raised (List (String × String) × Nat) := do
  let names ← profiler.wantedColumns table requested
  let cap := profiler.settings.maxColumns
  let omitted := names.length - cap
  let types ← profiler.columnTypes table
  return ((names.take cap).map fun name => (name, typeOf types name), omitted)

/-- What is made of the rows of the statistics' statement. -/
def readStats (topK : Nat) (table column : String) (rows : List StatsRow) :
    Except StatsError (Stats × List FrequentValue) :=
  match rows with
  | [] => .error (.domain (profilingError s!"no statistics returned for {table}.{column}"))
  | first :: _ =>
    let nullFraction :=
      if first.n = 0 then none
      else some (roundPlaces 4 (nearestDouble ((first.n - first.nonNull : Int) / first.n)))
    let frequent :=
      if topK = 0 then []
      else rows.filterMap fun row => row.value.map fun value => ⟨value, row.freq.getD 0⟩
    .ok (⟨nullFraction, first.distinctCount, first.lo, first.hi⟩, frequent)

/-- `_run_stats`. -/
def TableProfiler.runStats (table column : String) (extremes : Bool) (topK : Nat) :
    Except StatsError (Stats × List FrequentValue) :=
  match profiler.db.rows .statistics table column with
  | .error e => .error (.driver e)
  | .ok rows =>
    readStats topK table column
      (statsQuery profiler.db profiler.settings extremes (max topK 1) rows)

/-- `_sample`. -/
def TableProfiler.sample (table column : String) (limit : Nat) : List String :=
  match profiler.db.rows .sample table column with
  | .error _ => []
  | .ok rows => sampleQuery profiler.db profiler.settings limit rows

/-- `_profile_column`. -/
def TableProfiler.profileColumn (table column dataType : String) (sampleRows : Int) :
    Except Raised ColumnProfile :=
  if isSensitive profiler.names column profiler.sensitivePatterns then
    .ok { column := column, dataType := dataType, withheld := [withheldSensitiveName] }
  else
    let extremes := supportsExtremes profiler.names dataType
    let topK := profiler.settings.topK
    let withheld := (if extremes then [] else [withheldUnorderedType dataType]) ++
      if topK = 0 then [withheldTopKDisabled] else []
    match profiler.runStats table column extremes topK with
    | .error (.domain e) => .error e
    | .error (.driver _) =>
      .ok { column := column, dataType := dataType, withheld := withheld ++ [withheldRefused] }
    | .ok (stats, frequent) =>
      let rare := if 0 < topK ∧ frequent = [] then
        [withheldRare profiler.settings.minValueFrequency] else []
      let samples :=
        if 0 < sampleRows then profiler.sample table column sampleRows.toNat else []
      let unsampled := if 0 < sampleRows then [] else [withheldSamplingDisabled]
      .ok { column := column
            dataType := dataType
            nullFraction := stats.nullFraction
            distinctCount := some stats.distinctCount
            minimum := stats.minimum
            maximum := stats.maximum
            frequentValues := frequent
            sampleValues := samples
            withheld := withheld ++ rare ++ unsampled }

/-- `_row_estimate`; a negative one is none. -/
def TableProfiler.rowEstimate (table : String) : Except Raised (Option Int) :=
  (uncaught (profiler.db.rowEstimate table)).map fun estimate => estimate.filter (0 ≤ ·)

def TableProfiler.profile (table : String) (columns : Option (List String) := none)
    (sampleRows : Option Int := none) : Except Raised TableProfile := do
  let resolvedTable ← profiler.resolveTable table
  let (selected, omitted) ← profiler.selectColumns resolvedTable columns
  let wantedSamples := profiler.settings.clampSampleRows sampleRows
  let profiles ← selected.mapM fun entry =>
    profiler.profileColumn resolvedTable entry.1 entry.2 wantedSamples
  let rowEstimate ← profiler.rowEstimate resolvedTable
  return ⟨resolvedTable, profiles, rowEstimate, profiler.settings.scanLimit, omitted⟩

/-! ## What is disclosed -/

/-- How many of the scanned rows hold a value equal to the given one. -/
def occurrences (db : Database V K) (scanned : List (Option V)) (v : V) : Nat :=
  (scanned.filterMap id).countP fun w => db.key w = db.key v

/-- The rows that a column's statistics are made of. -/
def TableProfiler.scanned (table column : String) : List (Option V) :=
  match profiler.db.rows .statistics table column with
  | .ok rows => scan profiler.settings rows
  | .error _ => []

/-- The values of a column that a profile quotes. -/
def ColumnProfile.quoted (c : ColumnProfile) : List String :=
  c.minimum.toList ++ c.maximum.toList ++ c.frequentValues.map FrequentValue.value ++
    c.sampleValues

/-- What a column's profile keeps to. -/
structure Bounded (table : String) (c : ColumnProfile) : Prop where
  sensitive : isSensitive profiler.names c.column profiler.sensitivePatterns = true → c.quoted = []
  frequent : ∃ values : List V, (values.map profiler.db.key).Nodup ∧
    c.frequentValues = values.map (fun v => ⟨left profiler.settings.maxValueChars
      (profiler.db.text v), occurrences profiler.db (profiler.scanned table c.column) v⟩) ∧
    ∀ v ∈ values, some v ∈ profiler.scanned table c.column ∧
      profiler.settings.minValueFrequency ≤
        occurrences profiler.db (profiler.scanned table c.column) v ∧
      2 ≤ occurrences profiler.db (profiler.scanned table c.column) v
  few : c.frequentValues.length ≤ profiler.settings.topK
  sampled : c.sampleValues.length ≤ profiler.settings.sampleRows
  allowed : profiler.settings.allowValueSampling = false → c.sampleValues = []
  short : ∀ text ∈ c.quoted, text.length ≤ profiler.settings.maxValueChars

theorem length_left_le (n : Nat) (text : String) : (left n text).length ≤ n := by
  rw [left, String.length_ofList, List.length_take]
  omega

/-- A group of equal values: its first member has its key, and its size is how
often that value occurs. -/
theorem exists_of_mem_groups {db : Database V K} {scanned : List (Option V)} {group : K × List V}
    (listed : group ∈ (Dictionary.groupBy db.key (scanned.filterMap id)).entries) :
    ∃ v, some v ∈ scanned ∧ group.2.head? = some v ∧ group.1 = db.key v ∧
      group.2.length = occurrences db scanned v := by
  rw [Dictionary.entries_groupBy] at listed
  obtain ⟨k, known, rfl⟩ := List.mem_map.mp listed
  obtain ⟨w, there, same⟩ := List.mem_map.mp (List.mem_eraseDups.mp known)
  have member : w ∈ (scanned.filterMap id).filter fun a => db.key a = k :=
    List.mem_filter.mpr ⟨there, decide_eq_true same⟩
  obtain ⟨v, rest, first⟩ := List.exists_cons_of_ne_nil (List.ne_nil_of_mem member)
  have head : v ∈ (scanned.filterMap id).filter fun a => db.key a = k :=
    first ▸ List.mem_cons_self
  obtain ⟨inside, key⟩ := List.mem_filter.mp head
  have key : db.key v = k := of_decide_eq_true key
  refine ⟨v, ?_, by rw [first]; rfl, key.symm, ?_⟩
  · simpa using inside
  · rw [occurrences, key, List.countP_eq_length_filter]

theorem mem_frequentGroups {db : Database V K} {settings : ProfilingSettings} {limit : Nat}
    {scanned : List (Option V)} {group : K × List V}
    (listed : group ∈ frequentGroups db settings limit scanned) :
    group ∈ (Dictionary.groupBy db.key (scanned.filterMap id)).entries ∧
      settings.minValueFrequency ≤ group.2.length := by
  have kept := (List.mem_insertionSort _).mp (List.mem_of_mem_take listed)
  obtain ⟨there, enough⟩ := List.mem_filter.mp kept
  exact ⟨there, of_decide_eq_true enough⟩

theorem nodup_frequentGroups {db : Database V K} {settings : ProfilingSettings} {limit : Nat}
    {scanned : List (Option V)} :
    ((frequentGroups db settings limit scanned).map Prod.fst).Nodup := by
  refine List.Nodup.sublist ((List.take_sublist _ _).map _) ?_
  rw [((List.perm_insertionSort _ _).map Prod.fst).nodup_iff]
  exact (Dictionary.groupBy db.key (scanned.filterMap id)).distinct.sublist
    (List.filter_sublist.map _)

/-- The rows of `freq` stand for values, each for one of its own. -/
theorem freq_eq (db : Database V K) (settings : ProfilingSettings) (limit : Nat)
    (scanned : List (Option V)) :
    ∃ values : List V, (values.map db.key).Nodup ∧
      freq db settings limit scanned = values.map (fun v =>
        (left settings.maxValueChars (db.text v), occurrences db scanned v)) ∧
      ∀ v ∈ values, some v ∈ scanned ∧
        settings.minValueFrequency ≤ occurrences db scanned v := by
  have each : ∀ groups : List (K × List V),
      (∀ group ∈ groups, group ∈ (Dictionary.groupBy db.key (scanned.filterMap id)).entries ∧
        settings.minValueFrequency ≤ group.2.length) →
      ∃ values : List V, values.map db.key = groups.map Prod.fst ∧
        groups.map (fun group => (groupText db settings group, group.2.length)) =
          values.map (fun v =>
            (left settings.maxValueChars (db.text v), occurrences db scanned v)) ∧
        ∀ v ∈ values, some v ∈ scanned ∧
          settings.minValueFrequency ≤ occurrences db scanned v := by
    intro groups kept
    induction groups with
    | nil => exact ⟨[], rfl, rfl, fun v none => absurd none (List.not_mem_nil)⟩
    | cons group rest ih =>
      obtain ⟨values, keys, rows, enough⟩ :=
        ih fun g listed => kept g (List.mem_cons_of_mem _ listed)
      obtain ⟨there, size⟩ := kept group List.mem_cons_self
      obtain ⟨v, stored, head, key, count⟩ := exists_of_mem_groups there
      refine ⟨v :: values, ?_, ?_, ?_⟩
      · rw [List.map_cons, List.map_cons, keys, key]
      · rw [List.map_cons, List.map_cons, rows, groupText, head, count]
        rfl
      · intro w listed
        rcases List.mem_cons.mp listed with rfl | later
        · exact ⟨stored, count ▸ size⟩
        · exact enough w later
  obtain ⟨values, keys, rows, enough⟩ :=
    each (frequentGroups db settings limit scanned) fun _ listed => mem_frequentGroups listed
  exact ⟨values, keys ▸ nodup_frequentGroups, rows, enough⟩

theorem length_freq_le (db : Database V K) (settings : ProfilingSettings) (limit : Nat)
    (scanned : List (Option V)) : (freq db settings limit scanned).length ≤ limit := by
  rw [freq, frequentGroups, List.length_map, List.length_take]
  omega

/-- The text of an extreme, where it is asked for and there is one. -/
def extremeText (db : Database V K) (settings : ProfilingSettings) (extremes : Bool)
    (extreme : List V → Option V) (rows : List (Option V)) : Option String :=
  if extremes then (extreme ((scan settings rows).filterMap id)).map fun v =>
    left settings.maxValueChars (db.text v)
  else none

omit [DecidableEq K] in
theorem length_of_mem_extremeText {db : Database V K} {settings : ProfilingSettings}
    {extremes : Bool} {extreme : List V → Option V} {rows : List (Option V)} {text : String}
    (listed : text ∈ extremeText db settings extremes extreme rows) :
    text.length ≤ settings.maxValueChars := by
  rw [extremeText, Option.mem_def, Option.ite_none_right_eq_some, Option.map_eq_some_iff] at listed
  obtain ⟨-, v, -, rfl⟩ := listed
  exact length_left_le _ _

/-- The frequent values are the rows of `freq`. -/
theorem readStats_statsQuery {db : Database V K} {settings : ProfilingSettings} {extremes : Bool}
    {topK : Nat} {table column : String} {rows : List (Option V)} {stats : Stats}
    {frequent : List FrequentValue}
    (read : readStats topK table column (statsQuery db settings extremes (max topK 1) rows) =
      .ok (stats, frequent)) :
    stats.minimum = extremeText db settings extremes db.least rows ∧
      stats.maximum = extremeText db settings extremes db.greatest rows ∧
      frequent = if topK = 0 then [] else
        (freq db settings (max topK 1) (scan settings rows)).map fun row => ⟨row.1, row.2⟩ := by
  unfold statsQuery at read
  dsimp only at read
  split at read
  · rename_i none
    simp only [readStats, Except.ok.injEq, Prod.mk.injEq] at read
    obtain ⟨rfl, rfl⟩ := read
    exact ⟨rfl, rfl, by simp [none]⟩
  · rename_i groups some
    generalize listed : freq db settings (max topK 1) (scan settings rows) = found at read some ⊢
    cases found with
    | nil => exact absurd rfl (some ·)
    | cons group rest =>
      simp only [readStats, List.map_cons, Except.ok.injEq, Prod.mk.injEq] at read
      obtain ⟨rfl, rfl⟩ := read
      refine ⟨rfl, rfl, ?_⟩
      split
      · rfl
      · simp [List.filterMap_map]

variable {profiler} {table column : String}

/-- The statistics are of the rows that the statement met. -/
theorem runStats_ok {extremes : Bool} {topK : Nat} {stats : Stats} {frequent : List FrequentValue}
    (run : profiler.runStats table column extremes topK = .ok (stats, frequent)) :
    ∃ rows, profiler.db.rows .statistics table column = .ok rows ∧
      stats.minimum = extremeText profiler.db profiler.settings extremes profiler.db.least rows ∧
      stats.maximum =
        extremeText profiler.db profiler.settings extremes profiler.db.greatest rows ∧
      frequent = if topK = 0 then [] else
        (freq profiler.db profiler.settings (max topK 1) (profiler.scanned table column)).map
          fun row => ⟨row.1, row.2⟩ := by
  unfold TableProfiler.runStats at run
  unfold TableProfiler.scanned
  cases met : profiler.db.rows .statistics table column with
  | error e =>
    rw [met] at run
    cases run
  | ok rows =>
    rw [met] at run
    exact ⟨rows, rfl, readStats_statsQuery run⟩

omit [DecidableEq K] in
theorem sample_bounds (profiler : TableProfiler V K) (table column : String) (limit : Nat) :
    (profiler.sample table column limit).length ≤ limit ∧
      ∀ text ∈ profiler.sample table column limit,
        text.length ≤ profiler.settings.maxValueChars := by
  unfold TableProfiler.sample
  split
  · exact ⟨Nat.zero_le _, fun text none => absurd none List.not_mem_nil⟩
  · refine ⟨?_, fun text listed => ?_⟩
    · rw [sampleQuery, List.length_map, List.length_take]
      omega
    · obtain ⟨v, -, rfl⟩ := List.mem_map.mp listed
      exact length_left_le _ _

/-- A profile that quotes nothing keeps to every bound. -/
theorem bounded_of_silent {c : ColumnProfile} (silent : c.quoted = [])
    (frequent : c.frequentValues = []) (samples : c.sampleValues = []) :
    Bounded profiler table c where
  sensitive _ := silent
  frequent := ⟨[], List.nodup_nil, frequent, fun v none => absurd none List.not_mem_nil⟩
  few := by simp [frequent]
  sampled := by simp [samples]
  allowed _ := samples
  short text listed := by simp [silent] at listed

theorem bounded_profileColumn {dataType : String} {requested : Option Int} {c : ColumnProfile}
    (made : profiler.profileColumn table column dataType
      (profiler.settings.clampSampleRows requested) = .ok c) : Bounded profiler table c := by
  obtain ⟨low, high, off⟩ := clampSampleRows_bounds profiler.settings requested
  generalize profiler.settings.clampSampleRows requested = wanted at made low high off
  unfold TableProfiler.profileColumn at made
  split at made
  · obtain rfl := Except.ok.inj made
    exact bounded_of_silent rfl rfl rfl
  · rename_i plain
    dsimp only at made
    split at made
    · cases made
    · obtain rfl := Except.ok.inj made
      exact bounded_of_silent rfl rfl rfl
    · rename_i stats frequent run
      obtain rfl := Except.ok.inj made
      obtain ⟨read, -, least, greatest, rows⟩ := runStats_ok run
      have samples : (if 0 < wanted then profiler.sample table column wanted.toNat else []).length ≤
            profiler.settings.sampleRows ∧
          ∀ text ∈ if 0 < wanted then profiler.sample table column wanted.toNat else [],
            text.length ≤ profiler.settings.maxValueChars := by
        split
        · obtain ⟨some, cut⟩ := sample_bounds profiler table column wanted.toNat
          exact ⟨by omega, cut⟩
        · exact ⟨Nat.zero_le _, fun text none => absurd none List.not_mem_nil⟩
      obtain ⟨values, distinct, found, often⟩ := freq_eq profiler.db profiler.settings
        (max profiler.settings.topK 1) (profiler.scanned table column)
      have size := length_freq_le profiler.db profiler.settings (max profiler.settings.topK 1)
        (profiler.scanned table column)
      have enough := profiler.settings.frequency_bounds.1
      constructor
      · exact fun sensitive => absurd sensitive plain
      · rw [rows]
        split
        · exact ⟨[], List.nodup_nil, rfl, fun v none => absurd none List.not_mem_nil⟩
        · refine ⟨values, distinct, ?_, fun v listed => ?_⟩
          · rw [found, List.map_map]
            rfl
          · obtain ⟨stored, times⟩ := often v listed
            exact ⟨stored, times, enough.trans times⟩
      · rw [rows]
        split
        · exact Nat.zero_le _
        · rw [List.length_map]
          omega
      · exact samples.1
      · intro none
        rw [off none]
        rfl
      · intro text quoted
        rcases List.mem_append.mp quoted with derived | sampled
        · rcases List.mem_append.mp derived with extreme | frequent
          · rw [least, greatest] at extreme
            rcases List.mem_append.mp extreme with low | high
            · exact length_of_mem_extremeText (Option.mem_toList.mp low)
            · exact length_of_mem_extremeText (Option.mem_toList.mp high)
          · obtain ⟨value, listed, rfl⟩ := List.mem_map.mp frequent
            rw [rows] at listed
            split at listed
            · cases listed
            · rw [found, List.map_map] at listed
              obtain ⟨v, -, rfl⟩ := List.mem_map.mp listed
              exact length_left_le _ _
        · exact samples.2 text sampled

omit [DecidableEq K] in
/-- The columns that are profiled are as many as the cap allows. -/
theorem length_selectColumns_le {requested : Option (List String)}
    {selected : List (String × String)} {omitted : Nat}
    (resolved : profiler.selectColumns table requested = .ok (selected, omitted)) :
    selected.length ≤ profiler.settings.maxColumns := by
  unfold TableProfiler.selectColumns at resolved
  obtain ⟨names, -, rest⟩ := Fallible.bind_ok_iff.mp resolved
  obtain ⟨types, -, last⟩ := Fallible.bind_ok_iff.mp rest
  obtain ⟨rfl, -⟩ := Prod.mk.inj (Except.ok.inj last)
  rw [List.length_map, List.length_take]
  exact min_le_left _ _

/-- The columns of a profile are those that are selected, each profiled. -/
theorem columns_of_profile {columns : Option (List String)} {sampleRows : Option Int}
    {report : TableProfile} (returned : profiler.profile table columns sampleRows = .ok report) :
    ∃ selected omitted, profiler.selectColumns report.table columns = .ok (selected, omitted) ∧
      selected.mapM (fun entry => profiler.profileColumn report.table entry.1 entry.2
        (profiler.settings.clampSampleRows sampleRows)) = .ok report.columns := by
  unfold TableProfiler.profile at returned
  obtain ⟨resolvedTable, -, selecting⟩ := Fallible.bind_ok_iff.mp returned
  obtain ⟨⟨selected, omitted⟩, resolved, profiling⟩ := Fallible.bind_ok_iff.mp selecting
  obtain ⟨profiles, made, estimating⟩ := Fallible.bind_ok_iff.mp profiling
  obtain ⟨estimate, -, last⟩ := Fallible.bind_ok_iff.mp estimating
  obtain rfl := Except.ok.inj last
  exact ⟨selected, omitted, resolved, made⟩

/-- Whatever is asked for and whatever the table holds, a profile has no more
columns than the cap, and each keeps to its bounds: nothing of a sensitive column
is quoted, frequent values stand for values that occur often enough, none is
quoted beyond the limits, and none is longer than the cap. -/
theorem profile_bounded (profiler : TableProfiler V K) (table : String)
    (columns : Option (List String)) (sampleRows : Option Int) {report : TableProfile}
    (returned : profiler.profile table columns sampleRows = .ok report) :
    report.columns.length ≤ profiler.settings.maxColumns ∧
      ∀ c ∈ report.columns, Bounded profiler report.table c := by
  obtain ⟨selected, omitted, resolved, made⟩ := columns_of_profile returned
  refine ⟨?_, fun c listed => ?_⟩
  · have size := length_selectColumns_le resolved
    have one := Fallible.length_of_mapM made
    omega
  · obtain ⟨entry, -, profiled⟩ := (Fallible.mem_of_mapM made).mp listed
    exact bounded_profileColumn profiled

private def cities : List (Option String) :=
  [some "Oslo", none, some "Oslo", some "Bern", some "Oslo", some "Oslo", some "Oslo"]

private def cityProfiler : TableProfiler String String where
  names := ⟨fun text => text, fun _ _ => none⟩
  quote text := text
  catalog := ⟨[("homes", ["city", "phone"])]⟩
  settings := ProfilingSettings.default
  sensitivePatterns := ["phone"]
  db :=
    { columnTypes := fun _ => .ok [("city", "text"), ("phone", "text")]
      rowEstimate := fun _ => .ok (some 7)
      rows := fun _ _ column => if column = "city" then .ok cities else .error ⟨"timeout"⟩
      key := fun text => text
      text := fun text => text
      least := fun _ => none
      greatest := fun _ => none
      collates := fun _ _ => true }

/-- A value that occurs five times is quoted, one that occurs once is not, and
nothing of a sensitive column. -/
theorem profile_bounded_homes : ∃ report, cityProfiler.profile "homes" none none = .ok report ∧
    report.columns.length ≤ 30 ∧ report.columns.map ColumnProfile.quoted = [["Oslo"], []] ∧
    ∀ c ∈ report.columns, Bounded cityProfiler report.table c := by
  have returned : (cityProfiler.profile "homes" none none).toOption.isSome = true := by
    decide
  cases made : cityProfiler.profile "homes" none none with
  | error e =>
    rw [made] at returned
    cases returned
  | ok report =>
    obtain ⟨few, bounded⟩ := profile_bounded cityProfiler "homes" none none made
    have quoted : ((cityProfiler.profile "homes" none none).toOption.map fun r =>
        r.columns.map ColumnProfile.quoted) = some [["Oslo"], []] := by decide
    rw [made] at quoted
    exact ⟨report, rfl, few, Option.some.inj quoted, bounded⟩

end Profiler
