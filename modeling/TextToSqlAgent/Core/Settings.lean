import TextToSqlAgent.Core.Python

/-!
# Execution settings

Limits on what one query may consume. The bounds of the fields and the check
of the ceilings are fields of the structure, so settings that break them cannot
be built.
-/

namespace Settings

open Python

structure ExecutionSettings where
  maxRowsDefault : Int
  maxRowsCeiling : Int
  statementTimeoutMs : Int
  statementTimeoutCeilingMs : Int
  maxEstimatedCost : PyFloat
  rows_pos : 1 ≤ maxRowsDefault
  rows_ceiling : maxRowsDefault ≤ maxRowsCeiling
  timeout_pos : 100 ≤ statementTimeoutMs
  timeout_ceiling : statementTimeoutMs ≤ statementTimeoutCeilingMs
  cost_pos : maxEstimatedCost.gt (.finite 0) = true

/-- The values used where the environment sets none. -/
def ExecutionSettings.default : ExecutionSettings where
  maxRowsDefault := 500
  maxRowsCeiling := 5000
  statementTimeoutMs := 30000
  statementTimeoutCeilingMs := 60000
  maxEstimatedCost := .finite 1000000
  rows_pos := by decide
  rows_ceiling := by decide
  timeout_pos := by decide
  timeout_ceiling := by decide
  cost_pos := by decide

variable (s : ExecutionSettings)

/-- Clamp a caller-supplied row limit. -/
def ExecutionSettings.clampRows (requested : Option Int) : Int :=
  match requested with
  | none => s.maxRowsDefault
  | some n => max 1 (min n s.maxRowsCeiling)

def ExecutionSettings.clampTimeoutMs (requested : Option Int) : Int :=
  match requested with
  | none => s.statementTimeoutMs
  | some n => max 100 (min n s.statementTimeoutCeilingMs)

/-- Whatever a caller asks for, the bound is at least one row and at most the
ceiling. -/
theorem clampRows_bounds (requested : Option Int) :
    1 ≤ s.clampRows requested ∧ s.clampRows requested ≤ s.maxRowsCeiling := by
  have low := s.rows_pos
  have high := s.rows_ceiling
  cases requested with
  | none => exact ⟨low, high⟩
  | some n =>
    rw [ExecutionSettings.clampRows]
    omega

/-! ## Profiling -/

/-- Bounds on what a table profile may read and what it may reveal. -/
structure ProfilingSettings where
  scanLimit : Nat
  maxColumns : Nat
  maxValueChars : Nat
  topK : Nat
  minValueFrequency : Nat
  allowValueSampling : Bool
  sampleRows : Nat
  timeoutMs : Nat
  scan_bounds : 1 ≤ scanLimit ∧ scanLimit ≤ 1000000
  columns_bounds : 1 ≤ maxColumns ∧ maxColumns ≤ 200
  chars_bounds : 1 ≤ maxValueChars ∧ maxValueChars ≤ 200
  topK_bound : topK ≤ 20
  frequency_bounds : 2 ≤ minValueFrequency ∧ minValueFrequency ≤ 100000
  sample_bound : sampleRows ≤ 20
  timeout_bounds : 100 ≤ timeoutMs ∧ timeoutMs ≤ 120000

/-- The values used where the environment sets none. -/
def ProfilingSettings.default : ProfilingSettings where
  scanLimit := 5000
  maxColumns := 30
  maxValueChars := 40
  topK := 5
  minValueFrequency := 5
  allowValueSampling := false
  sampleRows := 5
  timeoutMs := 10000
  scan_bounds := by decide
  columns_bounds := by decide
  chars_bounds := by decide
  topK_bound := by decide
  frequency_bounds := by decide
  sample_bound := by decide
  timeout_bounds := by decide

/-- Clamp a caller-supplied sample size. Zero unless explicitly allowed. -/
def ProfilingSettings.clampSampleRows (s : ProfilingSettings) (requested : Option Int) : Int :=
  if s.allowValueSampling then
    match requested with
    | none => s.sampleRows
    | some n => max 0 (min n s.sampleRows)
  else 0

/-- Whatever a caller asks for, no more rows than the setting's, and none where
sampling is off. -/
theorem clampSampleRows_bounds (s : ProfilingSettings) (requested : Option Int) :
    0 ≤ s.clampSampleRows requested ∧ s.clampSampleRows requested ≤ s.sampleRows ∧
      (s.allowValueSampling = false → s.clampSampleRows requested = 0) := by
  unfold ProfilingSettings.clampSampleRows
  cases s.allowValueSampling with
  | false => exact ⟨le_rfl, Int.natCast_nonneg _, fun _ => rfl⟩
  | true =>
    cases requested with
    | none =>
      rw [if_pos rfl]
      exact ⟨Int.natCast_nonneg _, le_rfl, fun off => by cases off⟩
    | some n =>
      rw [if_pos rfl]
      dsimp only
      exact ⟨by omega, by omega, fun off => by cases off⟩

end Settings
