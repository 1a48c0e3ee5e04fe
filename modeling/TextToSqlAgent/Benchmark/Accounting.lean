import TextToSqlAgent.Benchmark.Verify

/-!
# Which checks a report counts

A report sums its checks up by sets of outcomes, each written by hand. The set of
the comparable outcomes and that of the unscoreable ones are apart, and two
outcomes are in neither: a statement that could not be rendered, and one that
PostgreSQL rejected because something was not created.
-/

namespace Verify

/-- `check.outcome in (Outcome.MATCH, Outcome.AMBIGUOUS_ORDER)`. -/
def QueryCheck.isMatched (check : QueryCheck) : Bool :=
  [Outcome.matched, Outcome.ambiguousOrder].contains check.outcome

/-- The outcomes a report calls unscoreable. -/
def QueryCheck.isUnscoreable (check : QueryCheck) : Bool :=
  [Outcome.goldError, Outcome.dialectError, Outcome.undeterminedLimit].contains check.outcome

/-- The members of `Outcome`, in the order in which the class lists them. -/
def outcomes : List Outcome :=
  [.matched, .mismatch, .goldError, .transpileError, .dialectError, .ambiguousOrder,
    .undeterminedLimit, .postgresError]

theorem mem_outcomes (outcome : Outcome) : outcome ∈ outcomes := by
  cases outcome <;> decide

namespace VerificationReport

/-- Queries that ran on both sides. -/
def comparable (report : VerificationReport) : Nat := report.checks.countP QueryCheck.isComparable

def matched (report : VerificationReport) : Nat := report.checks.countP QueryCheck.isMatched

/-- Queries with no PostgreSQL answer: benchmark defects and dialect gaps. -/
def unscoreable (report : VerificationReport) : Nat :=
  report.checks.countP QueryCheck.isUnscoreable

/-- Queries whose gold `ORDER BY` does not determine the row order. -/
def ambiguous (report : VerificationReport) : Nat :=
  report.checks.countP fun check => check.outcome = .ambiguousOrder

/-- A conversion is verified only if every comparable query agreed. -/
def verified (report : VerificationReport) : Bool :=
  decide (0 < report.comparable) && report.matched == report.comparable

def counts (report : VerificationReport) : List (String × Nat) :=
  outcomes.map fun outcome =>
    (outcome.value, report.checks.countP fun check => check.outcome = outcome)

end VerificationReport

end Verify

namespace Accounting

open Verify

/-- A statement that could not be rendered, or one PostgreSQL rejected because
something was not created. -/
def isUncounted (check : QueryCheck) : Bool :=
  [Outcome.transpileError, Outcome.postgresError].contains check.outcome

def isMismatch (check : QueryCheck) : Bool := check.outcome = .mismatch

/-- What is counted in one of two ways is counted in sum. -/
theorem countP_eq_add {α : Type*} {p q r : α → Bool} {l : List α}
    (split : ∀ a ∈ l, (p a).toNat = (q a).toNat + (r a).toNat) :
    l.countP p = l.countP q + l.countP r := by
  induction l with
  | nil => rfl
  | cons a rest hyp =>
    have own := split a List.mem_cons_self
    have others := hyp fun b listed => split b (List.mem_cons_of_mem a listed)
    have bit : ∀ b : Bool, (if b = true then 1 else 0) = b.toNat := by decide
    simp only [List.countP_cons, bit]
    omega

/-- A comparable check agrees or is a mismatch. -/
theorem comparable_eq (report : VerificationReport) :
    report.comparable = report.matched + report.checks.countP isMismatch := by
  refine countP_eq_add fun check _ => ?_
  simp only [QueryCheck.isComparable, QueryCheck.isMatched, isMismatch]
  cases check.outcome <;> decide

theorem length_checks (report : VerificationReport) :
    report.checks.length =
      report.comparable + report.unscoreable + report.checks.countP isUncounted := by
  have counted : report.checks.countP (fun _ => true) = report.checks.length := by simp
  have outer : report.checks.countP (fun check => check.isComparable || check.isUnscoreable) =
      report.comparable + report.unscoreable := by
    refine countP_eq_add fun check _ => ?_
    simp only [QueryCheck.isComparable, QueryCheck.isUnscoreable]
    cases check.outcome <;> decide
  rw [← counted, ← outer]
  refine countP_eq_add fun check _ => ?_
  simp only [QueryCheck.isComparable, QueryCheck.isUnscoreable, isUncounted]
  cases check.outcome <;> decide

/-- Counting outcome by outcome leaves no check out. -/
theorem sum_counts (report : VerificationReport) :
    (report.counts.map Prod.snd).sum = report.checks.length := by
  simp only [VerificationReport.counts, List.map_map, Function.comp_def]
  induction report.checks with
  | nil => rfl
  | cons check rest hyp =>
    have own : (outcomes.map fun outcome => if check.outcome = outcome then 1 else 0).sum = 1 := by
      cases check.outcome <;> decide
    simp only [List.countP_cons, decide_eq_true_eq, List.sum_map_add, hyp, own, List.length_cons]

theorem verified_iff (report : VerificationReport) :
    report.verified = true ↔
      0 < report.comparable ∧ ∀ check ∈ report.checks, check.outcome ≠ .mismatch := by
  have split := comparable_eq report
  have none_ : report.checks.countP isMismatch = 0 ↔
      ∀ check ∈ report.checks, check.outcome ≠ .mismatch := by
    simp [List.countP_eq_zero, isMismatch]
  simp only [VerificationReport.verified, Bool.and_eq_true, decide_eq_true_eq, beq_iff_eq]
  rw [← none_]
  omega

/-- What a report owes its reader: every check is counted by exactly one of the
two numbers, which then cover them all, and nothing the conversion is to blame
for is passed over. -/
structure Accounts (report : VerificationReport) : Prop where
  once : ∀ check ∈ report.checks, (check.isComparable ^^ check.isUnscoreable) = true
  covered : report.comparable + report.unscoreable = report.checks.length
  blameless : report.verified = true →
    ∀ check ∈ report.checks, check.outcome ≠ .mismatch ∧ check.outcome ≠ .postgresError

theorem once_iff (check : QueryCheck) :
    (check.isComparable ^^ check.isUnscoreable) = true ↔
      check.outcome ≠ .transpileError ∧ check.outcome ≠ .postgresError := by
  simp only [QueryCheck.isComparable, QueryCheck.isUnscoreable]
  cases check.outcome <;> decide

/-- A verified report hides a conversion fault when PostgreSQL missed what a
statement asked for, and another statement agreed. -/
theorem blameless_iff (report : VerificationReport) :
    (report.verified = true →
        ∀ check ∈ report.checks, check.outcome ≠ .mismatch ∧ check.outcome ≠ .postgresError) ↔
      (report.verified = true → ∀ check ∈ report.checks, check.outcome ≠ .postgresError) := by
  constructor
  · intro blameless verified check listed
    exact (blameless verified check listed).2
  · intro created verified check listed
    exact ⟨((verified_iff report).mp verified).2 check listed, created verified check listed⟩

/-- The totals hold up exactly when every statement that SQLite ran could be
rendered and PostgreSQL missed nothing it asked for. -/
theorem accounts_iff (report : VerificationReport) :
    Accounts report ↔ ∀ check ∈ report.checks,
      check.outcome ≠ .transpileError ∧ check.outcome ≠ .postgresError := by
  constructor
  · intro accounts check listed
    exact (once_iff check).mp (accounts.once check listed)
  · intro counted
    constructor
    case once =>
      intro check listed
      exact (once_iff check).mpr (counted check listed)
    case covered =>
      have none_ : report.checks.countP isUncounted = 0 := by
        simpa [List.countP_eq_zero, isUncounted] using counted
      have total := length_checks report
      omega
    case blameless =>
      exact (blameless_iff report).mpr fun _ check listed => (counted check listed).2

/-- One query agreed and another found no table: the report is verified, and the
second query is in neither number. -/
theorem missing_table_verified :
    let report : VerificationReport :=
      ⟨"concert_singer", "spider_concert_singer",
        [⟨"q1", .matched, "SELECT 1"⟩, ⟨"q2", .postgresError, "SELECT name FROM singer"⟩]⟩
    report.verified = true ∧ report.comparable + report.unscoreable = 1 ∧
      ¬Accounts report := by
  refine ⟨by decide, by decide, fun accounts => ?_⟩
  have covered := accounts.covered
  revert covered
  decide

end Accounting
