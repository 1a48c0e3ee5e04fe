import TextToSqlAgent.Library.Arrangements
import TextToSqlAgent.Library.Counting
import TextToSqlAgent.Validation.Validator
import TextToSqlAgent.Evals.Canonical

/-!
# Does a result mean the same as the gold one?

Column names and the order of columns are ignored, so comparison is a search for
a bijection between predicted and gold columns. The search is pruned by what the
columns hold, and gives way to a positional match above a width.
-/

namespace Compare

open Python Exceptions Canonical Arrangements Validator

/-- Above this width, columns are matched positionally instead of searched. -/
def maxColumnsForPermutation : Nat := 8

inductive Verdict
  | matched
  | shapeMismatch
  | valueMismatch
  | orderMismatch
  | noColumnBijection
  deriving DecidableEq, Repr

def Verdict.value : Verdict → String
  | matched => "match"
  | shapeMismatch => "shape_mismatch"
  | valueMismatch => "value_mismatch"
  | orderMismatch => "order_mismatch"
  | noColumnBijection => "no_column_bijection"

/-- The outcome, with enough detail to debug a wrong score. -/
structure Comparison where
  verdict : Verdict
  matched : Bool
  detail : String := ""
  orderEnforced : Bool := false
  positionalFallback : Bool := false
  deriving DecidableEq, Repr

variable (p : Platform) (repr : Canon → String)

/-- Whether the reference query asked for a row order: an `ORDER BY` on its
root. Among the classes outside `Expression` none takes that argument. -/
def orderMatters (goldSql : Option String) : Bool :=
  match goldSql with
  | none => false
  | some sql =>
    if sql = "" then false
    else
      match parseOne p sql with
      | some (.expression root) => (root.arg? "order").isSome
      | _ => false

/-- `order_matters` overrides the inspection of the reference query. -/
def enforced (goldSql : Option String) (order : Option Bool) : Bool :=
  match order with
  | some b => b
  | none => orderMatters p goldSql

/-- The canonical columns of a result. -/
def columnsOf (rows : List (List PyValue)) (width : Nat) : Except Raised (List (List Canon)) :=
  (List.range width).mapM fun i => rows.mapM fun row => canonical (row.getD i default)

/-- A column's contents, ignoring row order. -/
def signatureUnordered (column : List Canon) : List (Canon × Nat) :=
  Counting.sortBy (fun item => repr item.1) (Counting.items column)

def signatureOrdered (column : List Canon) : List Canon := column

/-- The orderings worth testing under a signature: the one that is there, and
those that put on each place a column of the signature wanted there. -/
def orderingsBy {σ : Type} [DecidableEq σ] (signature : List Canon → σ)
    (pred gold : List (List Canon)) : List (List (List Canon)) :=
  let goldSignatures := gold.map signature
  let predSignatures := pred.map signature
  pred ::
    if goldSignatures.isPerm predSignatures then
      ((permutations pred.length (List.range pred.length)).filter fun order =>
        (List.range order.length).all fun i =>
          predSignatures[order.getD i 0]? = goldSignatures[i]?).map (arrange · pred)
    else []

def candidateOrderings (ordered : Bool) (pred gold : List (List Canon)) :
    List (List (List Canon)) :=
  if ordered then orderingsBy signatureOrdered pred gold
  else orderingsBy (signatureUnordered repr) pred gold

/-- Row-wise, once the columns are aligned; duplicates are significant. -/
def rowsEqual (ordered : Bool) (pred gold : List (List Canon)) : Bool :=
  let predRows := zipColumns pred
  let goldRows := zipColumns gold
  if ordered then predRows = goldRows else predRows.isPerm goldRows

/-- Separates "wrong values" from "right values, wrong order". -/
def diagnose (ordered : Bool) (pred gold : List (List Canon)) : Verdict :=
  if ordered && rowsEqual false pred gold then .orderMismatch
  else
    let unorderedPred := pred.map (signatureUnordered repr)
    let unorderedGold := gold.map (signatureUnordered repr)
    if unorderedPred.isPerm unorderedGold then .valueMismatch else .noColumnBijection

def explain (ordered : Bool) (pred gold : List (List Canon)) : String :=
  if ordered && rowsEqual false pred gold then
    "same rows in a different order, and the gold query is ordered"
  else "no assignment of predicted columns to gold columns matches"

/-- The comparison of two results of the same number of rows and one width. -/
def compareColumns (order : Bool) (width : Nat) (pred gold : List (List Canon)) : Comparison :=
  if width > maxColumnsForPermutation then
    let matched := rowsEqual order pred gold
    { verdict := if matched then .matched else .valueMismatch
      matched := matched
      detail := if matched then "" else s!"no positional match across {width} columns"
      orderEnforced := order
      positionalFallback := true }
  else if (candidateOrderings repr order pred gold).any fun c => rowsEqual order c gold then
    { verdict := .matched, matched := true, orderEnforced := order }
  else
    { verdict := diagnose repr order pred gold
      matched := false
      detail := explain order pred gold
      orderEnforced := order }

/-- Compares two results; it raises where a cell has no canonical form. -/
def compare (predicted gold : List (List PyValue)) (goldSql : Option String := none)
    (order : Option Bool := none) : Except Raised Comparison :=
  let enforced := enforced p goldSql order
  if predicted.length ≠ gold.length then
    .ok { verdict := .shapeMismatch
          matched := false
          detail := s!"{predicted.length} rows, expected {gold.length}"
          orderEnforced := enforced }
  else
    match gold with
    | [] => .ok { verdict := .matched, matched := true, orderEnforced := enforced }
    | first :: _ =>
      let width := first.length
      if (gold.any fun row => row.length ≠ width) || (predicted.any fun row => row.length ≠ width)
      then
        .ok { verdict := .shapeMismatch
              matched := false
              detail := "ragged rows"
              orderEnforced := enforced }
      else do
        let predColumns ← columnsOf predicted width
        let goldColumns ← columnsOf gold width
        return compareColumns repr enforced width predColumns goldColumns

end Compare
