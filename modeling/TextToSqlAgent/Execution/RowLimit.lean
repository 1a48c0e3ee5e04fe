import Mathlib.Data.List.DropRight
import TextToSqlAgent.Execution.Executor
import TextToSqlAgent.Validation.ReadOnlyGate

/-!
# What the row limit does to an accepted query

The validator takes the one statement among the pieces of a text, the executor
takes the first piece. Where these are the same, the bounded statement is the
accepted one but for its outermost limit, and the rows that come back are the
first of those the query yields.
-/

namespace RowLimit

open Python Syntax Catalog Settings Exceptions Validator ReadOnlyGate Executor

/-! ## Bounding keeps the statement -/

/-- Equal statements, but for the outermost limit. -/
def SameButLimit (root bounded : Node) : Prop :=
  bounded.kind = root.kind ∧
    (bounded.args.filter fun a => a.1 != "limit") = root.args.filter fun a => a.1 != "limit"

theorem limit_sameButLimit (root : Node) (count : Int) : SameButLimit root (root.limit count) := by
  refine ⟨rfl, ?_⟩
  simp [Node.limit, Node.setArg_args, List.filter_append]

theorem existingLimit_limit (root : Node) (count : Nat) :
    existingLimit (root.limit count) = some count := by
  have digits : ¬((count : Int) < 0) := by omega
  rw [existingLimit, Node.limit, Node.arg?_setArg_self, Node.limitNode, Node.intNode, if_neg digits]
  simp [Node.kind, Node.arg?, Node.args]

theorem passive_limitNode (count : Int) {m : Node} (occurs : m.Occurs (Node.limitNode count)) :
    Passive m := by
  have leaf : ∀ value : Nat, ∀ k, k.Occurs (.mk (.literal (.integer value)) []) → Passive k := by
    intro value k h
    rcases Node.occurs_iff.mp h with rfl | ⟨c, hc, -⟩
    · exact ⟨rfl, by simp [Node.kind]⟩
    · cases hc
  rcases Node.occurs_iff.mp occurs with rfl | ⟨c, hc, below⟩
  · exact ⟨rfl, by simp [Node.limitNode, Node.kind]⟩
  · obtain rfl : c = Node.intNode count := List.mem_singleton.mp hc
    rw [Node.intNode] at below
    split at below
    · rcases Node.occurs_iff.mp below with rfl | ⟨d, hd, deeper⟩
      · exact ⟨rfl, by simp [Node.kind]⟩
      · obtain rfl := List.mem_singleton.mp hd
        exact leaf _ m deeper
    · exact leaf _ m below

/-- A statement that passes the read-only check passes it with any limit. -/
theorem checkReadOnly_limit {sql : String} {root : Node} (passed : checkReadOnly sql root = none)
    (text : String) (count : Int) : checkReadOnly text (root.limit count) = none := by
  obtain ⟨allowed, passive, noInto⟩ := checkReadOnly_none_iff.mp passed
  refine checkReadOnly_none_iff.mpr ⟨allowed, ?_, ?_⟩
  · intro m occurs
    rcases Node.occurs_iff.mp occurs with rfl | ⟨c, hc, below⟩
    · exact passive root .here
    · rcases Node.children_setArg hc with rfl | old
      · exact passive_limitNode count below
      · exact passive m (.under old below)
  · rw [Node.limit, Node.arg?_setArg_ne _ _ (by decide), noInto]

/-! ## The statement the executor finds -/

variable {p : Platform} {catalog : SchemaCatalog} {sql : String} {root : Node}

/-- The parser skips white space around a text. -/
def IgnoresOuterSpace (p : Platform) : Prop := ∀ sql, p.parse (strip sql) = p.parse sql

/-- The text does not begin with an empty piece. -/
def FirstPieceHolds (p : Platform) (sql : String) : Prop :=
  ∃ statement rest, p.parse (strip sql) = .ok (some statement :: rest)

theorem parseOne_eq_some (spaces : IgnoresOuterSpace p) (statement : IsStatement p sql root)
    (first : FirstPieceHolds p sql) : parseOne p sql = some (.expression root) := by
  obtain ⟨statements, parsed, sole⟩ := statement
  obtain ⟨head, rest, headed⟩ := first
  obtain rfl : statements = some head :: rest := Except.ok.inj (parsed.symm.trans headed)
  have found : head = .expression root := by
    simpa using congrArg List.head? sole
  rw [parseOne, ← spaces, parsed, found]

theorem parseOne_eq_none (spaces : IgnoresOuterSpace p) (statement : IsStatement p sql root)
    (empty : ¬FirstPieceHolds p sql) : parseOne p sql = none := by
  obtain ⟨statements, parsed, -⟩ := statement
  rw [parseOne, ← spaces, parsed]
  match statements, parsed with
  | [], _ => rfl
  | none :: _, _ => rfl
  | some head :: rest, parsed => exact absurd ⟨head, rest, parsed⟩ empty

/-- Bounding a text gives the validated statement with another limit, which
still passes the read-only check. -/
def Bounds (p : Platform) (sql : String) (maxRows : Int) (root : Node) : Prop :=
  ∃ bounded result count, applyRowLimit p sql maxRows = .ok result ∧ result.sql = p.sql bounded ∧
    SameButLimit root bounded ∧ bounded.arg? "limit" = some (Node.limitNode count) ∧
    ∀ text, checkReadOnly text bounded = none

theorem applyRowLimit_root (passed : checkReadOnly sql root = none)
    (found : parseOne p sql = some (.expression root)) (maxRows : Int) :
    applyRowLimit p sql maxRows = .ok
      ⟨p.sql (root.limit ((effectiveLimit root maxRows).1 + 1)), (effectiveLimit root maxRows).1,
        (effectiveLimit root maxRows).2⟩ := by
  have allowed := (checkReadOnly_none_iff.mp passed).1
  simp [applyRowLimit, found, allowed]

/-- For every accepted text and every bound: the executor can bound the
validated statement exactly when the text does not begin with an empty piece. -/
theorem accepted_bounds_iff (spaces : IgnoresOuterSpace p) (maxRows : Int)
    (accepted : (validateStatic p catalog sql).valid = true) :
    ∃ root, IsStatement p sql root ∧ (Bounds p sql maxRows root ↔ FirstPieceHolds p sql) := by
  obtain ⟨root, statement, passed⟩ := valid_statement accepted
  refine ⟨root, statement, ?_, ?_⟩
  · rintro ⟨bounded, result, count, applied, -⟩
    by_contra empty
    simp [applyRowLimit, parseOne_eq_none spaces statement empty] at applied
  · intro first
    refine ⟨root.limit ((effectiveLimit root maxRows).1 + 1), _, _,
      applyRowLimit_root passed (parseOne_eq_some spaces statement first) maxRows, rfl,
      limit_sameButLimit .., Node.arg?_setArg_self .., ?_⟩
    intro text
    exact checkReadOnly_limit passed text _

private def selectOne : Node := .mk .select [("expressions", .mk (.literal (.integer 1)) [])]

/-- A parser that knows one statement, which it finds in its plain text and
after an empty piece. -/
private def onePlatform : Platform where
  casefold text := String.ofList (text.toList.map Char.toLower)
  closeMatch _ _ := none
  parse text :=
    if strip text = "SELECT 1" then .ok [some (.expression selectOne)]
    else if strip text = "; SELECT 1" then .ok [none, some (.expression selectOne)]
    else .error ""
  sql _ := "SELECT 1 LIMIT 6"
  str _ := ""
  float _ := none

private theorem onePlatform_spaces : IgnoresOuterSpace onePlatform := by
  intro sql
  simp only [onePlatform, strip_strip]

theorem accepted_bounds_iff_one :
    ∃ root, IsStatement onePlatform "SELECT 1" root ∧
      (Bounds onePlatform "SELECT 1" 5 root ↔ FirstPieceHolds onePlatform "SELECT 1") :=
  @accepted_bounds_iff onePlatform ⟨[]⟩ "SELECT 1" onePlatform_spaces 5 (by decide)

/-- A semicolon before an accepted statement makes the executor refuse it. -/
theorem accepted_not_bounded :
    IgnoresOuterSpace onePlatform ∧
      (validateStatic onePlatform ⟨[]⟩ "; SELECT 1").valid = true ∧
      IsStatement onePlatform "; SELECT 1" selectOne ∧
      applyRowLimit onePlatform "; SELECT 1" 5 =
        .error { cls := .executionError
                 message := "the query could not be parsed to apply a row limit" } :=
  ⟨onePlatform_spaces, by decide, ⟨_, rfl, rfl⟩, by decide⟩

/-! ## The rows that come back -/

variable {Cell : Type} {db : Database Cell} {settings : ExecutionSettings}

/-- The outermost limit is absent or a plain integer. -/
def Readable (root : Node) : Prop :=
  root.arg? "limit" = none ∨ (existingLimit root).isSome = true

/-- The outermost limit is a `LIMIT` that is no plain integer. -/
def Computed (root : Node) : Prop :=
  ∃ node, root.arg? "limit" = some node ∧ node.kind = .limit ∧ existingLimit root = none

/-- How the database answers a query: `own` rows to the query as it stands, out
of the `all` it would give without an outermost limit, and the first of these
where the limit is replaced. -/
structure Yields (p : Platform) (db : Database Cell) (timeout : Int) (sql : String) (root : Node)
    (columns : List String) (all own : List (List Cell)) : Prop where
  itself : db.query timeout sql = .ok (columns, own)
  bounded : ∀ count : Nat,
    db.query timeout (p.sql (root.limit count)) = .ok (columns, all.take count)
  unlimited : root.arg? "limit" = none → own = all
  literal : ∀ value, existingLimit root = some value → own = all.take value
  front : own <+: all

/-- The rows kept, and the flag, are those of bounding `counted` rows. -/
def BoundedTo (bound : Nat) (counted : List (List Cell)) (result : QueryResult Cell) : Prop :=
  result.rows = counted.take bound ∧ (result.truncated = true ↔ bound < counted.length)

/-- What is kept of one row more than the limit in force. -/
theorem keepRows_take (sql : String) (effective : Nat) (serverCapped : Bool)
    (all : List (List Cell)) :
    keepRows ⟨sql, effective, serverCapped⟩ (all.take (effective + 1)) =
      (all.take effective, decide (effective < all.length) && serverCapped) := by
  simp [keepRows, List.take_take]

/-- The rows kept under a limit that is the query's own or the server's. -/
theorem boundedTo_literal (all : List (List Cell)) (value bound : Nat) :
    all.take (min value bound) = (all.take value).take bound ∧
      ((decide (min value bound < all.length) && decide (bound < value)) = true ↔
        bound < (all.take value).length) := by
  constructor
  · rw [List.take_take, Nat.min_comm]
  · rw [Bool.and_eq_true, decide_eq_true_iff, decide_eq_true_iff, List.length_take]
    omega

section Execute

variable {validation : ValidationResult} {maxRows timeoutMs : Option Int} {caller : Caller}
variable {columns : List String} {all own : List (List Cell)}

/-- A call that gets as far as its rows. -/
theorem execute_result (accepted : validate p db settings catalog sql = .ok validation)
    (valid : validation.valid = true) (passed : checkReadOnly sql root = none)
    (found : parseOne p sql = some (.expression root)) {effective : Nat} {serverCapped : Bool}
    (limits : effectiveLimit root (settings.clampRows maxRows) = ((effective : Int), serverCapped))
    (answers : db.query (settings.clampTimeoutMs timeoutMs)
      (p.sql (root.limit (effective + 1 : Nat))) = .ok (columns, all.take (effective + 1))) :
    (execute p db settings catalog sql maxRows timeoutMs caller).result = .ok
      { columns, rows := all.take effective, rowCount := (all.take effective).length,
        truncated := decide (effective < all.length) && serverCapped,
        executedSql := p.sql (root.limit (effective + 1 : Nat)), rowLimit := effective,
        estimatedCost := validation.estimatedCost } := by
  have bounded := applyRowLimit_root passed found (settings.clampRows maxRows)
  simp only [limits] at bounded
  simp only [execute, accepted, valid, Bool.true_eq_false, if_false, bounded]
  push_cast at answers ⊢
  simp only [runBounded, answers, keepRows_take]

end Execute

private def sumText : String := "SELECT id FROM orders LIMIT (1 + 1)"

private def sumTree : Node :=
  let one : Node := .mk (.literal (.integer 1)) []
  let sum : Node := .mk (.other "add" "") [("this", one), ("expression", one)]
  .mk .select [
    ("expressions", .mk .column [("this", .mk (.identifier "id") [])]),
    ("from", .mk (.other "from" "")
      [("this", .mk .table [("this", .mk (.identifier "orders") [])])]),
    ("limit", .mk .limit [("expression", .mk (.other "paren" "") [("this", sum)])])]

private def sumPlatform : Platform where
  casefold text := String.ofList (text.toList.map Char.toLower)
  closeMatch _ _ := none
  parse text := if strip text = sumText then .ok [some (.expression sumTree)] else .error ""
  sql n :=
    match existingLimit n with
    | some value => "SELECT id FROM orders LIMIT " ++ toString value
    | none => sumText
  str _ := ""
  float
    | .float x => some x
    | _ => none

/-- Three orders; the number a statement ends in is how many of them it asks
for. -/
private def orders : Database Nat where
  explain _ _ := .ok (some (.arr [.obj [("Plan", .obj [("Node Type", .str "Limit"),
    ("Total Cost", .float (.finite 2))])]]))
  query _ text :=
    if text = sumText then .ok (["id"], [[1], [2]])
    else
      let count := Nat.ofDigitChars 10 (text.toList.drop 28) 0
      .ok (["id"], [[1], [2], [3]].take count)

private theorem sumYields :
    Yields sumPlatform orders 30000 sumText sumTree ["id"] [[1], [2], [3]] [[1], [2]] where
  itself := rfl
  bounded := by
    intro count
    have printed : sumPlatform.sql (sumTree.limit count) =
        "SELECT id FROM orders LIMIT " ++ toString count := by
      simp only [sumPlatform, existingLimit_limit]
    have other : "SELECT id FROM orders LIMIT " ++ toString count ≠ sumText := by
      intro same
      have tails := congrArg (fun text => text.toList.drop 28) same
      have digits : Nat.toDigits 10 count = "(1 + 1)".toList := by
        simpa [sumText, Nat.toList_repr] using tails
      have bracket : '(' ∈ Nat.toDigits 10 count := by rw [digits]; decide
      exact absurd (Nat.isDigit_of_mem_toDigits (by omega) (by omega) bracket) (by decide)
    rw [printed]
    simp only [orders, if_neg other]
    simp [Nat.toList_repr]
  unlimited absent := by cases absent
  literal value present := by cases present
  front := ⟨[[3]], rfl⟩

private theorem sumAccepted :
    validate sumPlatform orders ExecutionSettings.default ⟨[]⟩ sumText =
      .ok { valid := true, sql := sumText, estimatedCost := some (.finite 2),
            planSummary := some "", tables := ["orders"] } := by
  decide

private theorem sumFirst : FirstPieceHolds sumPlatform sumText := ⟨.expression sumTree, [], rfl⟩

private theorem sumPlatform_spaces : IgnoresOuterSpace sumPlatform := by
  intro sql
  simp only [sumPlatform, strip_strip]

end RowLimit
