import TextToSqlAgent.Validation.Validator

/-!
# What the read-only gate keeps out

A statement is harmless when no node of it writes, locks rows or creates a
table. The walk sees every node, but the `INTO` of a `SELECT` is looked up at
the root only, so harmlessness comes down to the `SELECT`s below the root.
-/

namespace ReadOnlyGate

open Python Syntax Catalog Validator

/-- A `SELECT` that carries an `INTO` target, which creates a table. -/
def SelectsInto (n : Node) : Prop := n.kind = .select ∧ (n.arg? "into").isSome = true

/-- A node that neither writes nor locks. -/
def Passive (n : Node) : Prop := forbiddenNode n.kind = false ∧ n.kind ≠ .lock

def Harmless (root : Node) : Prop := ∀ m, m.Occurs root → Passive m ∧ ¬SelectsInto m

/-- The one statement of a text, as validation finds it. -/
def IsStatement (p : Platform) (sql : String) (root : Node) : Prop :=
  ∃ statements, p.parse (strip sql) = .ok statements ∧
    statements.filterMap id = [.expression root]

variable {p : Platform} {catalog : SchemaCatalog} {sql : String} {root : Node}

theorem isStatement_unique {other : Node} (one : IsStatement p sql root)
    (two : IsStatement p sql other) : root = other := by
  obtain ⟨statements, parsed, sole⟩ := one
  obtain ⟨statements', parsed', sole'⟩ := two
  obtain rfl : statements = statements' := Except.ok.inj (parsed.symm.trans parsed')
  rw [sole] at sole'
  simpa only [List.cons.injEq, Statement.expression.injEq, and_true] using sole'

theorem nodeFailure_none_iff (n : Node) : nodeFailure sql n = none ↔ Passive n := by
  rw [nodeFailure, Passive]
  split
  · simp_all
  · split <;> simp_all

/-- The walk of a statement finds nothing exactly when all its nodes are
passive. -/
theorem walk_findSome_none_iff (sql : String) :
    root.walk.findSome? (nodeFailure sql) = none ↔ ∀ m, m.Occurs root → Passive m := by
  rw [List.findSome?_eq_none_iff]
  simp only [nodeFailure_none_iff, Node.mem_walk]

theorem checkReadOnly_none_iff :
    checkReadOnly sql root = none ↔ allowedRoot root.kind = true ∧
      (∀ m, m.Occurs root → Passive m) ∧ root.arg? "into" = none := by
  rw [checkReadOnly, ← walk_findSome_none_iff sql]
  cases allowed : allowedRoot root.kind with
  | false => simp
  | true =>
    cases found : root.walk.findSome? (nodeFailure sql) with
    | some failure => simp
    | none => cases into : root.arg? "into" <;> simp

theorem nodeFailure_invalid {n : Node} {failure : ValidationResult}
    (failed : nodeFailure sql n = some failure) : failure.valid = false := by
  rw [nodeFailure] at failed
  split at failed
  · exact Option.some.inj failed ▸ fail_valid ..
  · split at failed
    · exact Option.some.inj failed ▸ fail_valid ..
    · cases failed

/-- Every failure of the read-only check is one. -/
theorem checkReadOnly_invalid {failure : ValidationResult}
    (failed : checkReadOnly sql root = some failure) : failure.valid = false := by
  rw [checkReadOnly] at failed
  split at failed
  · exact Option.some.inj failed ▸ fail_valid ..
  · split at failed
    · rename_i found
      obtain ⟨n, -, atNode⟩ := List.exists_of_findSome?_eq_some found
      exact Option.some.inj failed ▸ nodeFailure_invalid atNode
    · split at failed
      · exact Option.some.inj failed ▸ fail_valid ..
      · cases failed

theorem checkStatement_valid (valid : (checkStatement p catalog sql root).valid = true) :
    checkReadOnly sql root = none := by
  cases check : checkReadOnly sql root with
  | none => rfl
  | some failure =>
    simp [checkStatement, check, checkReadOnly_invalid check] at valid

/-- What an accepted text is: one statement that the read-only check passes. -/
theorem valid_statement (accepted : (validateStatic p catalog sql).valid = true) :
    ∃ root, IsStatement p sql root ∧ checkReadOnly sql root = none := by
  rw [validateStatic] at accepted
  split at accepted
  · cases accepted
  · split at accepted
    · cases accepted
    · cases parsed : p.parse (strip sql) with
      | error problem => simp [parsed] at accepted
      | ok statements =>
        simp only [parsed] at accepted
        split at accepted
        · rename_i root sole
          exact ⟨root, ⟨statements, parsed, sole⟩, checkStatement_valid accepted⟩
        · cases accepted
        · cases accepted

/-- What all five stages accept, the first four do. -/
theorem validate_static_valid {Cell : Type} {db : Database Cell}
    {settings : Settings.ExecutionSettings} {validation : ValidationResult}
    (accepted : validate p db settings catalog sql = .ok validation)
    (valid : validation.valid = true) : (validateStatic p catalog sql).valid = true := by
  by_contra refused
  simp only [validate, refused] at accepted
  exact refused (Except.ok.inj accepted ▸ valid)

/-- What the check establishes of a statement: all it should, but for the
`SELECT`s below the root. -/
theorem harmless_iff (passed : checkReadOnly sql root = none) :
    Harmless root ↔ ∀ m, m.Inside root → ¬SelectsInto m := by
  obtain ⟨-, passive, noInto⟩ := checkReadOnly_none_iff.mp passed
  constructor
  · intro harmless m inside
    exact (harmless m (Node.occurs_iff.mpr (Or.inr inside))).2
  · intro inner m occurs
    refine ⟨passive m occurs, ?_⟩
    rcases Node.occurs_iff.mp occurs with rfl | inside
    · intro into
      simpa [noInto] using into.2
    · exact inner m inside

/-- For every accepted text: the statement writes nothing, locks nothing and
creates no table exactly when no `SELECT` below its root carries an `INTO`. -/
theorem accepted_harmless_iff (accepted : (validateStatic p catalog sql).valid = true) :
    ∃ root, IsStatement p sql root ∧
      (Harmless root ↔ ∀ m, m.Inside root → ¬SelectsInto m) := by
  obtain ⟨root, statement, passed⟩ := valid_statement accepted
  exact ⟨root, statement, harmless_iff passed⟩

private def stolenText : String :=
  "SELECT id AS stolen INTO stolen FROM customers UNION SELECT id FROM customers"

private def namedTable (name : String) : Node := .mk .table [("this", .mk (.identifier name) [])]

private def idColumn : Node := .mk .column [("this", .mk (.identifier "id") [])]

private def fromCustomers : String × Node :=
  ("from", .mk (.other "from" "") [("this", namedTable "customers")])

private def leftArm : Node :=
  .mk .select [
    ("expressions", .mk .alias [("this", idColumn), ("alias", .mk (.identifier "stolen") [])]),
    ("into", .mk .into [("this", namedTable "stolen")]), fromCustomers]

private def stolenTree : Node :=
  .mk .union [("this", leftArm),
    ("expression", .mk .select [("expressions", idColumn), fromCustomers])]

private def customersCatalog : SchemaCatalog := ⟨[("customers", ["id"])]⟩

private def stolenPlatform : Platform where
  casefold text := String.ofList (text.toList.map Char.toLower)
  closeMatch _ _ := none
  parse text := if text = stolenText then .ok [some (.expression stolenTree)] else .error ""
  sql _ := stolenText
  str _ := ""
  float _ := none

theorem accepted_harmless_iff_union :
    ∃ root, IsStatement stolenPlatform stolenText root ∧
      (Harmless root ↔ ∀ m, m.Inside root → ¬SelectsInto m) :=
  @accepted_harmless_iff stolenPlatform customersCatalog stolenText (by decide)

/-- The left arm of an accepted `UNION` creates a table. -/
theorem accepted_union_creates_table :
    (validateStatic stolenPlatform customersCatalog stolenText).valid = true ∧
      IsStatement stolenPlatform stolenText stolenTree ∧ ¬Harmless stolenTree := by
  refine ⟨by decide, ⟨[some (.expression stolenTree)], rfl, rfl⟩, ?_⟩
  intro harmless
  have below : leftArm.Occurs stolenTree :=
    Node.occurs_iff.mpr (Or.inr ⟨leftArm, by simp [stolenTree, Node.tree, Node.children, Node.args],
      .here⟩)
  exact (harmless leftArm below).2 ⟨rfl, rfl⟩

end ReadOnlyGate
