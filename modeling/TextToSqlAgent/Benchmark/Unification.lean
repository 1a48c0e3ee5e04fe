import TextToSqlAgent.Benchmark.Retyping
import TextToSqlAgent.Library.Propagation

/-!
# Foreign keys as links between columns

Types rise from text to numbers, and a pair of columns of a key raises the lower
of the two where its values fit. Whatever the tables and the keys, one pass is
made over these links, in the order of their listing.
-/

namespace Unification

open Python Exceptions SqliteSource Plan Retyping Propagation

/-! ## Types in order -/

/-- A text can become a number and an integer a double; bytes stay bytes. -/
def rises : PgType → PgType → Bool
  | .text, .bytea => false
  | .text, _ => true
  | .bigint, .bigint => true
  | .bigint, .double => true
  | .double, .double => true
  | .bytea, .bytea => true
  | _, _ => false

instance : PartialOrder PgType where
  le x y := rises x y = true
  le_refl x := by cases x <;> rfl
  le_trans x y z := by cases x <;> cases y <;> cases z <;> decide
  le_antisymm x y := by cases x <;> cases y <;> decide

instance : DecidableLE PgType := fun x y => inferInstanceAs (Decidable (rises x y = true))

instance : DecidableLT PgType := fun x y => inferInstanceAs (Decidable (x ≤ y ∧ ¬y ≤ x))

theorem unifiedType_of_lt {x y : PgType} (below : x < y) : unifiedType x y = some y := by
  revert below
  cases x <;> cases y <;> decide

theorem unifiedType_of_gt {x y : PgType} (above : y < x) : unifiedType x y = some x := by
  revert above
  cases x <;> cases y <;> decide

theorem unifiedType_of_apart {x y : PgType} (below : ¬x < y) (above : ¬y < x) :
    unifiedType x y = none := by
  revert below above
  cases x <;> cases y <;> decide

theorem not_lt_of_bytes (x : PgType) : ¬x < .bytea ∧ ¬.bytea < x := by cases x <;> decide

/-! ## Columns and links -/

/-- The target names of a table and of a column of it. -/
abbrev Key : Type := String × String

/-- Every column by its key, with the source of its table. -/
def cells (plans : List TablePlan) : List (Key × (String × ColumnPlan)) :=
  plans.flatMap fun plan => plan.columns.map fun column =>
    ((plan.targetName, column.targetName), (plan.sourceName, column))

def column? (plans : List TablePlan) (key : Key) : Option (String × ColumnPlan) :=
  (Dictionary.ofList (cells plans)).get? key

/-- The type a column has in its plan. What is not there takes part in nothing,
as bytes do. -/
def inferred (plans : List TablePlan) (key : Key) : PgType :=
  match column? plans key with
  | some place => place.2.pgType
  | none => .bytea

variable (numerals : Numerals) (database : SqliteDatabase)

/-- The test of `valuesFit`. -/
def tested (place : String × ColumnPlan) (pgType : PgType) : Except Raised Bool :=
  let scan := database.rows place.1 [place.2.sourceName]
  allFit numerals pgType scan.failure scan.rows

def Fits (plans : List TablePlan) (key : Key) (pgType : PgType) : Prop :=
  ∃ place, column? plans key = some place ∧ tested numerals database place pgType = .ok true

/-- The pairs of columns of all keys, in their order. -/
def links (plans : List TablePlan) : List (Key × Key) :=
  plans.flatMap fun plan => plan.foreignKeys.flatMap fun key =>
    (key.columns.zip key.referencedColumns).map fun pair =>
      ((plan.targetName, pair.1), (key.referencedTable, pair.2))

/-- Names are not given twice, and keys have as many columns as they refer to. -/
structure WellNamed (plans : List TablePlan) : Prop where
  tables : (plans.map TablePlan.targetName).Nodup
  columns : ∀ plan ∈ plans, (plan.columns.map ColumnPlan.targetName).Nodup
  pairs : ∀ plan ∈ plans, ∀ key ∈ plan.foreignKeys,
    key.columns.length = key.referencedColumns.length

variable {numerals database} {plans : List TablePlan}

theorem mem_cells_iff {key : Key} {place : String × ColumnPlan} :
    (key, place) ∈ cells plans ↔ ∃ plan ∈ plans, plan.targetName = key.1 ∧
      plan.sourceName = place.1 ∧ place.2 ∈ plan.columns ∧ place.2.targetName = key.2 := by
  obtain ⟨table, name⟩ := key
  obtain ⟨source, column⟩ := place
  simp only [cells, List.mem_flatMap, List.mem_map, Prod.mk.injEq]
  constructor
  · rintro ⟨plan, listed, twin, member, ⟨tables, names⟩, sources, rfl⟩
    exact ⟨plan, listed, tables, sources, member, names⟩
  · rintro ⟨plan, listed, tables, sources, member, names⟩
    exact ⟨plan, listed, column, member, ⟨tables, names⟩, sources, rfl⟩

theorem WellNamed.nodup_cells (wellNamed : WellNamed plans) :
    ((cells plans).map Prod.fst).Nodup := by
  rw [cells, List.map_flatMap, List.nodup_flatMap]
  constructor
  · intro plan listed
    rw [List.map_map]
    refine List.Nodup.of_map Prod.snd ?_
    rw [List.map_map]
    exact wellNamed.columns plan listed
  · have apart := List.pairwise_map.mp wellNamed.tables
    refine apart.imp fun {plan other} differ key one two => ?_
    simp only [List.map_map, List.mem_map, Function.comp_apply] at one two
    obtain ⟨column, -, rfl⟩ := one
    obtain ⟨twin, -, same⟩ := two
    exact differ (Prod.mk.inj same).1.symm

theorem WellNamed.column?_iff (wellNamed : WellNamed plans) {key : Key}
    {place : String × ColumnPlan} :
    column? plans key = some place ↔ (key, place) ∈ cells plans := by
  rw [column?, ← Dictionary.mem_entries_iff, Dictionary.entries_ofList wellNamed.nodup_cells]

/-- The columns of a plan are found under its name. -/
theorem WellNamed.column?_eq (wellNamed : WellNamed plans) {plan : TablePlan}
    (listed : plan ∈ plans) (name : String) : column? plans (plan.targetName, name) =
      (plan.column? name).map fun column => (plan.sourceName, column) := by
  ext place
  rw [wellNamed.column?_iff, mem_cells_iff, Option.map_eq_some_iff]
  constructor
  · rintro ⟨other, listed', tables, sources, member, named⟩
    obtain rfl := List.inj_on_of_nodup_map wellNamed.tables listed' listed tables
    obtain ⟨column, found⟩ := Option.isSome_iff_exists.mp
      (List.find?_isSome (p := fun c => decide (c.targetName = name)).mpr
        ⟨place.2, member, decide_eq_true named⟩)
    have own := mem_of_column? found
    have same := List.inj_on_of_nodup_map (wellNamed.columns other listed') own.1 member
      (own.2.trans named.symm)
    exact ⟨column, found, Prod.ext sources same⟩
  · rintro ⟨column, found, rfl⟩
    obtain ⟨member, named⟩ := mem_of_column? found
    exact ⟨plan, listed, rfl, rfl, member, named⟩

/-! ## The loop as a pass -/

variable (numerals database) in
/-- Every test that a column of a key may be put to gives an answer. -/
def Testable (plans : List TablePlan) : Prop :=
  ∀ key other, Linked (links plans) key other → ∀ place, column? plans key = some place →
    ∀ pgType, inferred plans key < pgType →
      ∃ fits, tested numerals database place pgType = .ok fits

/-- The types decided so far are these levels. -/
structure Follows (plans : List TablePlan) (retyped : Retyped) (level : Key → PgType) : Prop where
  known : ∀ key, column? plans key = none → retyped.get? key = none
  current : ∀ key, (retyped.get? key).getD (inferred plans key) = level key
  above : inferred plans ≤ level

theorem follows_start (plans : List TablePlan) :
    Follows plans Dictionary.empty (inferred plans) :=
  ⟨fun _ _ => rfl, fun _ => rfl, le_rfl⟩

theorem follows_retype {plan : TablePlan} {column : ColumnPlan} {key : Key}
    (named : key = (plan.targetName, column.targetName)) {wanted : PgType} {retyped : Retyped}
    {level : Key → PgType} (follows : Follows plans retyped level)
    (found : column? plans key = some (plan.sourceName, column)) (below : level key ≤ wanted)
    (testable : level key < wanted →
      ∃ fits, tested numerals database (plan.sourceName, column) wanted = .ok fits) :
    ∃ next, retype numerals database plan column wanted retyped = .ok next ∧
      Follows plans next (Function.update level key
        (raise (Fits numerals database plans) key (level key) wanted)) := by
  subst named
  have own : inferred plans (plan.targetName, column.targetName) = column.pgType := by
    rw [inferred, found]
  have current := follows.current (plan.targetName, column.targetName)
  rw [own] at current
  rw [retype]
  simp only [current]
  rcases below.eq_or_lt with same | lower
  · refine ⟨retyped, if_pos same, ?_⟩
    rw [same, raise_self, ← same, Function.update_eq_self]
    exact follows
  · obtain ⟨fits, answer⟩ := testable lower
    rw [if_neg lower.ne]
    have read : valuesFit numerals database plan column wanted = .ok fits := answer
    rw [read]
    cases fits with
    | false =>
      refine ⟨retyped, rfl, ?_⟩
      rw [raise, if_neg, Function.update_eq_self]
      · exact follows
      · rintro ⟨-, place, there, passed⟩
        obtain rfl := Option.some.inj (found.symm.trans there)
        rw [answer] at passed
        cases passed
    | true =>
      refine ⟨_, rfl, fun key missing => ?_, fun key => ?_, ?_⟩
      · rw [Dictionary.get?_set_ne, follows.known key missing]
        rintro rfl
        rw [found] at missing
        cases missing
      · rw [Dictionary.get?_set, Function.update_apply]
        split
        · rw [raise, if_pos ⟨lower, _, found, answer⟩]
          rfl
        · exact follows.current key
      · refine follows.above.trans fun key => ?_
        rw [Function.update_apply]
        split
        · rename_i same
          subst same
          exact le_raise _ _ _
        · exact le_rfl

theorem step_of_apart {fits : Key → PgType → Prop} {level : Key → PgType} {link : Key × Key}
    (below : ¬level link.1 < level link.2) (above : ¬level link.2 < level link.1) :
    step fits level link = level := by
  funext key
  rw [step]
  split_ifs with one two
  · subst one
    exact if_neg fun raised => below raised.1
  · subst two
    exact if_neg fun raised => above raised.1
  · rfl

theorem step_of_bytes {fits : Key → PgType → Prop} {level : Key → PgType} {a b : Key}
    (bytes : level a = .bytea ∨ level b = .bytea) : step fits level (a, b) = level := by
  apply step_of_apart
  · rcases bytes with same | same <;> simp only [same]
    · exact (not_lt_of_bytes _).2
    · exact (not_lt_of_bytes _).1
  · rcases bytes with same | same <;> simp only [same]
    · exact (not_lt_of_bytes _).1
    · exact (not_lt_of_bytes _).2

/-- With a type at least as high as both, and equal to the higher one, each side
is raised as the link raises it. -/
theorem update_update_eq_step {fits : Key → PgType → Prop} {level : Key → PgType} {a b : Key}
    (apart : a ≠ b) {wanted : PgType}
    (left : raise fits a (level a) wanted = raise fits a (level a) (level b))
    (right : raise fits b (level b) wanted = raise fits b (level b) (level a)) :
    Function.update (Function.update level a (raise fits a (level a) wanted)) b
      (raise fits b (level b) wanted) = step fits level (a, b) := by
  funext key
  rw [step, left, right]
  by_cases second : key = b
  · subst second
    rw [Function.update_self, if_neg apart.symm, if_pos rfl]
  · rw [Function.update_of_ne second]
    by_cases first : key = a
    · subst first
      rw [Function.update_self, if_pos rfl]
    · rw [Function.update_of_ne first, if_neg first, if_neg second]

theorem follows_retype_both (testable : Testable numerals database plans)
    {plan target : TablePlan} {column twin : ColumnPlan} {a b : Key}
    (named : a = (plan.targetName, column.targetName))
    (named' : b = (target.targetName, twin.targetName))
    (found : column? plans a = some (plan.sourceName, column))
    (found' : column? plans b = some (target.sourceName, twin)) (linked : (a, b) ∈ links plans)
    (apart : a ≠ b) {wanted : PgType} {retyped : Retyped} {level : Key → PgType}
    (follows : Follows plans retyped level) (below : level a ≤ wanted) (below' : level b ≤ wanted) :
    ∃ next, (do
      let retyped ← retype numerals database plan column wanted retyped
      retype numerals database target twin wanted retyped) = .ok next ∧
        Follows plans next (Function.update (Function.update level a
          (raise (Fits numerals database plans) a (level a) wanted)) b
            (raise (Fits numerals database plans) b (level b) wanted)) := by
  obtain ⟨middle, first, between⟩ := follows_retype named follows found below fun lower =>
    testable a b (Or.inl linked) _ found wanted ((follows.above a).trans_lt lower)
  have kept : Function.update level a
      (raise (Fits numerals database plans) a (level a) wanted) b = level b :=
    Function.update_of_ne apart.symm _ _
  obtain ⟨next, second, after⟩ := follows_retype named' between found' (kept.le.trans below')
    fun lower => testable b a (Or.inr linked) _ found' wanted
      ((follows.above b).trans_lt (kept ▸ lower))
  rw [kept] at after
  exact ⟨next, Fallible.bind_ok_iff.mpr ⟨middle, first, second⟩, after⟩

/-- One pair of columns is one link. -/
theorem follows_unifyPair (wellNamed : WellNamed plans)
    (testable : Testable numerals database plans) {plan target : TablePlan}
    (listed : plan ∈ plans) (listed' : target ∈ plans) {localColumn remote : String} {a b : Key}
    (named : a = (plan.targetName, localColumn)) (named' : b = (target.targetName, remote))
    (linked : (a, b) ∈ links plans) {retyped : Retyped} {level : Key → PgType}
    (follows : Follows plans retyped level) :
    ∃ next, unifyPair numerals database plan target localColumn remote retyped = .ok next ∧
      Follows plans next (step (Fits numerals database plans) level (a, b)) := by
  have bytes (key : Key) (missing : column? plans key = none) : level key = .bytea := by
    rw [← follows.current key, follows.known key missing, inferred, missing]
    rfl
  have one := wellNamed.column?_eq listed localColumn
  have other := wellNamed.column?_eq listed' remote
  rw [← named] at one
  rw [← named'] at other
  rw [unifyPair]
  cases left : plan.column? localColumn with
  | none =>
    rw [left] at one
    refine ⟨retyped, rfl, ?_⟩
    rw [step_of_bytes (Or.inl (bytes a one))]
    exact follows
  | some column =>
    cases right : target.column? remote with
    | none =>
      rw [right] at other
      refine ⟨retyped, rfl, ?_⟩
      rw [step_of_bytes (Or.inr (bytes b other))]
      exact follows
    | some twin =>
      rw [left, Option.map_some] at one
      rw [right, Option.map_some] at other
      have mine := follows.current a
      have theirs := follows.current b
      rw [inferred, one] at mine
      rw [inferred, other] at theirs
      rw [← named, ← named']
      simp only [mine, theirs]
      have both := @follows_retype_both numerals database plans testable plan target column twin
        a b (by rw [named, (mem_of_column? left).2]) (by rw [named', (mem_of_column? right).2])
        one other linked
      rcases Classical.em (level a < level b) with below | below
      · rw [unifiedType_of_lt below]
        obtain ⟨next, done, after⟩ := both (fun same => below.ne (congrArg level same)) follows
          below.le le_rfl
        refine ⟨next, done, ?_⟩
        rw [update_update_eq_step (fun same => below.ne (congrArg level same)) rfl] at after
        · exact after
        · rw [raise_self, raise, if_neg fun raised => raised.1.asymm below]
      · rcases Classical.em (level b < level a) with above | above
        · rw [unifiedType_of_gt above]
          obtain ⟨next, done, after⟩ := both (fun same => above.ne' (congrArg level same)) follows
            le_rfl above.le
          refine ⟨next, done, ?_⟩
          rw [update_update_eq_step (fun same => above.ne' (congrArg level same)) _ rfl] at after
          · exact after
          · rw [raise_self, raise, if_neg fun raised => raised.1.asymm above]
        · rw [unifiedType_of_apart below above]
          refine ⟨retyped, rfl, ?_⟩
          rw [step_of_apart]
          · exact follows
          · exact below
          · exact above

variable (numerals) in
/-- One link by the names of its sides. -/
def unifyLink (database : SqliteDatabase) (byName : Dictionary String TablePlan)
    (retyped : Retyped) (link : Key × Key) : Except Raised Retyped :=
  match byName.get? link.1.1, byName.get? link.2.1 with
  | some plan, some target => unifyPair numerals database plan target link.1.2 link.2.2 retyped
  | _, _ => .ok retyped

variable (numerals) in
/-- The loop of `unifyForeignKeyTypes` over pairs of columns in any order. -/
def unifyInOrder (database : SqliteDatabase) (plans : List TablePlan) (order : List (Key × Key)) :
    Except Raised (List TablePlan) := do
  let byName := Dictionary.ofList (plans.map fun plan => (plan.targetName, plan))
  let retyped ← order.foldlM (unifyLink numerals database byName) Dictionary.empty
  return plans.map fun plan => applyRetypes plan retyped

/-- A plan with the types of these levels. -/
def withTypes (level : Key → PgType) (plan : TablePlan) : TablePlan :=
  { plan with columns := plan.columns.map fun column =>
      { column with pgType := level (plan.targetName, column.targetName) } }

def retypeTo (plans : List TablePlan) (level : Key → PgType) : List TablePlan :=
  plans.map (withTypes level)

theorem WellNamed.byName_iff (wellNamed : WellNamed plans) {name : String} {plan : TablePlan} :
    (Dictionary.ofList (plans.map fun plan => (plan.targetName, plan))).get? name = some plan ↔
      plan ∈ plans ∧ plan.targetName = name := by
  have distinct : ((plans.map fun plan => (plan.targetName, plan)).map Prod.fst).Nodup := by
    rw [List.map_map]
    exact wellNamed.tables
  rw [← Dictionary.mem_entries_iff, Dictionary.entries_ofList distinct, List.mem_map]
  constructor
  · rintro ⟨other, listed, same⟩
    obtain ⟨rfl, rfl⟩ := Prod.mk.inj same
    exact ⟨listed, rfl⟩
  · rintro ⟨listed, rfl⟩
    exact ⟨plan, listed, rfl⟩

theorem unifyLink_of_missing {byName : Dictionary String TablePlan} {link : Key × Key}
    (missing : byName.get? link.2.1 = none) (retyped : Retyped) :
    unifyLink numerals database byName retyped link = .ok retyped := by
  rw [unifyLink, missing]
  split
  · rename_i absent
    cases absent
  · rfl

theorem unifyPairs_eq {byName : Dictionary String TablePlan} {plan target : TablePlan}
    (found : byName.get? plan.targetName = some plan)
    (found' : byName.get? target.targetName = some target) {locals remotes : List String}
    (same : locals.length = remotes.length) (retyped : Retyped) :
    unifyPairs numerals database plan target locals remotes retyped =
      ((locals.zip remotes).map fun pair =>
        ((plan.targetName, pair.1), (target.targetName, pair.2))).foldlM
          (unifyLink numerals database byName) retyped := by
  induction locals generalizing remotes retyped with
  | nil =>
    obtain rfl := List.length_eq_zero_iff.mp same.symm
    rfl
  | cons localColumn locals ih =>
    cases remotes with
    | nil => cases same
    | cons remote remotes =>
      rw [unifyPairs, List.zip_cons_cons, List.map_cons, List.foldlM_cons, unifyLink, found, found']
      exact bind_congr fun next => ih (Nat.succ.inj same) next

theorem unifyKey_eq (wellNamed : WellNamed plans) {plan : TablePlan} (listed : plan ∈ plans)
    {key : KeyPlan} (member : key ∈ plan.foreignKeys) (retyped : Retyped) :
    unifyKey numerals database (Dictionary.ofList (plans.map fun plan => (plan.targetName, plan)))
        plan retyped key =
      ((key.columns.zip key.referencedColumns).map fun pair =>
        ((plan.targetName, pair.1), (key.referencedTable, pair.2))).foldlM
          (unifyLink numerals database
            (Dictionary.ofList (plans.map fun plan => (plan.targetName, plan)))) retyped := by
  rw [unifyKey]
  split
  · rename_i target found
    obtain ⟨-, named⟩ := wellNamed.byName_iff.mp found
    rw [← named] at found ⊢
    exact unifyPairs_eq (wellNamed.byName_iff.mpr ⟨listed, rfl⟩) found
      (wellNamed.pairs plan listed key member) retyped
  · rename_i missing
    induction key.columns.zip key.referencedColumns with
    | nil => rfl
    | cons pair rest ih =>
      rw [List.map_cons, List.foldlM_cons, unifyLink_of_missing missing]
      exact ih

/-- The loop of the code takes the pairs in the order of their listing. -/
theorem unifyForeignKeyTypes_eq (wellNamed : WellNamed plans) :
    unifyForeignKeyTypes numerals database plans =
      unifyInOrder numerals database plans (links plans) := by
  rw [unifyForeignKeyTypes, unifyInOrder, links, Fallible.foldlM_flatMap]
  refine congrArg (· >>= _) (Fallible.foldlM_congr_of_mem fun plan listed retyped => ?_)
  rw [Fallible.foldlM_flatMap]
  exact Fallible.foldlM_congr_of_mem fun key member retyped =>
    unifyKey_eq wellNamed listed member retyped

/-! ## What a run gives -/

theorem applyRetypes_eq {retyped : Retyped} {level : Key → PgType} (wellNamed : WellNamed plans)
    (follows : Follows plans retyped level) {plan : TablePlan} (listed : plan ∈ plans) :
    applyRetypes plan retyped = withTypes level plan := by
  rw [applyRetypes, withTypes]
  congr 1
  refine List.map_congr_left fun column member => ?_
  have found : column? plans (plan.targetName, column.targetName) =
      some (plan.sourceName, column) :=
    wellNamed.column?_iff.mpr (mem_cells_iff.mpr ⟨plan, listed, rfl, rfl, member, rfl⟩)
  have current := follows.current (plan.targetName, column.targetName)
  rw [inferred, found] at current
  rw [← current]
  cases retyped.get? (plan.targetName, column.targetName) with
  | some pgType => rfl
  | none => rfl

/-- A run over the links in any order gives the types of a pass. -/
theorem unifyInOrder_eq (wellNamed : WellNamed plans)
    (testable : Testable numerals database plans) {order : List (Key × Key)}
    (perm : order.Perm (links plans)) : unifyInOrder numerals database plans order =
      .ok (retypeTo plans (pass (Fits numerals database plans) (inferred plans) order)) := by
  have each : ∀ link ∈ order, ∀ retyped level, Follows plans retyped level →
      ∃ next, unifyLink numerals database
        (Dictionary.ofList (plans.map fun plan => (plan.targetName, plan))) retyped link =
          .ok next ∧ Follows plans next (step (Fits numerals database plans) level link) := by
    rintro ⟨a, b⟩ listed retyped level follows
    have linked := perm.mem_iff.mp listed
    have bytes (key : Key) (missing : (Dictionary.ofList (plans.map fun plan =>
        (plan.targetName, plan))).get? key.1 = none) : level key = .bytea := by
      have absent : column? plans key = none := by
        rw [Option.eq_none_iff_forall_ne_some]
        intro place found
        obtain ⟨plan, there, named, -⟩ := mem_cells_iff.mp (wellNamed.column?_iff.mp found)
        rw [wellNamed.byName_iff.mpr ⟨there, named⟩] at missing
        cases missing
      rw [← follows.current key, follows.known key absent, inferred, absent]
      rfl
    rw [unifyLink]
    split
    · rename_i plan target found found'
      obtain ⟨there, named⟩ := wellNamed.byName_iff.mp found
      obtain ⟨there', named'⟩ := wellNamed.byName_iff.mp found'
      exact follows_unifyPair wellNamed testable there there' (Prod.ext named.symm rfl)
        (Prod.ext named'.symm rfl) linked follows
    · rename_i missing
      refine ⟨retyped, rfl, ?_⟩
      rw [step_of_bytes]
      · exact follows
      · cases found : (Dictionary.ofList (plans.map fun plan =>
            (plan.targetName, plan))).get? a.1 with
        | none => exact Or.inl (bytes a found)
        | some plan =>
          refine Or.inr (bytes b ?_)
          rw [Option.eq_none_iff_forall_ne_some]
          exact fun target found' => missing plan target found found'
  obtain ⟨retyped, folded, follows⟩ :=
    Fallible.follows_foldlM (Follows plans) each (follows_start plans)
  refine Fallible.bind_ok_iff.mpr ⟨retyped, folded, ?_⟩
  exact congrArg Except.ok (List.map_congr_left fun plan listed =>
    applyRetypes_eq wellNamed follows listed)

end Unification
