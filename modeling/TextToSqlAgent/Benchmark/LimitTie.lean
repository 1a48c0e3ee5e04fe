import TextToSqlAgent.Benchmark.SqliteSource
import TextToSqlAgent.Library.Fallible
import TextToSqlAgent.Library.Sorting
import TextToSqlAgent.Validation.Syntax

/-!
# Ties at a limit

A question whose limit cuts between two rows with the same sort keys has no single
answer. To see it the sort keys are added to the select list, the limit is dropped,
and the rows on both sides of the cut are compared.
-/

namespace LimitTie

open SqliteSource Syntax

/-- What a LIMIT or an OFFSET asks for. -/
inductive Count
  | literal (value : Literal)
  | computed

/-- An expression as it is written. A subquery is an operator on the names that it
leaves open. -/
inductive Expr
  | name (table : Option String) (name : String) (quoted : Bool)
  /-- A literal of digits. -/
  | number (value : Nat)
  /-- In parentheses, or with a collation. -/
  | wrapped (key : String) (inner : Expr)
  | operator (key : String)
  | apply (operator operand : Expr)
  deriving DecidableEq

structure Ordered where
  key : Expr
  descending : Bool

inductive Output
  | star (table : Option String)
  | expr (value : Expr) (given : Option String)

/-- A SELECT, but for what its rows come from. -/
structure Select where
  distinct : Bool
  outputs : List Output
  order : List Ordered
  limit : Option Count
  offset : Option Count

/-- `_literal_count` -/
def literalCount : Count → Option Nat
  | .literal (.integer value) => some value
  | _ => none

namespace Select

/-- How many rows are kept, if a literal says so. -/
def kept (select : Select) : Option Nat := select.limit.bind literalCount

/-- How many rows are skipped, if a literal says so. -/
def skipped (select : Select) : Option Nat :=
  match select.offset with
  | some offset => literalCount offset
  | none => some 0

/-- `_cut_position`: where the limit cuts, counting from the start of the ordered result. -/
def cutPosition (select : Select) : Option Nat := do
  let position := (← select.kept) + (← select.skipped)
  if 0 < position then some position else none

theorem cutPosition_iff {select : Select} {cut : Nat} : select.cutPosition = some cut ↔
    ∃ kept skipped, select.kept = some kept ∧ select.skipped = some skipped ∧
      cut = kept + skipped ∧ 0 < cut := by
  simp only [cutPosition, Option.bind_eq_bind, Option.bind_eq_some_iff]
  constructor
  · rintro ⟨kept, keeps, skipped, skips, position⟩
    split at position
    · rename_i positive
      obtain rfl := Option.some.inj position
      exact ⟨kept, skipped, keeps, skips, rfl, positive⟩
    · cases position
  · rintro ⟨kept, skipped, keeps, skips, rfl, positive⟩
    exact ⟨kept, keeps, skipped, skips, if_pos positive⟩

/-- The ordering keys in the select list, and nothing cut. -/
def probe (select : Select) : Select :=
  { select with
    limit := none, offset := none,
    outputs := select.outputs ++ select.order.map fun ordered => .expr ordered.key none }

end Select

/-! ## What SQLite reads -/

/-- An expression whose names are resolved. -/
inductive Bound
  | column (name : String)
  | text (value : String)
  | number (value : Nat)
  | wrapped (key : String) (inner : Bound)
  | operator (key : String)
  | apply (operator operand : Bound)
  deriving DecidableEq

/-- What FROM has under a name. -/
inductive Found
  | column (name : String)
  | absent
  | ambiguous

/-- The rows that a statement selects from a database, before they are ordered, and
what SQLite and Python make of their values. -/
structure Source (Row Value : Type) where
  rows : List Row
  lookup : Option String → String → Found
  /-- What a star stands for. -/
  columns : Option String → Option (List String)
  value : Bound → Row → Value
  cmp : Bound → Bool → Value → Value → Ordering
  lawful : ∀ key descending, Std.TransCmp (cmp key descending)
  /-- `==` of two values as Python is given them. -/
  equal : Value → Value → Bool

/-- The columns of a result, each with its alias. -/
abbrev Columns := List (Bound × Option String)

/-- The first column of this alias. -/
def aliased (columns : Columns) (name : String) : Option Bound :=
  (columns.find? fun column => column.2.any fun given => asciiLower given = asciiLower name).map
    Prod.fst

namespace Source

variable {Row Value : Type} (source : Source Row Value)

/-- A name: a column, or else an alias that can be used here, or else, in double
quotes, a text. -/
def readName (aliases : String → Option Bound) (table : Option String) (name : String)
    (quoted : Bool) : Option Bound :=
  match source.lookup table name, table with
  | .column column, _ => some (.column column)
  | .ambiguous, _ => none
  | .absent, some _ => none
  | .absent, none => (aliases name).or (if quoted then some (.text name) else none)

def read (aliases : String → Option Bound) : Expr → Option Bound
  | .name table name quoted => source.readName aliases table name quoted
  | .number value => some (.number value)
  | .wrapped key inner => (read aliases inner).map (.wrapped key)
  | .operator key => some (.operator key)
  | .apply operator operand => do
    some (.apply (← read aliases operator) (← read aliases operand))

/-- In the select list no alias can be used. -/
def readKey : Expr → Option Bound := source.read fun _ => none

def readOutput : Output → Option Columns
  | .star table => (source.columns table).map fun names => names.map fun name => (.column name, none)
  | .expr value given => (source.readKey value).map fun bound => [(bound, given)]

def readOutputs : List Output → Option Columns
  | [] => some []
  | output :: rest => do some ((← source.readOutput output) ++ (← readOutputs rest))

/-- A term of ORDER BY: the place of a column in the result, an alias, or an expression
in which aliases can be used. -/
def readTerm (columns : Columns) : Expr → Option Bound
  | .number value => if value = 0 then none else columns[value - 1]?.map Prod.fst
  | .wrapped key inner => (readTerm columns inner).map (.wrapped key)
  | .name none name quoted =>
    (aliased columns name).or (source.readName (aliased columns) none name quoted)
  | key => source.read (aliased columns) key

/-- The terms that a statement orders by, the descending ones marked. -/
def readOrder (columns : Columns) (order : List Ordered) : Option (List (Bound × Bool)) :=
  order.mapM fun ordered => (source.readTerm columns ordered.key).map fun term =>
    (term, ordered.descending)

/-- How one term compares two rows. -/
def compareOn (term : Bound × Bool) (a b : Row) : Ordering :=
  source.cmp term.1 term.2 (source.value term.1 a) (source.value term.1 b)

def compareRows (terms : List (Bound × Bool)) : Row → Row → Ordering :=
  Sorting.lexicographic (terms.map source.compareOn)

/-- The rows in some order that the terms allow. -/
structure Arrangement (terms : List (Bound × Bool)) where
  rows : List Row
  arranges : Sorting.Arranges (source.compareRows terms) rows source.rows

variable (arrange : ∀ terms, source.Arrangement terms)

/-- What Python is given for a statement that cuts nothing and is not distinct. -/
def execute (select : Select) : Option (List (List Value)) := do
  let columns ← source.readOutputs select.outputs
  let terms ← source.readOrder columns select.order
  some ((arrange terms).rows.map fun row => columns.map fun column => source.value column.1 row)

/-- `==` of two tuples. -/
def sameTuple (one other : List Value) : Bool :=
  one.length = other.length && (one.zip other).all fun pair => source.equal pair.1 pair.2

/-- `row[-width:]` -/
def lastColumns (width : Nat) (row : List Value) : List Value := row.drop (row.length - width)

/-- Whether the last included and first excluded rows share an `ORDER BY` key, of what
`_parse_select` gives. -/
def limitCutIsTied : Option Select → Bool
  | none => false
  | some select =>
    if select.distinct then false
    else
      match select.cutPosition with
      | none => false
      | some cut =>
        match source.execute arrange select.probe with
        | none => false
        | some rows =>
          if rows.length ≤ cut then false
          else if select.order.isEmpty then true
          else
            match rows[cut - 1]?, rows[cut]? with
            | some last, some first =>
              source.sameTuple (lastColumns select.order.length last)
                (lastColumns select.order.length first)
            | _, _ => false

/-! ## The probe -/

variable {source}

theorem aliased_append {columns added : Columns} (unnamed : ∀ column ∈ added, column.2 = none)
    (name : String) : aliased (columns ++ added) name = aliased columns name := by
  have none_ : (added.find? fun column =>
      column.2.any fun given => asciiLower given = asciiLower name) = none := by
    rw [List.find?_eq_none]
    intro column listed
    rw [unnamed column listed]
    exact Bool.false_ne_true
  rw [aliased, aliased, List.find?_append, none_, Option.or_none]

/-- What is added behind the select list changes no term. -/
theorem readTerm_append {columns added : Columns} (unnamed : ∀ column ∈ added, column.2 = none)
    {key : Expr} {term : Bound} (reads : source.readTerm columns key = some term) :
    source.readTerm (columns ++ added) key = some term := by
  have same : aliased (columns ++ added) = aliased columns := funext (aliased_append unnamed)
  induction key generalizing term with
  | number value =>
    rw [readTerm] at reads ⊢
    split at reads
    · cases reads
    · rename_i positive
      rw [if_neg positive]
      obtain ⟨column, found, rfl⟩ := Option.map_eq_some_iff.mp reads
      obtain ⟨within, -⟩ := List.getElem?_eq_some_iff.mp found
      rw [List.getElem?_append_left within, found]
      rfl
  | wrapped key inner ih =>
    rw [readTerm] at reads ⊢
    obtain ⟨bound, found, rfl⟩ := Option.map_eq_some_iff.mp reads
    rw [ih found]
    rfl
  | name table name quoted =>
    cases table with
    | none =>
      rw [readTerm] at reads ⊢
      rwa [same]
    | some table =>
      change source.read (aliased (columns ++ added)) _ = _
      rwa [same]
  | operator key => exact reads
  | apply operator operand =>
    change source.read (aliased (columns ++ added)) _ = _
    rwa [same]

theorem readOrder_append {columns added : Columns} (unnamed : ∀ column ∈ added, column.2 = none)
    {order : List Ordered} {terms : List (Bound × Bool)}
    (reads : source.readOrder columns order = some terms) :
    source.readOrder (columns ++ added) order = some terms := by
  rw [readOrder, Fallible.mapM_eq_some_iff] at reads ⊢
  refine reads.imp fun ordered term found => ?_
  obtain ⟨bound, reads, rfl⟩ := Option.map_eq_some_iff.mp found
  rw [readTerm_append unnamed reads]
  rfl

/-- The keys of a statement as its select list reads them. -/
def readKeys (source : Source Row Value) (order : List Ordered) : Option (List Bound) :=
  order.mapM fun ordered => source.readKey ordered.key

theorem readOutputs_append {outputs added : List Output} {columns : Columns}
    (reads : source.readOutputs outputs = some columns) :
    source.readOutputs (outputs ++ added) = (source.readOutputs added).map (columns ++ ·) := by
  induction outputs generalizing columns with
  | nil =>
    obtain rfl := Option.some.inj reads
    rw [List.nil_append]
    exact Option.map_id.symm ▸ rfl
  | cons output outputs ih =>
    obtain ⟨own, one, reads⟩ := Option.bind_eq_some_iff.mp reads
    obtain ⟨others, rest, same⟩ := Option.bind_eq_some_iff.mp reads
    obtain rfl := Option.some.inj same
    rw [List.cons_append, readOutputs, one, ih rest]
    cases source.readOutputs added with
    | none => rfl
    | some columns => exact congrArg some (List.append_assoc _ _ _).symm

theorem readKeys_cons (ordered : Ordered) (order : List Ordered) :
    source.readKeys (ordered :: order) = (source.readKey ordered.key).bind fun key =>
      (source.readKeys order).bind fun keys => some (key :: keys) :=
  List.mapM_cons

theorem readOutputs_keys (order : List Ordered) :
    source.readOutputs (order.map fun ordered => .expr ordered.key none) =
      (source.readKeys order).map fun keys => keys.map fun key => (key, none) := by
  induction order with
  | nil => rfl
  | cons ordered order ih =>
    rw [List.map_cons, readOutputs, ih, readOutput, readKeys_cons]
    cases source.readKey ordered.key with
    | none => rfl
    | some key => cases source.readKeys order <;> rfl

section Probing

variable {select : Select} {columns : Columns} {terms : List (Bound × Bool)}
  {arrange : ∀ terms, source.Arrangement terms}

/-- The probe gives the rows of the statement in the order of its own keys, with what the
select list reads these as. -/
theorem execute_probe (reads : source.readOutputs select.outputs = some columns)
    (ordered : source.readOrder columns select.order = some terms) :
    source.execute arrange select.probe = (source.readKeys select.order).map fun keys =>
      (arrange terms).rows.map fun row =>
        (columns.map fun column => source.value column.1 row) ++
          keys.map fun key => source.value key row := by
  have outputs : source.readOutputs select.probe.outputs = (source.readKeys select.order).map
      fun keys => columns ++ keys.map fun key => (key, none) := by
    rw [Select.probe, readOutputs_append reads, readOutputs_keys, Option.map_map]
    rfl
  rw [execute, outputs]
  cases source.readKeys select.order with
  | none => rfl
  | some keys =>
    have order : source.readOrder (columns ++ keys.map fun key => (key, none))
        select.probe.order = some terms := by
      refine readOrder_append (fun column listed => ?_) ordered
      obtain ⟨key, -, rfl⟩ := List.mem_map.mp listed
      rfl
    simp only [Option.map_some, Option.bind_eq_bind, Option.bind_some, order, List.map_append,
      List.map_map, Function.comp_def]

/-- The rows on both sides of a place. -/
structure Sides (rows : List Row) (cut : Nat) (last first : Row) : Prop where
  last : rows[cut - 1]? = some last
  first : rows[cut]? = some first

/-- Python holds two rows equal on every key as the select list reads it. -/
def Alike (source : Source Row Value) (order : List Ordered) (a b : Row) : Prop :=
  ∀ ordered ∈ order, ∃ key, source.readKey ordered.key = some key ∧
    source.equal (source.value key a) (source.value key b) = true

theorem alike_iff {order : List Ordered} {keys : List Bound}
    (reads : source.readKeys order = some keys) {a b : Row} :
    source.sameTuple (keys.map fun key => source.value key a)
      (keys.map fun key => source.value key b) = true ↔ Alike source order a b := by
  have each := Fallible.mapM_eq_some_iff.mp reads
  rw [sameTuple, List.length_map, List.length_map, decide_eq_true rfl, Bool.true_and,
    List.zip_map', List.all_map, List.all_eq_true, Alike]
  clear reads
  induction each with
  | nil => exact ⟨fun _ => nofun, fun _ => nofun⟩
  | cons found _ ih =>
    rw [List.forall_mem_cons, List.forall_mem_cons]
    refine and_congr ?_ ih
    simp [found]

theorem exists_sides {rows : List Row} {cut : Nat} (positive : 0 < cut)
    (within : cut < rows.length) : ∃ last first, Sides rows cut last first :=
  ⟨rows[cut - 1], rows[cut], ⟨List.getElem?_eq_getElem (by omega), List.getElem?_eq_getElem within⟩⟩

theorem lastColumns_append {width : Nat} {row keys : List Value} (length : keys.length = width) :
    lastColumns width (row ++ keys) = keys := by
  rw [lastColumns, List.length_append, length, Nat.add_sub_cancel, List.drop_left]

theorem limitCutIsTied_iff (reads : source.readOutputs select.outputs = some columns)
    (ordered : source.readOrder columns select.order = some terms) :
    source.limitCutIsTied arrange (some select) = true ↔
      select.distinct = false ∧ ∃ cut, select.cutPosition = some cut ∧
        cut < (arrange terms).rows.length ∧ (source.readKeys select.order).isSome ∧
          (select.order = [] ∨ ∃ last first, Sides (arrange terms).rows cut last first ∧
            Alike source select.order last first) := by
  rw [limitCutIsTied, execute_probe reads ordered]
  cases select.distinct with
  | true => simp
  | false =>
    cases position : select.cutPosition with
    | none => simp
    | some cut =>
      cases read : source.readKeys select.order with
      | none => simp
      | some keys =>
        have length : keys.length = select.order.length :=
          (Fallible.mapM_eq_some_iff.mp read).length_eq.symm
        simp only [Option.map_some, List.length_map, true_and, Option.some.injEq, exists_eq_left',
          Option.isSome_some, Bool.false_eq_true, if_false]
        by_cases within : (arrange terms).rows.length ≤ cut
        · simp [within, Nat.not_lt.mpr within]
        · rw [if_neg within]
          have cuts : cut < (arrange terms).rows.length := Nat.not_le.mp within
          cases order : select.order with
          | nil => simp [cuts]
          | cons first rest =>
            obtain ⟨-, -, -, -, -, positive⟩ := Select.cutPosition_iff.mp position
            obtain ⟨last, next, sides⟩ := exists_sides positive cuts
            rw [order] at read length
            have shown : ∀ row, lastColumns (first :: rest).length
                ((columns.map fun column => source.value column.1 row) ++
                  keys.map fun key => source.value key row) =
                keys.map fun key => source.value key row :=
              fun row => lastColumns_append (by rw [List.length_map, length])
            have sameSides : ∀ a b, Sides (arrange terms).rows cut a b → a = last ∧ b = next := by
              intro a b other
              exact ⟨Option.some.inj (other.last.symm.trans sides.last),
                Option.some.inj (other.first.symm.trans sides.first)⟩
            simp only [List.isEmpty_cons, List.getElem?_map, sides.last, sides.first,
              Option.map_some, shown, alike_iff read, cuts, Bool.false_eq_true, if_false, true_and,
              reduceCtorEq, false_or]
            constructor
            · exact fun same => ⟨last, next, sides, same⟩
            · rintro ⟨a, b, other, same⟩
              obtain ⟨rfl, rfl⟩ := sameSides a b other
              exact same

end Probing

/-! ## Keys that mean something else in the select list -/

end Source

namespace Expr

/-- The names that are not qualified. -/
def names : Expr → List String
  | .name none own _ => [own]
  | .name (some _) _ _ => []
  | .number _ => []
  | .wrapped _ inner => inner.names
  | .operator _ => []
  | .apply former operand => former.names ++ operand.names

/-- A place in the result. -/
def IsPlace : Expr → Prop
  | .number _ => True
  | .wrapped _ inner => inner.IsPlace
  | _ => False

end Expr

/-- A place in the result, or an expression with the alias of a column in it. -/
def Displaced (columns : Columns) (key : Expr) : Prop :=
  key.IsPlace ∨ ∃ name ∈ key.names, aliased columns name ≠ none

namespace Source

variable {Row Value : Type} {source : Source Row Value}

theorem readName_congr {f g : String → Option Bound} {table : Option String} {name : String}
    {quoted : Bool} (same : table = none → f name = g name) :
    source.readName f table name quoted = source.readName g table name quoted := by
  rw [readName.eq_def, readName.eq_def]
  cases table with
  | none => rw [same rfl]
  | some table => cases source.lookup (some table) name <;> rfl

theorem read_congr {f g : String → Option Bound} {key : Expr}
    (same : ∀ name ∈ key.names, f name = g name) : source.read f key = source.read g key := by
  induction key with
  | name table name quoted =>
    refine readName_congr ?_
    rintro rfl
    exact same name (by simp [Expr.names])
  | number value => rfl
  | wrapped key inner ih => rw [read, read, ih same]
  | operator key => rfl
  | apply operator operand ih ih' =>
    rw [Expr.names, List.forall_mem_append] at same
    rw [read, read, ih same.1, ih' same.2]

/-- What is not displaced is read the same in both places. -/
theorem readTerm_of_not_displaced {columns : Columns} {key : Expr}
    (plain : ¬Displaced columns key) : source.readTerm columns key = source.readKey key := by
  induction key with
  | number value => exact absurd (Or.inl trivial) plain
  | wrapped key inner ih =>
    rw [readTerm, ih plain, readKey, read]
  | name table name quoted =>
    have none_ : ∀ other ∈ (Expr.name table name quoted).names, aliased columns other = none :=
      fun other listed => not_not.mp fun given => plain (Or.inr ⟨other, listed, given⟩)
    cases table with
    | none =>
      rw [readTerm, none_ name (by simp [Expr.names]), Option.none_or]
      have keyRead : source.read _ (.name none name quoted) = _ := read_congr none_
      exact keyRead
    | some table => exact read_congr none_
  | operator key => rfl
  | apply operator operand =>
    have none_ : ∀ other ∈ (operator.apply operand).names, aliased columns other = none :=
      fun other listed => not_not.mp fun given => plain (Or.inr ⟨other, listed, given⟩)
    exact read_congr none_

/-! ## Which answers are right -/

variable {select : Select} {columns : Columns} {terms : List (Bound × Bool)}
  {arrange : ∀ terms, source.Arrangement terms}

/-- Two rows are equal on every key of the statement. -/
def Ties (source : Source Row Value) (columns : Columns) (order : List Ordered) (a b : Row) :
    Prop :=
  ∀ ordered ∈ order, ∃ term, source.readTerm columns ordered.key = some term ∧
    source.compareOn (term, ordered.descending) a b = .eq

/-- The limit removes a row, and the last row it keeps ties with the first that it
removes. -/
def Tied (source : Source Row Value) (columns : Columns) (select : Select) (rows : List Row) :
    Prop :=
  ∃ kept skipped first, select.kept = some kept ∧ select.skipped = some skipped ∧
    rows[kept + skipped]? = some first ∧
      (select.order ≠ [] → ∃ last, ((rows.drop skipped).take kept).getLast? = some last ∧
        Ties source columns select.order last first)

/-- Two rows that look alike are tied: a row is kept at all, they tie on the displaced
keys, and of the others SQLite holds equal what Python does. -/
structure TiedAlike (source : Source Row Value) (columns : Columns) (order : List Ordered)
    (kept : Nat) (last first : Row) : Prop where
  keeps : kept ≠ 0
  displaced : ∀ ordered ∈ order, Displaced columns ordered.key →
    ∀ term, source.readTerm columns ordered.key = some term →
      source.compareOn (term, ordered.descending) last first = .eq
  told : ∀ ordered ∈ order, ¬Displaced columns ordered.key →
    ∀ key, source.readKey ordered.key = some key →
      source.equal (source.value key last) (source.value key first) = true →
        source.compareOn (key, ordered.descending) last first = .eq

/-- Rows that look alike at the cut of a statement are tied. -/
def Candid (source : Source Row Value) (columns : Columns) (select : Select) (rows : List Row) :
    Prop :=
  ∀ kept skipped last first, select.kept = some kept → select.skipped = some skipped →
    0 < kept + skipped → select.distinct = false → select.order ≠ [] →
      Sides rows (kept + skipped) last first → Alike source select.order last first →
        TiedAlike source columns select.order kept last first

theorem ties_iff {order : List Ordered} (reads : source.readOrder columns order = some terms)
    {a b : Row} : Ties source columns order a b ↔ source.compareRows terms a b = .eq := by
  have each := Fallible.mapM_eq_some_iff.mp reads
  rw [compareRows, Sorting.lexicographic_eq_iff, List.forall_mem_map, Ties]
  clear reads
  induction each with
  | nil => exact ⟨fun _ => nofun, fun _ => nofun⟩
  | cons found _ ih =>
    obtain ⟨term, reads, rfl⟩ := Option.map_eq_some_iff.mp found
    rw [List.forall_mem_cons, List.forall_mem_cons]
    refine and_congr ?_ ih
    simp [reads]

/-- The last of the rows that are kept. -/
theorem getLast?_kept {rows : List Row} {kept skipped : Nat} (keeps : kept ≠ 0)
    (within : kept + skipped < rows.length) :
    ((rows.drop skipped).take kept).getLast? = rows[kept + skipped - 1]? := by
  have length : ((rows.drop skipped).take kept).length = kept := by
    rw [List.length_take, List.length_drop]
    omega
  rw [List.getLast?_eq_getElem?, length, List.getElem?_take_of_lt (by omega), List.getElem?_drop]
  congr 1
  omega

theorem transCmp_compareRows (terms : List (Bound × Bool)) :
    Std.TransCmp (source.compareRows terms) := by
  refine Sorting.transCmp_lexicographic fun cmp listed => ?_
  obtain ⟨⟨key, descending⟩, -, rfl⟩ := List.mem_map.mp listed
  have lawful := source.lawful key descending
  exact { eq_swap := lawful.eq_swap, isLE_trans := lawful.isLE_trans }

/-- Rows on both sides of a place, in another order of the same terms. -/
theorem exists_tied_sides (gold other : source.Arrangement terms) {cut : Nat} {last first : Row}
    (sides : Sides other.rows cut last first) : ∃ last' first', Sides gold.rows cut last' first' ∧
      (source.compareRows terms last' first' = .eq ↔ source.compareRows terms last first = .eq) := by
  have trans := @transCmp_compareRows _ _ source terms
  have length : gold.rows.length = other.rows.length :=
    (gold.arranges.perm.trans other.arranges.perm.symm).length_eq
  obtain ⟨within, -⟩ := List.getElem?_eq_some_iff.mp sides.first
  obtain ⟨before, -⟩ := List.getElem?_eq_some_iff.mp sides.last
  have here := List.getElem?_eq_getElem (length ▸ before)
  have next := List.getElem?_eq_getElem (length ▸ within)
  exact ⟨_, _, ⟨here, next⟩, gold.arranges.tied_iff other.arranges here next sides.last sides.first⟩

theorem isSome_readKeys {order : List Ordered} {a b : Row} (alike : Alike source order a b) :
    (source.readKeys order).isSome := by
  induction order with
  | nil => rfl
  | cons ordered order ih =>
    obtain ⟨⟨key, reads, -⟩, others⟩ := List.forall_mem_cons.mp alike
    obtain ⟨keys, rest⟩ := Option.isSome_iff_exists.mp (ih others)
    rw [readKeys_cons, reads, rest]
    rfl

theorem ties_of_alike (ordered : source.readOrder columns select.order = some terms) {kept : Nat}
    {last first : Row} (alike : Alike source select.order last first)
    (candid : TiedAlike source columns select.order kept last first) :
    Ties source columns select.order last first := by
  intro own listed
  obtain ⟨pair, -, reads⟩ := Fallible.exists_of_mapM_some ordered listed
  obtain ⟨term, reads, -⟩ := Option.map_eq_some_iff.mp reads
  refine ⟨term, reads, ?_⟩
  by_cases displaced : Displaced columns own.key
  · exact candid.displaced own listed displaced term reads
  · obtain ⟨key, shown, same⟩ := alike own listed
    have plain := shown.symm.trans ((readTerm_of_not_displaced displaced).symm.trans reads)
    obtain rfl := Option.some.inj plain
    exact candid.told own listed displaced key shown same

/-- The order that a stable sort gives. -/
def sort (source : Source Row Value) (terms : List (Bound × Bool)) : source.Arrangement terms where
  rows := source.rows.insertionSort fun a b => (source.compareRows terms a b).isLE = true
  arranges :=
    have trans := @transCmp_compareRows _ _ source terms
    { perm := List.perm_insertionSort _ _
      ascends := by
        have total : Std.Total fun a b : Row => (source.compareRows terms a b).isLE = true := by
          refine ⟨fun a b => ?_⟩
          have swapped : source.compareRows terms b a = (source.compareRows terms a b).swap :=
            Std.OrientedCmp.eq_swap
          rw [swapped]
          cases source.compareRows terms a b <;> decide
        have transitive : IsTrans Row fun a b => (source.compareRows terms a b).isLE = true :=
          ⟨fun _ _ _ => Std.TransCmp.isLE_trans⟩
        exact List.pairwise_insertionSort _ _ }

end Source

/-- Towns and how many teachers come from each. -/
def townValue : Bound → String × Nat → SqliteValue
  | .column _, town => .text town.1
  | .operator _, town => .integer town.2
  | .text s, _ => .text s
  | .number n, _ => .integer n
  | .wrapped _ inner, town => townValue inner town
  | .apply _ _, _ => .null

/-- Integers by their value, texts by their characters. -/
def compareTowns : SqliteValue → SqliteValue → Ordering :=
  compareLex (compareOn fun value => match value with
    | .integer n => n
    | _ => 0)
  (compareOn fun value => match value with
    | .text s => s
    | _ => "")

instance : Std.TransCmp compareTowns :=
  inferInstanceAs (Std.TransCmp (compareLex _ _))

def towns : Source (String × Nat) SqliteValue where
  rows := [("Hull", 2), ("Bristol", 1)]
  lookup table name :=
    if table = none ∧ asciiLower name = "hometown" then .column "hometown" else .absent
  columns _ := some ["hometown"]
  value := townValue
  cmp _ descending a b := if descending then compareTowns b a else compareTowns a b
  lawful _ descending := by
    cases descending
    · exact inferInstanceAs (Std.TransCmp compareTowns)
    · exact inferInstanceAs (Std.TransCmp fun a b => compareTowns b a)
  equal a b := a = b

/-- `SELECT hometown, count(*) AS n FROM teacher GROUP BY hometown ORDER BY ... LIMIT 1` -/
def fewest (key : Expr) : Select where
  distinct := false
  outputs := [.expr (.name none "hometown" false) none, .expr (.operator "count(*)") (some "n")]
  order := [⟨key, false⟩]
  limit := some (.literal (.integer 1))
  offset := none

def townColumns : Columns := [(.column "hometown", none), (.operator "count(*)", some "n")]

end LimitTie
