import TextToSqlAgent.Benchmark.Naming

/-!
# The foreign keys of a plan

A constraint names its tables and columns in any case of their letters. SQLite
looks them up so, and the plan takes the constraint as it was spelled.
-/

namespace ForeignKeys

open Python Exceptions Identifiers SqliteSource Plan Naming

/-- Two names that SQLite takes for one. -/
def SameLetters (given declared : String) : Prop := asciiLower given = asciiLower declared

instance (given declared : String) : Decidable (SameLetters given declared) :=
  inferInstanceAs (Decidable (asciiLower given = asciiLower declared))

/-- White space has no case. -/
def StripsAsLower (unicode : Unicode) : Prop :=
  ∀ s, strip (unicode.lower s) = unicode.lower (strip s)

section Reading

variable (database : SqliteDatabase)

/-- What `pragma_foreign_key_list` lists of a table. -/
def keyRows (name : String) : List ForeignKeyRow :=
  match database.stored? name with
  | some entry => entry.foreignKeyRows
  | none => []

/-- The rows of one constraint of a table, in order. -/
def IsConstraint (name : String) (rows : List ForeignKeyRow) : Prop :=
  ∃ row ∈ keyRows database name, rows = (keyRows database name).filter fun r => r.id = row.id

def columnNames (name : String) : List String :=
  (database.tableInfo name).map SqliteColumn.name

/-- A constraint of a table read as a foreign key between declared columns, where
names are looked up by `same`: the referenced columns are given, or are the key
of the referenced table. -/
structure Reads (same : String → String → Prop) (name : String) (rows : List ForeignKeyRow)
    (key : SqliteForeignKey) : Prop where
  table : key.referencedTable ∈ database.tableNames
  named : ∃ row, rows.head? = some row ∧ same row.table key.referencedTable
  columns : List.Forall₂ same (rows.map ForeignKeyRow.localColumn) key.columns
  declared : ∀ column ∈ key.columns, column ∈ columnNames database name
  referenced : (∃ given, rows.mapM ForeignKeyRow.remoteColumn = some given ∧
      List.Forall₂ same given key.referencedColumns) ∨
    (rows.mapM ForeignKeyRow.remoteColumn = none ∧
      key.referencedColumns = keyColumns (database.tableInfo key.referencedTable) ∧
      key.referencedColumns.length = key.columns.length)
  declaredThere : ∀ column ∈ key.referencedColumns,
    column ∈ columnNames database key.referencedTable

end Reading

/-- A planned column stands for a source column. -/
def StandsFor (plan : TablePlan) (raw safe : String) : Prop :=
  ∃ column ∈ plan.columns, column.sourceName = raw ∧ column.targetName = safe

/-- What a foreign key becomes between the planned tables. -/
structure Carries (plans : List TablePlan) (plan : TablePlan) (key : SqliteForeignKey)
    (planned : KeyPlan) : Prop where
  columns : List.Forall₂ (StandsFor plan) key.columns planned.columns
  referenced : ∃ target ∈ plans, target.sourceName = key.referencedTable ∧
    target.targetName = planned.referencedTable ∧
    List.Forall₂ (StandsFor target) key.referencedColumns planned.referencedColumns

/-- Every constraint that SQLite can read is planned. -/
def KeepsKeys (database : SqliteDatabase) (plans : List TablePlan) : Prop :=
  ∀ name ∈ database.tableNames, ∀ rows, IsConstraint database name rows →
    ∀ key, Reads database SameLetters name rows key →
      ∃ plan ∈ plans, plan.sourceName = name ∧
        ∃ planned ∈ plan.foreignKeys, Carries plans plan key planned

/-- Every constraint that SQLite can read is one that is spelled as its columns and
tables are declared, or its table has another that is and says the same. -/
def SpelledAsDeclared (database : SqliteDatabase) : Prop :=
  ∀ name ∈ database.tableNames, ∀ rows, IsConstraint database name rows →
    ∀ key, Reads database SameLetters name rows key →
      ∃ others, IsConstraint database name others ∧ Reads database Eq name others key

variable {unicode : Unicode} {numerals : Numerals} {database : SqliteDatabase}

/-! ## Constraints as they are spelled -/

/-- Grouped rows are, under each number, those of that number in order. -/
theorem get?_groups (rows : List ForeignKeyRow) (i : Int) :
    (rows.foldl (fun grouped row => Dictionary.set grouped row.id
        ((grouped.get? row.id).getD [] ++ [row])) .empty).get? i =
      if i ∈ rows.map ForeignKeyRow.id then some (rows.filter fun row => row.id = i) else none := by
  induction rows using List.reverseRecOn with
  | nil => rfl
  | append_singleton rows row ih =>
    rw [List.foldl_append, List.foldl_cons, List.foldl_nil, Dictionary.get?_set]
    by_cases same : i = row.id
    · subst same
      rw [if_pos rfl, ih]
      by_cases known : row.id ∈ rows.map ForeignKeyRow.id
      · simp [known]
      · have fresh : rows.filter (fun r => r.id = row.id) = [] := by
          rw [List.filter_eq_nil_iff]
          intro r listed twin
          exact known (List.mem_map.mpr ⟨r, listed, of_decide_eq_true twin⟩)
        simp [known, fresh]
    · have other : row.id ≠ i := fun equal => same equal.symm
      rw [if_neg same, ih]
      simp [same, other]

theorem mem_foreignKeys_iff {name : String} {key : SqliteForeignKey} :
    key ∈ database.foreignKeys name ↔
      ∃ rows, IsConstraint database name rows ∧ database.foreignKey? rows = some key := by
  have groups : ∀ i rows, (i, rows) ∈ (database.groupedKeys name).entries ↔
      i ∈ (keyRows database name).map ForeignKeyRow.id ∧
        rows = (keyRows database name).filter fun row => row.id = i := by
    intro i rows
    rw [Dictionary.mem_entries_iff]
    refine (congrArg (· = some rows) (get?_groups (keyRows database name) i)).to_iff.trans ?_
    split
    · rename_i known
      rw [Option.some.injEq]
      exact ⟨fun same => ⟨known, same.symm⟩, fun found => found.2.symm⟩
    · rename_i unknown
      exact ⟨nofun, fun found => absurd found.1 unknown⟩
  rw [SqliteDatabase.foreignKeys, List.mem_filterMap]
  constructor
  · rintro ⟨⟨i, rows⟩, listed, found⟩
    obtain ⟨known, rfl⟩ := (groups i rows).mp listed
    obtain ⟨row, own, rfl⟩ := List.mem_map.mp known
    exact ⟨_, ⟨row, own, rfl⟩, found⟩
  · rintro ⟨rows, ⟨row, own, rfl⟩, found⟩
    exact ⟨(row.id, _), (groups _ _).mpr ⟨List.mem_map_of_mem own, rfl⟩, found⟩

/-- A key of which every name is declared as it is spelled. -/
structure Declared (database : SqliteDatabase) (name : String) (key : SqliteForeignKey) :
    Prop where
  table : key.referencedTable ∈ database.tableNames
  columns : ∀ column ∈ key.columns, column ∈ columnNames database name
  referenced : ∀ column ∈ key.referencedColumns, column ∈ columnNames database key.referencedTable

theorem Reads.isDeclared {same : String → String → Prop} {name : String}
    {rows : List ForeignKeyRow} {key : SqliteForeignKey}
    (reads : Reads database same name rows key) : Declared database name key :=
  ⟨reads.table, reads.declared, reads.declaredThere⟩

/-- Looked up as it is spelled, a constraint is read as the code takes it. -/
theorem reads_eq_iff {name : String} {rows : List ForeignKeyRow} {key : SqliteForeignKey}
    (some_ : rows ≠ []) :
    Reads database Eq name rows key ↔
      database.foreignKey? rows = some key ∧ Declared database name key := by
  obtain ⟨row, rest, rfl⟩ := List.exists_cons_of_ne_nil some_
  constructor
  · intro reads
    refine ⟨?_, reads.isDeclared⟩
    obtain ⟨first, head, table⟩ := reads.named
    obtain rfl := Option.some.inj head
    have columns := List.forall₂_eq_eq_eq ▸ reads.columns
    obtain ⟨locals, referencedTable, remotes⟩ := key
    rw [SqliteDatabase.foreignKey?]
    rcases reads.referenced with ⟨given, mapped, same⟩ | ⟨implied, same, fit⟩
    · have same := List.forall₂_eq_eq_eq ▸ same
      rw [mapped]
      simp_all
    · rw [implied]
      simp_all
  · rintro ⟨found, declared⟩
    rw [SqliteDatabase.foreignKey?] at found
    dsimp only at found
    split at found
    · rename_i given mapped
      cases found
      exact ⟨declared.table, ⟨row, rfl, rfl⟩, List.forall₂_same.mpr fun _ _ => rfl,
        declared.columns, .inl ⟨given, mapped, List.forall₂_same.mpr fun _ _ => rfl⟩,
        declared.referenced⟩
    · rename_i implied
      split at found
      · cases found
      · rename_i fit
        cases found
        exact ⟨declared.table, ⟨row, rfl, rfl⟩, List.forall₂_same.mpr fun _ _ => rfl,
          declared.columns, .inr ⟨implied, rfl, not_not.mp fit⟩, declared.referenced⟩

theorem ne_nil_of_isConstraint {name : String} {rows : List ForeignKeyRow}
    (constraint : IsConstraint database name rows) : rows ≠ [] := by
  obtain ⟨row, listed, rfl⟩ := constraint
  exact List.ne_nil_of_mem (List.mem_filter.mpr ⟨listed, decide_eq_true rfl⟩)

/-! ## Names that differ in their letters' case -/

/-- Names that a map is built of. -/
def Mapped (unicode : Unicode) (names : List String) : Prop :=
  (∀ name ∈ names, PassesAsName name) ∧ Apart unicode names

theorem strip_asciiLower (s : String) :
    (strip (asciiLower s)).toList = (strip s).toList.map Char.toLower := by
  rw [strip, strip, asciiLower, String.toList_ofList, String.toList_ofList, String.toList_ofList,
    dropWhile_map fun c _ => isSpace_toLower c, rdropWhile_map fun c _ => isSpace_toLower c]

theorem lowered_toLower {c : Char} (passes : Passes c) : lowered c.toLower = lowered c := by
  rcases passes with plain | rfl
  · exact ascii_cases (fun c => lowered c.toLower = lowered c) (by decide)
      (ascii_of_not_offending plain)
  · decide

theorem identifierOf_of_sameLetters {one other : String} (passes : PassesAsName one)
    (passes' : PassesAsName other) (same : SameLetters one other) :
    identifierOf unicode one = identifierOf unicode other := by
  have folded {name : String} (passes : PassesAsName name) :
      (identifierOf unicode name).toList = (strip (asciiLower name)).toList.map lowered := by
    rw [identifierOf, lower_of_passes passes.passes, strip_asciiLower, List.map_map]
    exact List.map_congr_left fun c listed => (lowered_toLower (passes.passes c listed)).symm
  rw [← String.toList_inj, folded passes, folded passes', same]

theorem Mapped.eq_of_sameLetters {names : List String} (mapped : Mapped unicode names)
    {given one other : String} (first : one ∈ names) (second : other ∈ names)
    (same : SameLetters given one) (same' : SameLetters given other) : one = other :=
  mapped.2 one first other second (identifierOf_of_sameLetters (mapped.1 one first)
    (mapped.1 other second) (same.symm.trans same'))

theorem Mapped.eq_of_forall₂ {names : List String} (mapped : Mapped unicode names)
    {given one other : List String} (first : ∀ name ∈ one, name ∈ names)
    (second : ∀ name ∈ other, name ∈ names) (same : List.Forall₂ SameLetters given one)
    (same' : List.Forall₂ SameLetters given other) : one = other := by
  induction same generalizing other with
  | nil =>
    cases same'
    rfl
  | cons head tail ih =>
    cases same' with
    | cons head' tail' =>
      rw [mapped.eq_of_sameLetters (first _ List.mem_cons_self) (second _ List.mem_cons_self)
        head head', ih (fun name listed => first name (List.mem_cons_of_mem _ listed))
          (fun name listed => second name (List.mem_cons_of_mem _ listed)) tail']

/-- Where names can be mapped, SQLite reads a constraint as one key. -/
theorem reads_unique (tables : Mapped unicode database.tableNames)
    (columns : ∀ name ∈ database.tableNames, Mapped unicode (columnNames database name))
    {name : String} (listed : name ∈ database.tableNames) {rows : List ForeignKeyRow}
    {key other : SqliteForeignKey} (reads : Reads database SameLetters name rows key)
    (reads' : Reads database SameLetters name rows other) : key = other := by
  obtain ⟨locals, table, remotes⟩ := key
  obtain ⟨locals', table', remotes'⟩ := other
  obtain ⟨row, head, named⟩ := reads.named
  obtain ⟨row', head', named'⟩ := reads'.named
  obtain rfl : row = row' := Option.some.inj (head.symm.trans head')
  obtain rfl : table = table' := tables.eq_of_sameLetters reads.table reads'.table named named'
  obtain rfl : locals = locals' := (columns name listed).eq_of_forall₂ reads.declared
    reads'.declared reads.columns reads'.columns
  rw [SqliteForeignKey.mk.injEq]
  refine ⟨rfl, rfl, ?_⟩
  rcases reads.referenced with ⟨given, mapped, same⟩ | ⟨implied, same, -⟩ <;>
    rcases reads'.referenced with ⟨given', mapped', same'⟩ | ⟨implied', same', -⟩
  · obtain rfl := Option.some.inj (mapped.symm.trans mapped')
    exact (columns table reads.table).eq_of_forall₂ reads.declaredThere reads'.declaredThere
      same same'
  · cases mapped.symm.trans implied'
  · cases mapped'.symm.trans implied
  · exact same.trans same'.symm

/-- What is spelled as it is declared is so read. -/
theorem Reads.sameLetters {name : String} {rows : List ForeignKeyRow} {key : SqliteForeignKey}
    (reads : Reads database Eq name rows key) : Reads database SameLetters name rows key := by
  obtain ⟨row, head, named⟩ := reads.named
  refine ⟨reads.table, ⟨row, head, congrArg asciiLower named⟩,
    reads.columns.imp fun _ _ => congrArg asciiLower, reads.declared, ?_, reads.declaredThere⟩
  rcases reads.referenced with ⟨given, mapped, same⟩ | implied
  · exact .inl ⟨given, mapped, same.imp fun _ _ => congrArg asciiLower⟩
  · exact .inr implied

/-! ## What is planned -/

/-- A key with every name folded. -/
def targetOf (unicode : Unicode) (key : SqliteForeignKey) : KeyPlan :=
  ⟨key.columns.map (identifierOf unicode), identifierOf unicode key.referencedTable,
    key.referencedColumns.map (identifierOf unicode)⟩

theorem mapM_safe_iff {raws names identifiers : List String} {kind : String} {map : IdentifierMap}
    (built : IdentifierMap.build unicode raws kind = .ok map) :
    names.mapM (map.safe unicode) = .ok identifiers ↔
      (∀ name ∈ names, name ∈ raws) ∧ identifiers = names.map (identifierOf unicode) := by
  constructor
  · intro mapped
    refine ⟨fun name listed => ?_, ?_⟩
    · obtain ⟨identifier, safe⟩ := Fallible.ok_of_mapM mapped name listed
      exact ((safe_of_build built).mp safe).1
    · rw [← List.map_id identifiers]
      exact Fallible.map_of_mapM mapped fun name identifier safe =>
        ((safe_of_build built).mp safe).2.symm
  · rintro ⟨inside, rfl⟩
    exact Fallible.mapM_ok fun name listed => (safe_of_build built).mpr ⟨inside name listed, rfl⟩

/-- A table that is spelled as it is declared is found under its own identifier. -/
theorem resolveFkTable_of_mem (strips : StripsAsLower unicode) {names : List String}
    {kind : String} {tableMap : IdentifierMap}
    (built : IdentifierMap.build unicode names kind = .ok tableMap) {referenced : String}
    (listed : referenced ∈ names) :
    resolveFkTable unicode referenced tableMap = some (identifierOf unicode referenced) := by
  have known : ∀ raw safe, (raw, safe) ∈ tableMap.forward.entries ↔
      raw ∈ names ∧ identifierOf unicode raw = safe := by
    intro raw safe
    rw [Dictionary.mem_entries_iff, ← Retyping.safe_ok_iff, safe_of_build built]
  rw [resolveFkTable]
  cases found : tableMap.forward.entries.find? fun entry =>
      decide (unicode.lower entry.1 = unicode.lower referenced) with
  | none =>
    have absent := List.find?_eq_none.mp found _ ((known referenced _).mpr ⟨listed, rfl⟩)
    simp at absent
  | some entry =>
    have lower : unicode.lower entry.1 = unicode.lower referenced := by
      simpa using List.find?_some found
    obtain ⟨-, safe⟩ := (known entry.1 entry.2).mp (List.mem_of_find?_eq_some found)
    rw [Option.map_some, ← safe, identifierOf, identifierOf, ← strips, ← strips, lower]

/-- The maps of the columns of every table, by the table's name. -/
structure Maps (unicode : Unicode) (database : SqliteDatabase)
    (columnMaps : Dictionary String IdentifierMap) : Prop where
  built : ∀ name columns, columnMaps.get? name = some columns → name ∈ database.tableNames ∧
    IdentifierMap.build unicode (columnNames database name) "column" = .ok columns
  all : ∀ name ∈ database.tableNames, ∃ columns, columnMaps.get? name = some columns

/-- A key is planned exactly where every name is declared as it is spelled. -/
theorem planKey?_iff (strips : StripsAsLower unicode) {tableMap columns : IdentifierMap}
    {columnMaps : Dictionary String IdentifierMap}
    (tables : IdentifierMap.build unicode database.tableNames "table" = .ok tableMap)
    (maps : Maps unicode database columnMaps) {name : String}
    (own : columnMaps.get? name = some columns) {key : SqliteForeignKey} {planned : KeyPlan} :
    planKey? unicode columns tableMap columnMaps key = some planned ↔
      Declared database name key ∧ planned = targetOf unicode key := by
  have builtHere := (maps.built name columns own).2
  rw [planKey?]
  cases there : columnMaps.get? key.referencedTable with
  | none =>
    refine ⟨fun found => ?_, fun ⟨declared, _⟩ => ?_⟩
    · split at found
      · rename_i taken
        cases taken
      · cases found
    · obtain ⟨remoteColumns, taken⟩ := maps.all _ declared.table
      rw [there] at taken
      cases taken
  | some remoteColumns =>
    obtain ⟨listed, builtThere⟩ := maps.built _ _ there
    rw [resolveFkTable_of_mem strips tables listed]
    dsimp only
    constructor
    · intro found
      split at found
      · rename_i localColumns remote first second
        obtain ⟨inside, rfl⟩ := (mapM_safe_iff builtHere).mp first
        obtain ⟨insideThere, rfl⟩ := (mapM_safe_iff builtThere).mp second
        exact ⟨⟨listed, inside, insideThere⟩, (Option.some.inj found).symm⟩
      · cases found
    · rintro ⟨declared, rfl⟩
      rw [(mapM_safe_iff builtHere).mpr ⟨declared.columns, rfl⟩,
        (mapM_safe_iff builtThere).mpr ⟨declared.referenced, rfl⟩]
      rfl

/-- What a table is planned as has its own name, columns and keys. -/
structure Planned (unicode : Unicode) (database : SqliteDatabase) (plan : TablePlan) : Prop where
  listed : plan.sourceName ∈ database.tableNames
  target : plan.targetName = identifierOf unicode plan.sourceName
  sources : plan.columns.map ColumnPlan.sourceName = columnNames database plan.sourceName
  targets : ∀ column ∈ plan.columns, column.targetName = identifierOf unicode column.sourceName
  keys : ∀ planned, planned ∈ plan.foreignKeys ↔
    ∃ key ∈ database.foreignKeys plan.sourceName,
      Declared database plan.sourceName key ∧ planned = targetOf unicode key

theorem planned_of_planTable (strips : StripsAsLower unicode) {tableMap : IdentifierMap}
    {columnMaps : Dictionary String IdentifierMap}
    (tables : IdentifierMap.build unicode database.tableNames "table" = .ok tableMap)
    (maps : Maps unicode database columnMaps) {name target : String} {source : SqliteTable}
    (listed : name ∈ database.tableNames) (read : database.table unicode name = .ok source)
    (named : tableMap.safe unicode source.name = .ok target) {plan : TablePlan}
    (planned : planTable unicode database source target tableMap columnMaps = .ok plan) :
    Planned unicode database plan := by
  obtain ⟨rfl, info⟩ := table_ok read
  obtain ⟨sourceName, sources⟩ := sources_of_planTable planned
  obtain ⟨targetName, columns, own, targets⟩ := Retyping.columns_of_planTable planned
  have built := (maps.built _ columns own).2
  refine ⟨sourceName ▸ listed, ?_, ?_, fun column member => ?_, fun key => ?_⟩
  · rw [targetName, sourceName, ((safe_of_build tables).mp named).2]
  · rw [sources, info, sourceName]
    rfl
  · exact ((safe_of_build built).mp (targets column member).1).2.symm
  · have keys : plan.foreignKeys = source.foreignKeys.filterMap
        (planKey? unicode columns tableMap columnMaps) := by
      obtain ⟨map, looked, planned⟩ := Fallible.bind_ok_iff.mp planned
      obtain ⟨classes, -, planned⟩ := Fallible.bind_ok_iff.mp planned
      obtain ⟨plans, -, planned⟩ := Fallible.bind_ok_iff.mp planned
      obtain ⟨primary, -, planned⟩ := Fallible.bind_ok_iff.mp planned
      rw [lookup, own] at looked
      cases looked
      cases planned
      rfl
    have sourceKeys : source.foreignKeys = database.foreignKeys source.name := by
      rw [SqliteDatabase.table] at read
      split at read
      · cases read
      · rw [← Except.ok.inj read]
    rw [keys, sourceKeys, sourceName, List.mem_filterMap]
    exact exists_congr fun key => and_congr_right fun _ => planKey?_iff strips tables maps own

theorem Planned.applyRetypes {plan : TablePlan} (planned : Planned unicode database plan)
    (retyped : Retyped) : Planned unicode database (applyRetypes plan retyped) := by
  refine ⟨planned.listed, planned.target, ?_, fun column member => ?_, planned.keys⟩
  · rw [sources_applyRetypes]
    exact planned.sources
  · obtain ⟨old, own, rfl⟩ := List.mem_map.mp member
    have kept := planned.targets old own
    split <;> exact kept

theorem maps_of_mapM {sources : List SqliteTable} {maps : List (String × IdentifierMap)}
    (reads : database.tableNames.mapM (fun name => raising (database.table unicode name)) =
      .ok sources)
    (mapped : (sources.mapM fun source => do
      let map ← raising (IdentifierMap.build unicode (source.columns.map SqliteColumn.name)
        "column")
      return (source.name, map)) = .ok maps) : Maps unicode database (.ofList maps) := by
  constructor
  · intro name columns found
    obtain ⟨source, listed, made⟩ :=
      (Fallible.mem_of_mapM mapped).mp (Dictionary.mem_of_get?_ofList found)
    obtain ⟨map, built, paired⟩ := Fallible.bind_ok_iff.mp made
    obtain ⟨rfl, rfl⟩ := Prod.mk.inj (Except.ok.inj paired)
    obtain ⟨asked, there, read⟩ := (Fallible.mem_of_mapM reads).mp listed
    obtain ⟨own, info⟩ := table_ok (raising_ok_iff.mp read)
    rw [own, columnNames, ← info]
    exact ⟨there, raising_ok_iff.mp built⟩
  · intro name listed
    obtain ⟨source, read⟩ := Fallible.ok_of_mapM reads name listed
    have member := (Fallible.mem_of_mapM reads).mpr ⟨name, listed, read⟩
    obtain ⟨pair, made⟩ := Fallible.ok_of_mapM mapped source member
    obtain ⟨map, -, paired⟩ := Fallible.bind_ok_iff.mp made
    have own : pair.1 = name := by
      rw [← Except.ok.inj paired, (table_ok (raising_ok_iff.mp read)).1]
    refine Dictionary.exists_get?_ofList (List.mem_map.mpr ⟨pair, ?_, own⟩)
    exact (Fallible.mem_of_mapM mapped).mpr ⟨source, member, made⟩

theorem planned_of_planDatabase (strips : StripsAsLower unicode) {pre schema : String}
    {plans : List TablePlan}
    (planned : planDatabase unicode numerals database pre = .ok (schema, plans)) :
    (∀ plan ∈ plans, Planned unicode database plan) ∧ Mapped unicode database.tableNames ∧
      ∀ name ∈ database.tableNames, Mapped unicode (columnNames database name) := by
  obtain ⟨name, -, rest⟩ := Fallible.bind_ok_iff.mp planned
  split at rest
  · cases rest
  · obtain ⟨tables, tabled, rest⟩ := Fallible.bind_ok_iff.mp rest
    obtain ⟨unified, unifies, rest⟩ := Fallible.bind_ok_iff.mp rest
    cases rest
    obtain ⟨retyped, -, done⟩ := Fallible.bind_ok_iff.mp unifies
    cases done
    obtain ⟨tableMap, built, tabled⟩ := Fallible.bind_ok_iff.mp tabled
    obtain ⟨sources, reads, tabled⟩ := Fallible.bind_ok_iff.mp tabled
    obtain ⟨maps, mapped, tabled⟩ := Fallible.bind_ok_iff.mp tabled
    have built := raising_ok_iff.mp built
    have maps := maps_of_mapM reads mapped
    refine ⟨fun plan listed => ?_, build_isOk_iff.mp ⟨tableMap, built⟩, fun name listed => ?_⟩
    · obtain ⟨table, member, rfl⟩ := List.mem_map.mp listed
      obtain ⟨source, there, made⟩ := (Fallible.mem_of_mapM tabled).mp member
      obtain ⟨name, asked, read⟩ := (Fallible.mem_of_mapM reads).mp there
      obtain ⟨target, named, made⟩ := Fallible.bind_ok_iff.mp made
      exact (planned_of_planTable strips built maps asked (raising_ok_iff.mp read)
        (raising_ok_iff.mp named) made).applyRetypes retyped
    · obtain ⟨columns, own⟩ := maps.all name listed
      exact build_isOk_iff.mp ⟨columns, (maps.built name columns own).2⟩

/-! ## What is kept -/

theorem standsFor_iff {plan : TablePlan} (planned : Planned unicode database plan)
    {raw safe : String} :
    StandsFor plan raw safe ↔
      raw ∈ columnNames database plan.sourceName ∧ identifierOf unicode raw = safe := by
  rw [← planned.sources]
  constructor
  · rintro ⟨column, listed, rfl, rfl⟩
    exact ⟨List.mem_map_of_mem listed, (planned.targets column listed).symm⟩
  · rintro ⟨listed, rfl⟩
    obtain ⟨column, own, rfl⟩ := List.mem_map.mp listed
    exact ⟨column, own, rfl, planned.targets column own⟩

theorem forall₂_standsFor_iff {plan : TablePlan} (planned : Planned unicode database plan)
    {raws safes : List String}
    (inside : ∀ raw ∈ raws, raw ∈ columnNames database plan.sourceName) :
    List.Forall₂ (StandsFor plan) raws safes ↔ safes = raws.map (identifierOf unicode) := by
  constructor
  · intro stands
    induction stands with
    | nil => rfl
    | cons first rest ih =>
      rw [List.map_cons, ((standsFor_iff planned).mp first).2,
        ih fun raw listed => inside raw (List.mem_cons_of_mem _ listed)]
  · rintro rfl
    rw [List.forall₂_map_right_iff, List.forall₂_same]
    exact fun raw listed => (standsFor_iff planned).mpr ⟨inside raw listed, rfl⟩

theorem exists_plan {plans : List TablePlan} (covers : Covers database plans) {name : String}
    (listed : name ∈ database.tableNames) : ∃ plan ∈ plans, plan.sourceName = name := by
  have names := congrArg (List.map Prod.fst) covers
  simp only [List.map_map, Function.comp_def, List.map_id'] at names
  exact List.mem_map.mp (names ▸ listed)

/-- A declared key is carried as itself with every name folded. -/
theorem carries_iff {plans : List TablePlan} (covers : Covers database plans)
    (each : ∀ plan ∈ plans, Planned unicode database plan) {plan : TablePlan}
    (listed : plan ∈ plans) {key : SqliteForeignKey}
    (declared : Declared database plan.sourceName key) {planned : KeyPlan} :
    Carries plans plan key planned ↔ planned = targetOf unicode key := by
  obtain ⟨locals, table, remotes⟩ := planned
  constructor
  · rintro ⟨columns, target, there, source, rfl, referenced⟩
    have inside := declared.referenced
    rw [← source] at inside
    rw [targetOf, KeyPlan.mk.injEq]
    refine ⟨(forall₂_standsFor_iff (each plan listed) declared.columns).mp columns, ?_,
      (forall₂_standsFor_iff (each target there) inside).mp referenced⟩
    rw [(each target there).target, source]
  · intro same
    obtain ⟨rfl, rfl, rfl⟩ := KeyPlan.mk.inj same
    obtain ⟨target, there, source⟩ := exists_plan covers declared.table
    have inside := declared.referenced
    rw [← source] at inside
    refine ⟨(forall₂_standsFor_iff (each plan listed) declared.columns).mpr rfl, target, there,
      source, ?_, (forall₂_standsFor_iff (each target there) inside).mpr rfl⟩
    rw [(each target there).target, source]

theorem eq_of_map_identifierOf {raws one other : List String} (apart : Apart unicode raws)
    (first : ∀ name ∈ one, name ∈ raws) (second : ∀ name ∈ other, name ∈ raws)
    (same : one.map (identifierOf unicode) = other.map (identifierOf unicode)) : one = other := by
  rw [← List.forall₂_eq_eq_eq, List.forall₂_map_left_iff, List.forall₂_map_right_iff] at same
  induction same with
  | nil => rfl
  | cons head tail ih =>
    rw [apart _ (first _ List.mem_cons_self) _ (second _ List.mem_cons_self) head,
      ih (fun name listed => first name (List.mem_cons_of_mem _ listed))
        fun name listed => second name (List.mem_cons_of_mem _ listed)]

/-- No two declared keys of a table are planned as one. -/
theorem targetOf_injective (tables : Mapped unicode database.tableNames)
    (columns : ∀ name ∈ database.tableNames, Mapped unicode (columnNames database name))
    {name : String} (listed : name ∈ database.tableNames) {key other : SqliteForeignKey}
    (declared : Declared database name key) (declared' : Declared database name other)
    (same : targetOf unicode key = targetOf unicode other) : key = other := by
  obtain ⟨locals, table, remotes⟩ := key
  obtain ⟨locals', table', remotes'⟩ := other
  obtain ⟨first, second, third⟩ := KeyPlan.mk.inj same
  obtain rfl : table = table' := tables.2 _ declared.table _ declared'.table second
  rw [SqliteForeignKey.mk.injEq]
  exact ⟨eq_of_map_identifierOf (columns name listed).2 declared.columns declared'.columns first,
    rfl, eq_of_map_identifierOf (columns table declared.table).2 declared.referenced
      declared'.referenced third⟩

/-- A plan keeps every foreign key exactly where each is spelled as it is declared. -/
theorem keepsKeys_iff (unicode : Unicode) (numerals : Numerals) (database : SqliteDatabase)
    (pre schema : String) (plans : List TablePlan) (strips : StripsAsLower unicode)
    (planned : planDatabase unicode numerals database pre = .ok (schema, plans)) :
    KeepsKeys database plans ↔ SpelledAsDeclared database := by
  obtain ⟨each, tables, columns⟩ := planned_of_planDatabase strips planned
  have covers := covers_planDatabase planned
  refine forall_congr' fun name => forall_congr' fun listed => forall_congr' fun rows =>
    forall_congr' fun _ => forall_congr' fun key => forall_congr' fun reads => ?_
  constructor
  · rintro ⟨plan, member, rfl, made, keys, carries⟩
    obtain rfl := (carries_iff covers each member reads.isDeclared).mp carries
    obtain ⟨other, found, declared, same⟩ := ((each plan member).keys _).mp keys
    obtain rfl := targetOf_injective tables columns listed reads.isDeclared declared same
    obtain ⟨others, constraint, taken⟩ := mem_foreignKeys_iff.mp found
    exact ⟨others, constraint,
      (reads_eq_iff (ne_nil_of_isConstraint constraint)).mpr ⟨taken, declared⟩⟩
  · rintro ⟨others, constraint, spelled⟩
    obtain ⟨taken, declared⟩ := (reads_eq_iff (ne_nil_of_isConstraint constraint)).mp spelled
    obtain ⟨plan, member, rfl⟩ := exists_plan covers listed
    refine ⟨plan, member, rfl, targetOf unicode key, ((each plan member).keys _).mpr ⟨key,
      mem_foreignKeys_iff.mpr ⟨others, constraint, taken⟩, declared, rfl⟩, ?_⟩
    exact (carries_iff covers each member declared).mpr rfl

/-! ## A database that keeps its keys, and one that does not -/

private def unread : Numerals where
  float _ := none
  intOfBytes _ := none
  floatOfBytes _ := none
  reprFloat _ := ""
  decodeReplacing _ := ""

private def stored (name : String) (columns : List SqliteColumn) (keys : List ForeignKeyRow) :
    Stored where
  type := "table"
  name := name
  sql := some ""
  columns := columns
  foreignKeyRows := keys
  content := ⟨[], none⟩

/-- Seats of a hall, by row and number, and bookings of them. -/
private def hall : SqliteDatabase where
  dbId := "hall"
  master := [
    stored "Booking" [⟨"Seat_Row", "TEXT", 0⟩, ⟨"Seat_No", "INTEGER", 0⟩]
      [⟨0, 0, "Seat", "Seat_Row", none⟩, ⟨0, 1, "Seat", "Seat_No", none⟩],
    stored "Seat" [⟨"No", "INTEGER", 2⟩, ⟨"Row", "TEXT", 1⟩] []]

/-- Concerts in a stadium, which they call a `Stadium`. -/
private def concerts : SqliteDatabase where
  dbId := "concerts"
  master := [
    stored "concert" [⟨"stadium_id", "INTEGER", 0⟩]
      [⟨0, 0, "Stadium", "stadium_id", some "id"⟩],
    stored "stadium" [⟨"id", "INTEGER", 1⟩] []]

private def seat : TablePlan where
  sourceName := "Seat"
  targetName := "seat"
  columns := [⟨"No", "no", .bigint, "INTEGER"⟩, ⟨"Row", "row", .text, "TEXT"⟩]
  primaryKey := ["row", "no"]
  foreignKeys := []

private def booking : TablePlan where
  sourceName := "Booking"
  targetName := "booking"
  columns := [⟨"Seat_Row", "seat_row", .text, "TEXT"⟩, ⟨"Seat_No", "seat_no", .bigint, "INTEGER"⟩]
  primaryKey := []
  foreignKeys := [⟨["seat_row", "seat_no"], "seat", ["row", "no"]⟩]

private def concert : TablePlan where
  sourceName := "concert"
  targetName := "concert"
  columns := [⟨"stadium_id", "stadium_id", .bigint, "INTEGER"⟩]
  primaryKey := []
  foreignKeys := []

private def stadium : TablePlan where
  sourceName := "stadium"
  targetName := "stadium"
  columns := [⟨"id", "id", .bigint, "INTEGER"⟩]
  primaryKey := ["id"]
  foreignKeys := []

private theorem planned_hall :
    planDatabase plainUnicode unread hall "" = .ok ("hall", [booking, seat]) :=
  Fallible.toOption_eq_some_iff.mp (by decide)

private theorem stripsAsLower_plainUnicode : StripsAsLower plainUnicode := by
  have blank (c : Char) : isSpace (if c.toNat < 128 then c.toLower else
      if c.toNat = 0x212A then 'k' else c) = isSpace c := by
    split_ifs with ascii sign
    · exact isSpace_toLower c
    · rw [eq_kelvin_iff.mpr sign]
      decide
    · rfl
  intro s
  rw [← String.toList_inj]
  simp only [plainUnicode, strip, String.toList_ofList]
  rw [dropWhile_map fun c _ => blank c, rdropWhile_map fun c _ => blank c]

/-- A composite key that its table's own implies. -/
theorem keepsKeys_hall :
    planDatabase plainUnicode unread hall "" = .ok ("hall", [booking, seat]) ∧
      KeepsKeys hall [booking, seat] := by
  refine ⟨planned_hall, (keepsKeys_iff plainUnicode unread hall "" "hall" [booking, seat]
    stripsAsLower_plainUnicode planned_hall).mpr fun name listed rows constraint key reads => ?_⟩
  have names : hall.tableNames = ["Booking", "Seat"] := by decide
  obtain ⟨-, tables, columns⟩ :=
    planned_of_planDatabase stripsAsLower_plainUnicode planned_hall
  have listed' := listed
  rw [names] at listed'
  rcases List.mem_cons.mp listed' with rfl | second
  · obtain ⟨row, own, rfl⟩ := constraint
    have rows : keyRows hall "Booking" =
        [⟨0, 0, "Seat", "Seat_Row", none⟩, ⟨0, 1, "Seat", "Seat_No", none⟩] := rfl
    have number : row.id = 0 := by
      rw [rows] at own
      simp only [List.mem_cons, List.not_mem_nil, or_false] at own
      rcases own with rfl | rfl <;> rfl
    have spelled : Reads hall Eq "Booking"
        ((keyRows hall "Booking").filter fun r => r.id = row.id)
        ⟨["Seat_Row", "Seat_No"], "Seat", ["Row", "No"]⟩ := by
      rw [number]
      refine (reads_eq_iff (by rw [rows]; decide)).mpr ⟨by decide, ?_, ?_, ?_⟩
      · decide
      · decide
      · decide
    obtain rfl := reads_unique tables columns listed reads spelled.sameLetters
    exact ⟨_, ⟨row, own, rfl⟩, spelled⟩
  · obtain rfl := List.mem_singleton.mp second
    obtain ⟨row, own, -⟩ := constraint
    cases own

/-- A key to a `Stadium` where the table is `stadium`. -/
theorem stadium_dropped :
    planDatabase plainUnicode unread concerts "" = .ok ("concerts", [concert, stadium]) ∧
      ¬KeepsKeys concerts [concert, stadium] := by
  refine ⟨Fallible.toOption_eq_some_iff.mp (by decide), fun keeps => ?_⟩
  have reads : Reads concerts SameLetters "concert"
      [⟨0, 0, "Stadium", "stadium_id", some "id"⟩] ⟨["stadium_id"], "stadium", ["id"]⟩ :=
    ⟨by decide, ⟨_, rfl, by decide⟩, .cons (by decide) .nil, by decide,
      .inl ⟨["id"], rfl, .cons (by decide) .nil⟩, by decide⟩
  obtain ⟨plan, listed, -, made, member, -⟩ :=
    keeps "concert" (by decide) _ ⟨_, List.mem_cons_self, rfl⟩ _ reads
  have none_ : plan.foreignKeys = [] := by
    simp only [List.mem_cons, List.not_mem_nil, or_false] at listed
    rcases listed with rfl | rfl <;> rfl
  rw [none_] at member
  cases member

end ForeignKeys
