import TextToSqlAgent.Api.SseEvent
import TextToSqlAgent.Execution.Executor
import TextToSqlAgent.Web.JsonParse

/-!
# The rows of a result on the wire

`json.dumps` of the `rows` event, as `ServerSentEvent.encode` calls it, and what
the client's `parseEvent` makes of the payload. Values are as the driver returns
them; a nested value is one that `json.loads` has read, or an array.
-/

namespace RowsWire

open Python Executor SseEvent Documents Utf16 Events FloatText

/-! ## The server's values -/

/-- What a `str` is made of. `json.loads` leaves half of a surrogate pair, where
the database's JSON has one, as it is. -/
inductive CodePoint
  | char (c : Char)
  | surrogate (i : Fin 0x800)
  deriving DecidableEq, Repr

abbrev PyStr : Type := List CodePoint

def pyStr (s : String) : PyStr := s.toList.map .char

def CodePoint.escape : CodePoint → List Char
  | .char c => JsonText.escapeChar c
  | .surrogate i => JsonText.escapedUnit (0xD800 + i)

def quoted (s : PyStr) : List Char := '"' :: (s.flatMap CodePoint.escape ++ ['"'])

/-- A value that is neither a list nor a dictionary. The float `-0.0` is no
rational number; of a value that JSON cannot express, there is what `str` makes
of it. -/
inductive Leaf
  | null
  | bool (b : Bool)
  | int (n : Int)
  | float (x : PyFloat)
  | minusZero
  | str (s : PyStr)
  | other (shown : PyStr)
  deriving DecidableEq, Repr

/-- A value of a result. -/
abbrev Value : Type := Doc PyStr Leaf

/-! ## json.dumps -/

/-- A value as `json.dumps` writes it, with `default=str`. -/
def Leaf.text : Leaf → List Char
  | .null => "null".toList
  | .bool b => (if b then "true" else "false").toList
  | .int n => (toString n).toList
  | .float (.finite q) => floatText q
  | .float (.inf negative) => (if negative then "-Infinity" else "Infinity").toList
  | .float .nan => "NaN".toList
  | .minusZero => ['-', '0', '.', '0']
  | .str s => quoted s
  | .other shown => quoted shown

/-- A token with the separators `(",", ":")`. -/
def tokenText : Token Leaf → List Char
  | .leaf leaf => leaf.text
  | .openArray => ['[']
  | .closeArray => [']']
  | .openObject => ['\x7b']
  | .closeObject => ['\x7d']
  | .comma => [',']
  | .colon => [':']

def tokensText (tokens : List (Token Leaf)) : List Char := tokens.flatMap tokenText

/-- `json.dumps(value, separators=(",", ":"), default=str)`. -/
def dumps (value : Value) : String := String.ofList (tokensText (value.tokens .str))

/-- No blanks, and everything outside printable ASCII is escaped. -/
example : dumps (.array [.leaf .null, .leaf (.float (.finite (1 / 2))), .leaf (.float (.inf true)),
    .object [(pyStr "é", .leaf (.other (pyStr "2024-01-01")))], .leaf (.str [.surrogate 3])]) =
    "[null,0.5,-Infinity,\x7b\"\\u00e9\":\"2024-01-01\"\x7d,\"\\ud803\"]" := by
  decide +kernel

/-! ## The event -/

/-- `columns`, `rows` and `truncated`, as they are emitted. -/
def rowsData (result : QueryResult Value) : Value :=
  .object [(pyStr "columns", .array (result.columns.map fun column => .leaf (.str (pyStr column)))),
    (pyStr "rows", .array (result.rows.map .array)),
    (pyStr "truncated", .leaf (.bool result.truncated))]

def rowsEvent (result : QueryResult Value) : ServerSentEvent Value where
  event := "rows"
  data := rowsData result
  legal := by decide

/-- The payload of the encoded event is accepted by the client, and has the same
columns, rows of the same lengths, and the same flag. -/
def Survives (result : QueryResult Value) : Prop :=
  ∃ payload rows,
    (rowsEvent result).encode dumps = .ok ("event: rows\ndata: " ++ payload ++ "\n\n") ∧
      parseEvent JsonParse.parse (js "rows") (js payload) =
        some (.rows (result.columns.map js) rows result.truncated) ∧
      rows.map List.length = result.rows.map List.length

/-! ## What arrives -/

def CodePoint.units : CodePoint → JsString
  | .char c => utf16Char c
  | .surrogate i => [UInt16.ofNat (0xD800 + i)]

def units (s : PyStr) : JsString := s.flatMap CodePoint.units

/-- What the client reads of a value; a float that is no number is never read. -/
def Leaf.arrived : Leaf → JsonParse.Leaf
  | .null => .null
  | .bool b => .bool b
  | .str s => .string (units s)
  | .other shown => .string (units shown)
  | number => .number ((JsonParse.number? number.text).getD .nan)

/-- No float that is NaN or infinite. -/
def Leaf.Expressible (leaf : Leaf) : Prop := ∀ x, leaf = .float x → ∃ q, x = .finite q

theorem units_pyStr (s : String) : units (pyStr s) = js s := by
  rw [units, pyStr, List.flatMap_map]
  rfl

theorem scanString_quoted (s : PyStr) (rest : JsString) :
    JsonParse.scanString ((s.flatMap CodePoint.escape ++ ['"']).map JsonParse.unit ++ rest) =
      some (units s, rest) := by
  induction s with
  | nil => exact JsonParse.scanString_quote rest
  | cons p s ih =>
    rw [List.flatMap_cons, List.append_assoc, List.map_append, List.append_assoc]
    cases p with
    | char c =>
      rw [CodePoint.escape, JsonParse.scanString_escapeChar, ih]
      rfl
    | surrogate i =>
      have small : 0xD800 + i.val < 0x10000 := by omega
      rw [CodePoint.escape, JsonParse.scanString_unit small, ih]
      rfl

/-- A leaf whose text is a number. -/
theorem lex_number {text : List Char} (number : IsNumber text) (fuel : Nat) {rest : JsString}
    (stop : ∀ u ∈ rest.head?, JsonParse.numeric (JsonParse.charOf u) = false) :
    JsonParse.lex (fuel + 1) (text.map JsonParse.unit ++ rest) =
      (JsonParse.lex fuel rest).map
        (.leaf (.number ((JsonParse.number? text).getD .nan)) :: ·) := by
  obtain ⟨x, read⟩ := JsonParse.number?_isSome number
  have scanned := JsonParse.scanLeaf_number number read stop
  cases text with
  | nil => cases read
  | cons c more =>
    have first : JsonParse.numeric c = true :=
      JsonParse.numeric_of_isNumber number c List.mem_cons_self
    rw [← JsonParse.charOf_unit (JsonParse.numeric_low first)] at first
    rw [List.map_cons, List.cons_append] at scanned ⊢
    rw [JsonParse.lex_leaf (JsonParse.beginsLeaf_numeric first), scanned, read]
    rfl

theorem lex_quoted (s : PyStr) (fuel : Nat) (rest : JsString) :
    JsonParse.lex (fuel + 1) ((quoted s).map JsonParse.unit ++ rest) =
      (JsonParse.lex fuel rest).map (.leaf (.string (units s)) :: ·) :=
  JsonParse.lex_string (scanString_quoted s rest) fuel

theorem isNumber_minusZero : IsNumber ['-', '0', '.', '0'] := by
  refine Or.inr ⟨['0', '.', '0'], ⟨['0'], ['.', '0'], [], ?_⟩, rfl⟩
  exact ⟨whole_zero, .digits digits_zero, .none, rfl⟩

/-- A leaf that JSON can express is read as it was written. -/
theorem lex_leaf {leaf : Leaf} (fine : leaf.Expressible) (fuel : Nat) {rest : JsString}
    (stop : ∀ u ∈ rest.head?, JsonParse.numeric (JsonParse.charOf u) = false) :
    JsonParse.lex (fuel + 1) (leaf.text.map JsonParse.unit ++ rest) =
      (JsonParse.lex fuel rest).map (.leaf leaf.arrived :: ·) := by
  cases leaf with
  | null => rfl
  | bool b => cases b <;> rfl
  | int n => exact lex_number (isNumber_intText n) fuel stop
  | float x =>
    obtain ⟨q, rfl⟩ := fine x rfl
    exact lex_number (isNumber_floatText q) fuel stop
  | minusZero => exact lex_number isNumber_minusZero fuel stop
  | str s => exact lex_quoted s fuel rest
  | other shown => exact lex_quoted shown fuel rest

/-- At any other float the client stops reading. -/
theorem lex_nonFinite {leaf : Leaf} (bad : ¬leaf.Expressible) (fuel : Nat) (rest : JsString) :
    JsonParse.lex fuel (leaf.text.map JsonParse.unit ++ rest) = none := by
  have notNumber {x : PyFloat} (same : leaf = .float x) : ∀ q, x ≠ .finite q := by
    rintro q rfl
    subst same
    exact bad fun x equal => ⟨q, (Leaf.float.inj equal).symm⟩
  cases leaf with
  | float x =>
    cases x with
    | finite q => exact absurd rfl (notNumber rfl q)
    | inf negative => cases negative <;> cases fuel <;> rfl
    | nan => cases fuel <;> rfl
  | null => exact absurd nofun bad
  | bool b => exact absurd nofun bad
  | int n => exact absurd nofun bad
  | minusZero => exact absurd nofun bad
  | str s => exact absurd nofun bad
  | other shown => exact absurd nofun bad

/-! ## A sequence of tokens -/

theorem tokensText_cons (t : Token Leaf) (ts : List (Token Leaf)) :
    tokensText (t :: ts) = tokenText t ++ tokensText ts := List.flatMap_cons

/-- What follows a leaf does not go on with its number. -/
theorem stop_of_chain {leaf : Leaf} {ts : List (Token Leaf)}
    (chain : (Token.leaf leaf :: ts).IsChain Token.Apart) :
    ∀ u ∈ ((tokensText ts).map JsonParse.unit).head?,
      JsonParse.numeric (JsonParse.charOf u) = false := by
  cases ts with
  | nil => nofun
  | cons t ts =>
    have apart := (List.isChain_cons_cons.mp chain).1
    cases t with
    | leaf other => exact absurd apart id
    | openArray => rintro u ⟨⟩; decide
    | closeArray => rintro u ⟨⟩; decide
    | openObject => rintro u ⟨⟩; decide
    | closeObject => rintro u ⟨⟩; decide
    | comma => rintro u ⟨⟩; decide
    | colon => rintro u ⟨⟩; decide

/-- Every token is read as it was written, where its leaf can be expressed. -/
theorem lex_token {t : Token Leaf} {ts : List (Token Leaf)}
    (fine : ∀ leaf, t = .leaf leaf → leaf.Expressible)
    (chain : (t :: ts).IsChain Token.Apart) (fuel : Nat) :
    JsonParse.lex (fuel + 1) ((tokensText (t :: ts)).map JsonParse.unit) =
      (JsonParse.lex fuel ((tokensText ts).map JsonParse.unit)).map
        (t.map Leaf.arrived :: ·) := by
  rw [tokensText_cons, List.map_append]
  have mark {c : Char} {token : Token JsonParse.Leaf}
      (visible : JsonParse.isBlank (JsonParse.unit c) = false)
      (is : JsonParse.punctuation? (JsonParse.unit c) = some token) :
      JsonParse.lex (fuel + 1) ([c].map JsonParse.unit ++ (tokensText ts).map JsonParse.unit) =
        (JsonParse.lex fuel ((tokensText ts).map JsonParse.unit)).map (token :: ·) :=
    JsonParse.lex_punctuation visible is fuel _
  cases t with
  | leaf leaf => exact lex_leaf (fine leaf rfl) fuel (stop_of_chain chain)
  | openArray => exact mark (by decide) (by decide)
  | closeArray => exact mark (by decide) (by decide)
  | openObject => exact mark (by decide) (by decide)
  | closeObject => exact mark (by decide) (by decide)
  | comma => exact mark (by decide) (by decide)
  | colon => exact mark (by decide) (by decide)

theorem lex_tokens {ts : List (Token Leaf)} (fine : ∀ leaf, .leaf leaf ∈ ts → leaf.Expressible)
    (chain : ts.IsChain Token.Apart) {fuel : Nat} (enough : ts.length ≤ fuel) :
    JsonParse.lex fuel ((tokensText ts).map JsonParse.unit) =
      some (ts.map (Token.map Leaf.arrived)) := by
  induction ts generalizing fuel with
  | nil => cases fuel <;> rfl
  | cons t ts ih =>
    rw [List.length_cons] at enough
    obtain ⟨fuel, rfl⟩ : ∃ less, fuel = less + 1 := ⟨fuel - 1, by omega⟩
    have own : ∀ leaf, t = .leaf leaf → leaf.Expressible := by
      rintro leaf rfl
      exact fine leaf List.mem_cons_self
    have later := ih (fun leaf listed => fine leaf (List.mem_cons_of_mem _ listed)) chain.tail
      (by omega : ts.length ≤ fuel)
    rw [lex_token own chain, later]
    rfl

theorem lex_fails {ts : List (Token Leaf)} {leaf : Leaf} (listed : .leaf leaf ∈ ts)
    (bad : ¬leaf.Expressible) (chain : ts.IsChain Token.Apart) {fuel : Nat}
    (enough : ts.length ≤ fuel) :
    JsonParse.lex fuel ((tokensText ts).map JsonParse.unit) = none := by
  induction ts generalizing fuel with
  | nil => cases listed
  | cons t ts ih =>
    rw [List.length_cons] at enough
    obtain ⟨fuel, rfl⟩ : ∃ less, fuel = less + 1 := ⟨fuel - 1, by omega⟩
    by_cases fine : ∀ leaf, t = .leaf leaf → leaf.Expressible
    · have later : .leaf leaf ∈ ts := by
        rcases List.mem_cons.mp listed with same | later
        · exact absurd (fine leaf same.symm) bad
        · exact later
      rw [lex_token fine chain, ih later chain.tail (by omega)]
      rfl
    · push Not at fine
      obtain ⟨other, rfl, wrong⟩ := fine
      rw [tokensText_cons, List.map_append]
      exact lex_nonFinite wrong _ _

/-! ## The text of a value -/

/-- What is written is printable ASCII, and no token is empty. -/
def Printed (text : List Char) : Prop := text ≠ [] ∧ JsonText.Visible text

theorem printed_of_all {text : List Char} (some : text ≠ [])
    (all : (text.all fun c => 32 ≤ c.toNat && c.toNat ≤ 126) = true) : Printed text :=
  ⟨some, JsonText.visible_of_all all⟩

theorem printed_number {text : List Char} (number : IsNumber text) : Printed text := by
  constructor
  · rintro rfl
    obtain ⟨x, read⟩ := JsonParse.number?_isSome number
    cases read
  · intro c listed
    exact JsonParse.numeric_visible (JsonParse.numeric_of_isNumber number c listed)

theorem printed_quoted (s : PyStr) : Printed (quoted s) := by
  refine ⟨List.cons_ne_nil _ _, JsonText.visible_cons (by decide)
    (JsonText.visible_append ?_ (JsonText.visible_cons (by decide) nofun))⟩
  intro c listed
  obtain ⟨p, -, among⟩ := List.mem_flatMap.mp listed
  cases p with
  | char d => exact JsonText.visible_escapeChar d c among
  | surrogate i => exact JsonText.visible_escapedUnit _ c among

theorem printed_leaf (leaf : Leaf) : Printed leaf.text := by
  cases leaf with
  | null => exact printed_of_all (by decide) (by decide)
  | bool b => cases b <;> exact printed_of_all (by decide) (by decide)
  | int n => exact printed_number (isNumber_intText n)
  | float x =>
    cases x with
    | finite q => exact printed_number (isNumber_floatText q)
    | inf negative => cases negative <;> exact printed_of_all (by decide) (by decide)
    | nan => exact printed_of_all (by decide) (by decide)
  | minusZero => exact printed_number isNumber_minusZero
  | str s => exact printed_quoted s
  | other shown => exact printed_quoted shown

theorem printed_token (t : Token Leaf) : Printed (tokenText t) := by
  cases t with
  | leaf leaf => exact printed_leaf leaf
  | openArray => exact printed_of_all (by decide) (by decide)
  | closeArray => exact printed_of_all (by decide) (by decide)
  | openObject => exact printed_of_all (by decide) (by decide)
  | closeObject => exact printed_of_all (by decide) (by decide)
  | comma => exact printed_of_all (by decide) (by decide)
  | colon => exact printed_of_all (by decide) (by decide)

theorem visible_tokensText (ts : List (Token Leaf)) : JsonText.Visible (tokensText ts) := by
  intro c listed
  obtain ⟨t, -, among⟩ := List.mem_flatMap.mp listed
  exact (printed_token t).2 c among

theorem length_le_tokensText (ts : List (Token Leaf)) : ts.length ≤ (tokensText ts).length := by
  induction ts with
  | nil => exact le_rfl
  | cons t ts ih =>
    have some := List.length_pos_iff.mpr (printed_token t).1
    rw [tokensText_cons, List.length_append, List.length_cons]
    omega

theorem utf16_visible {text : List Char} (visible : JsonText.Visible text) :
    utf16 text = text.map JsonParse.unit := by
  induction text with
  | nil => rfl
  | cons c text ih =>
    have low := (visible c List.mem_cons_self).2
    have own : utf16Char c = [JsonParse.unit c] := by
      rw [utf16Char, if_pos (by omega), JsonParse.unit]
    have later := ih fun d listed => visible d (List.mem_cons_of_mem _ listed)
    rw [utf16] at later ⊢
    rw [List.flatMap_cons, own, later, List.map_cons, List.singleton_append]

theorem js_dumps (v : Value) :
    js (dumps v) = (tokensText (v.tokens .str)).map JsonParse.unit := by
  rw [js, dumps, String.toList_ofList, utf16_visible (visible_tokensText _)]

/-! ## The text of a value is read, or is not -/

/-- Every leaf of the value can be expressed. -/
def AllFinite (v : Value) : Prop := ∀ x, v.Has (.float x) → ∃ q, x = .finite q

theorem leaf_expressible {v : Value} (finite : AllFinite v) (leaf : Leaf)
    (listed : .leaf leaf ∈ v.tokens .str) : leaf.Expressible := by
  rintro x rfl
  exact finite x ((Doc.leaf_mem_tokens nofun).mp listed)

theorem enough_fuel (ts : List (Token Leaf)) :
    ts.length ≤ ((tokensText ts).map JsonParse.unit).length := by
  rw [List.length_map]
  exact length_le_tokensText ts

/-- `JSON.parse` of a value's text gives its leaves as they arrive. -/
theorem parse_dumps {v : Value} (finite : AllFinite v) :
    JsonParse.parse (js (dumps v)) = some (JsonParse.value (v.map units Leaf.arrived)) := by
  have tokens := lex_tokens (leaf_expressible finite) v.isChain_tokens (enough_fuel _)
  have quoted (s : PyStr) : (Leaf.str s).arrived = JsonParse.Leaf.string (units s) := rfl
  have mapped : (v.map units Leaf.arrived).tokens JsonParse.Leaf.string =
      (v.tokens Leaf.str).map (Token.map Leaf.arrived) := Doc.tokens_map quoted v
  have named (s : JsString) : JsonParse.Leaf.name? (.string s) = some s := rfl
  rw [js_dumps, JsonParse.parse, tokens, ← mapped]
  simp only [Option.bind_eq_bind, Option.bind_some, Documents.parse_tokens named]
  rfl

/-- The text of a value with another float is no JSON. -/
theorem parse_dumps_none {v : Value} (bad : ¬AllFinite v) :
    JsonParse.parse (js (dumps v)) = none := by
  rw [AllFinite] at bad
  push Not at bad
  obtain ⟨x, inside, wrong⟩ := bad
  have listed : .leaf (.float x) ∈ v.tokens Leaf.str := (Doc.leaf_mem_tokens nofun).mpr inside
  have notFine : ¬Leaf.Expressible (.float x) := by
    intro fine
    obtain ⟨q, same⟩ := fine x rfl
    exact wrong q same
  rw [js_dumps, JsonParse.parse, lex_fails listed notFine v.isChain_tokens (enough_fuel _)]
  rfl

/-! ## The event -/

theorem encode_rowsEvent (result : QueryResult Value) :
    (rowsEvent result).encode dumps =
      .ok ("event: rows\ndata: " ++ dumps (rowsData result) ++ "\n\n") := by
  have visible : JsonText.Visible (dumps (rowsData result)).toList := by
    rw [dumps, String.toList_ofList]
    exact visible_tokensText _
  have inline : ¬('\n' ∈ (dumps (rowsData result)).toList ∨
      '\r' ∈ (dumps (rowsData result)).toList) := by
    rintro (lf | cr)
    · exact absurd (visible _ lf).1 (by decide)
    · exact absurd (visible _ cr).1 (by decide)
  rw [ServerSentEvent.encode]
  exact if_neg inline

theorem payload_unique {result : QueryResult Value} {payload : String}
    (encoded : (rowsEvent result).encode dumps =
      .ok ("event: rows\ndata: " ++ payload ++ "\n\n")) :
    payload = dumps (rowsData result) := by
  rw [encode_rowsEvent, Except.ok.injEq] at encoded
  have inside := (String.append_left_inj _).mp encoded
  exact ((String.append_right_inj _).mp inside).symm

theorem finite_rowsData {result : QueryResult Value} :
    AllFinite (rowsData result) ↔ ∀ row ∈ result.rows, ∀ cell ∈ row, AllFinite cell := by
  have inside (x : PyFloat) : (rowsData result).Has (.float x) ↔
      ∃ row ∈ result.rows, ∃ cell ∈ row, cell.Has (.float x) := by
    simp [rowsData]
  simp only [AllFinite, inside]
  constructor
  · intro whole row listed cell among x has
    exact whole x ⟨row, listed, cell, among, has⟩
  · rintro cells x ⟨row, listed, cell, among, has⟩
    exact cells row listed cell among x has

/-- What arrives of a cell. -/
def cellValue (cell : Value) : JsValue := JsonParse.value (cell.map units Leaf.arrived)

theorem value_columns (columns : List String) :
    JsonParse.value ((Doc.array (columns.map fun column =>
        .leaf (.str (pyStr column)))).map units Leaf.arrived) =
      .array (columns.map fun column => .string (js column)) := by
  simp [Doc.map, mapItems_eq, JsonParse.value, JsonParse.values_eq, Leaf.arrived,
    JsonParse.leafValue, units_pyStr, Function.comp_def]

theorem value_rows (rows : List (List Value)) :
    JsonParse.value ((Doc.array (rows.map Doc.array)).map units Leaf.arrived) =
      .array (rows.map fun row => .array (row.map cellValue)) := by
  simp [Doc.map, mapItems_eq, JsonParse.value, JsonParse.values_eq, cellValue, Function.comp_def]

theorem value_rowsData (result : QueryResult Value) :
    JsonParse.value ((rowsData result).map units Leaf.arrived) =
      .object [(js "columns", .array (result.columns.map fun column => .string (js column))),
        (js "rows", .array (result.rows.map fun row => .array (row.map cellValue))),
        (js "truncated", .bool result.truncated)] := by
  have distinct (a b c : JsValue) :
      ([(js "columns", a), (js "rows", b), (js "truncated", c)].map Prod.fst).Nodup := by
    change [js "columns", js "rows", js "truncated"].Nodup
    decide
  have mapped : JsonParse.value ((rowsData result).map units Leaf.arrived) =
      .object (Dictionary.ofList
        [(units (pyStr "columns"), JsonParse.value ((Doc.array (result.columns.map fun column =>
          .leaf (.str (pyStr column)))).map units Leaf.arrived)),
        (units (pyStr "rows"), JsonParse.value
          ((Doc.array (result.rows.map Doc.array)).map units Leaf.arrived)),
        (units (pyStr "truncated"), .bool result.truncated)]).entries := rfl
  rw [mapped, value_columns, value_rows, units_pyStr, units_pyStr, units_pyStr,
    Dictionary.entries_ofList (distinct _ _ _)]

theorem mapM_map_some {α β γ : Type} {f : α → β} {g : β → Option γ} {h : α → γ}
    (each : ∀ a, g (f a) = some (h a)) (l : List α) : (l.map f).mapM g = some (l.map h) := by
  induction l with
  | nil => rfl
  | cons a l ih =>
    rw [List.map_cons, List.mapM_cons, each a, ih]
    rfl

theorem parseEvent_rows {parse : JsString → Option JsValue} {data : JsString}
    {payload : List (JsString × JsValue)} (read : parse data = some (.object payload)) :
    parseEvent parse (js "rows") data = parseRows payload := by
  have named : (if js "rows" = js "stage" then parseStage payload
      else if js "rows" = js "sql" then parseSql payload
      else if js "rows" = js "rows" then parseRows payload
      else if js "rows" = js "done" then parseDone payload
      else if js "rows" = js "error" then parseError payload
      else none) = parseRows payload := by
    rw [if_neg (by decide), if_neg (by decide), if_pos rfl]
  rw [parseEvent, read]
  exact named

theorem parseRows_members (columns rows : List JsValue) (truncated : Bool) :
    parseRows [(js "columns", .array columns), (js "rows", .array rows),
        (js "truncated", .bool truncated)] = do
      let columns ← columns.mapM fun c => str (some c)
      let rows ← rows.mapM fun row => array (some row)
      return .rows columns rows truncated := by
  have noColumns : (js "columns" == js "rows") = false := by decide
  have noTruncated : (js "columns" == js "truncated") = false := by decide
  have noRows : (js "rows" == js "truncated") = false := by decide
  have first : (js "columns" == js "columns") = true := by decide
  have second : (js "rows" == js "rows") = true := by decide
  have third : (js "truncated" == js "truncated") = true := by decide
  simp only [parseRows, property, List.find?, noColumns, noTruncated, noRows, first, second, third]
  rfl

theorem parseEvent_rowsData {result : QueryResult Value} (finite : AllFinite (rowsData result)) :
    parseEvent JsonParse.parse (js "rows") (js (dumps (rowsData result))) =
      some (.rows (result.columns.map js) (result.rows.map fun row => row.map cellValue)
        result.truncated) := by
  have read := parse_dumps finite
  rw [value_rowsData] at read
  have columns : (result.columns.map fun column => JsValue.string (js column)).mapM
      (fun c => str (some c)) = some (result.columns.map js) := by
    refine mapM_map_some (fun column => ?_) _
    rfl
  have rows : (result.rows.map fun row => JsValue.array (row.map cellValue)).mapM
      (fun row => array (some row)) = some (result.rows.map fun row => row.map cellValue) := by
    refine mapM_map_some (fun row => ?_) _
    rfl
  rw [parseEvent_rows read, parseRows_members, columns, rows]
  rfl

/-- The rows event survives the wire exactly where no cell has, at any depth, a
float that is NaN or infinite. -/
theorem survives_iff (result : QueryResult Value) :
    Survives result ↔ ∀ row ∈ result.rows, ∀ cell ∈ row, ∀ x, cell.Has (.float x) →
      ∃ q, x = .finite q := by
  change _ ↔ ∀ row ∈ result.rows, ∀ cell ∈ row, AllFinite cell
  rw [← finite_rowsData]
  constructor
  · rintro ⟨payload, rows, encoded, read, -⟩
    by_contra bad
    rw [payload_unique encoded, parseEvent, parse_dumps_none bad] at read
    cases read
  · intro finite
    refine ⟨dumps (rowsData result), result.rows.map fun row => row.map cellValue,
      encode_rowsEvent result, parseEvent_rowsData finite, ?_⟩
    rw [List.map_map]
    exact List.map_congr_left fun row _ => List.length_map cellValue

/-- A ratio that the database could not tell. -/
def unknownRatio : QueryResult Value where
  columns := ["ratio"]
  rows := [[.leaf (.float .nan)]]
  rowCount := 1
  truncated := false
  executedSql := "SELECT 'NaN'::float8 AS ratio"
  rowLimit := 100
  estimatedCost := none

/-- One cell that is NaN, and the client has no rows at all. -/
theorem rows_vanish : ¬∀ result : QueryResult Value, Survives result := by
  intro every
  obtain ⟨payload, rows, encoded, read, -⟩ := every unknownRatio
  have dropped : (parseEvent JsonParse.parse (js "rows")
      (js (dumps (rowsData unknownRatio)))).isNone = true := by decide +kernel
  rw [payload_unique encoded] at read
  rw [read] at dropped
  cases dropped

end RowsWire
