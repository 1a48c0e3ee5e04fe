import Mathlib.Data.List.Sort
import TextToSqlAgent.Core.Exceptions
import TextToSqlAgent.Core.Python
import TextToSqlAgent.Library.Fallible
import TextToSqlAgent.Schema.Models

/-!
# A search through a server

`McpSchemaSearch.search`, from the outcome of `start` to the result: what the
serving loop answers, what the caller makes of it, and the decoder of the payload.
-/

namespace McpRetrieval

open Python Exceptions Fallible
open Schema (RetrievedElement ForeignKey RetrievalResult)

def schemaSearchServer : String := "mcp_servers.schema_search"
def searchTool : String := "search_schema"

/-- What a tool call is answered with; a block that is no text is none. -/
structure CallToolResult where
  content : List (Option String)
  structuredContent : Option Json
  isError : Bool

structure ToolResult where
  isError : Bool
  payload : List (String × Json)
  text : String

/-- What the tool call or its transport raises; some of it is a `TimeoutError`. -/
inductive Failure
  | timeout (text : String)
  | other (exc : Raised)

/-- A text that is no JSON, and whatever else `json.loads` raises. -/
inductive LoadsError
  | decode
  | raised (exc : Raised)

/-- What is used of Python's own texts and numbers: `str` of what is neither a text
nor contains an integer too long for it, `repr`, `float` of a text, where a
`ValueError` is none, and `json.loads`. -/
structure Builtins where
  str : Json → String
  repr : Json → String
  float : String → Option PyFloat
  loads : String → Except LoadsError Json

def retrievalError (message : String) : Raised := .domain ⟨.retrievalError, message, none, none⟩

def tooLong : Raised :=
  .unexpected "ValueError: Exceeds the limit (4300 digits) for integer string conversion"

def overflow : Raised := .unexpected "OverflowError: int too large to convert to float"

mutual

/-- An integer of more than 4300 digits is in it, which has no text. -/
def hasLong : Json → Bool
  | .int n => 10 ^ 4300 ≤ n.natAbs
  | .arr items => anyLong items
  | .obj members => anyLongMember members
  | _ => false

def anyLong : List Json → Bool
  | [] => false
  | item :: rest => hasLong item || anyLong rest

def anyLongMember : List (String × Json) → Bool
  | [] => false
  | (_, value) :: rest => hasLong value || anyLongMember rest

end

section decoder

variable (py : Builtins)

/-- `str(value)`. -/
def str (value : Json) : Except Raised String :=
  match value with
  | .str s => .ok s
  | _ =>
    if hasLong value then .error tooLong else .ok (py.str value)

/-- `_optional_str(item.get(key))`. -/
def optionalStr (item : List (String × Json)) (key : String) : Except Raised (Option String) :=
  match Json.get? item key with
  | none => .ok none
  | some .null => .ok none
  | some value => some <$> str py value

/-- `_score`: a `TypeError` and a `ValueError` are caught. -/
def score (value : Option Json) : Except Raised PyFloat :=
  match value with
  | some (.bool b) => .ok (.finite (if b then 1 else 0))
  | some (.int n) =>
    match toDouble n with
    | some q => .ok (.finite q)
    | none => .error overflow
  | some (.float x) => .ok x
  | some (.str s) => .ok ((py.float s).getD (.finite 0))
  | _ => .ok (.finite 0)

/-- The name of the table, or an empty one. -/
def tableOf (members : List (String × Json)) : String :=
  match Json.get? members "table" with
  | some (.str table) => table
  | _ => ""

def columnOf (members : List (String × Json)) (index : Nat) : Except Raised (Option String) :=
  match Json.get? members "column" with
  | none => .ok none
  | some .null => .ok none
  | some (.str column) => .ok (some column)
  | _ => .error (retrievalError s!"{searchTool} element {index} has a non-string column")

/-- `_element`. -/
def element (item : Json) (index : Nat) : Except Raised RetrievedElement :=
  match item with
  | .obj members =>
    if tableOf members = "" then
      .error (retrievalError s!"{searchTool} element {index} names no table")
    else do
      let column ← columnOf members index
      let elementType := if column.getD "" = "" then "table" else "column"
      let dataType ← optionalStr py members "type"
      let comment ← optionalStr py members "comment"
      let score ← score py (Json.get? members "score")
      return ⟨elementType, tableOf members, column, dataType, comment, "", score⟩
  | _ => .error (retrievalError
      s!"{searchTool} element {index} is a {item.typeName}, not an object")

/-- `str(item[key])`, in `_edge`. -/
def endpoint (members : List (String × Json)) (index : Nat) (key : String) :
    Except Raised String :=
  match Json.get? members key with
  | some value => str py value
  | none => .error (retrievalError
      s!"{searchTool} foreign key {index} is missing {py.repr (.str key)}")

/-- `_edge`. -/
def edge (item : Json) (index : Nat) : Except Raised ForeignKey :=
  match item with
  | .obj members => do
    let fromTable ← endpoint py members index "from_table"
    let fromColumn ← endpoint py members index "from_column"
    let toTable ← endpoint py members index "to_table"
    let toColumn ← endpoint py members index "to_column"
    return ⟨fromTable, fromColumn, toTable, toColumn, some ""⟩
  | _ => .error (retrievalError s!"{searchTool} foreign key {index} is not an object")

def toRetrievalResult (payload : List (String × Json)) : Except Raised RetrievalResult :=
  match (Json.get? payload "elements").getD (.arr []),
      (Json.get? payload "foreign_keys").getD (.arr []) with
  | .arr rawElements, .arr rawEdges => do
    let elements ← rawElements.zipIdx.mapM fun entry => element py entry.1 entry.2
    let foreignKeys ← rawEdges.zipIdx.mapM fun entry => edge py entry.1 entry.2
    return ⟨elements, foreignKeys⟩
  | _, _ =>
    let keys := (payload.map Prod.fst).insertionSort (· ≤ ·)
    .error (retrievalError (s!"{searchTool} returned a payload with no element list; got keys "
      ++ py.repr (.arr (keys.map .str))))

/-- The text of a result's blocks. -/
def textOf (result : CallToolResult) : String := String.join (result.content.filterMap id)

/-- The payload of `_to_result`. -/
def payloadOf (result : CallToolResult) : Except Raised (List (String × Json)) :=
  match result.structuredContent with
  | some (.obj members) => .ok members
  | _ =>
    let text := textOf result
    if text = "" then .ok []
    else
      match py.loads text with
      | .ok (.obj members) => .ok members
      | .ok decoded => .ok [("value", decoded)]
      | .error .decode => .ok [("message", .str text)]
      | .error (.raised exc) => .error exc

def toResult (result : CallToolResult) : Except Raised ToolResult := do
  let payload ← payloadOf py result
  return ⟨result.isError, payload, textOf result⟩

/-- `ToolRegistry.call`, for the tools that were discovered. -/
def registryCall (tools : List String) (outcome : Except Failure CallToolResult) :
    Except Failure ToolResult :=
  if searchTool ∈ tools then
    match outcome with
    | .ok result =>
      match toResult py result with
      | .ok read => .ok read
      | .error exc => .error (.other exc)
    | .error failure => .error failure
  else .error (.other (.unexpected s!"KeyError: {py.repr (.str searchTool)}"))

/-! ## `search` -/

/-- How `start` ends; a failure is what the serving thread left, a `RetrievalError`. -/
inductive Start
  | answerable
  | timedOut
  | failed (message : String)

/-- What becomes of the call. It is not answered in time, or never, when what the
tool call raises is no `Exception` and ends the serving loop. -/
inductive Reply
  | notRunning
  | stopped (text : String)
  | unanswered
  | answered (tools : List String) (outcome : Except Failure CallToolResult)

/-- The client's data set and timeouts. -/
structure Client where
  dataset : String
  startTimeout : Rat
  callTimeout : Rat

def seconds (q : Rat) : String := toString (roundHalfEven q) ++ "s"

/-- `start`. -/
def start (client : Client) : Start → Except Raised Unit
  | .answerable => .ok ()
  | .timedOut => .error (retrievalError (s!"the {schemaSearchServer} server for dataset "
      ++ py.repr (.str client.dataset) ++ " did not become answerable within "
      ++ seconds client.startTimeout ++ ". The first start loads a sentence-transformer; "
      ++ "a cold model cache downloads it."))
  | .failed message => .error (retrievalError message)

/-- `future.result(timeout)`, with what the except clauses around it make of it. -/
def await (client : Client) : Reply → Except Raised ToolResult
  | .notRunning => .error (retrievalError ("the " ++ py.repr (.str client.dataset)
      ++ " retrieval client is not running"))
  | .stopped text => .error (retrievalError ("the " ++ py.repr (.str client.dataset)
      ++ " retrieval client has stopped: " ++ text))
  | .unanswered => .error (retrievalError (searchTool ++ " did not answer within "
      ++ seconds client.callTimeout ++ " for dataset " ++ py.repr (.str client.dataset)))
  | .answered tools outcome =>
    match registryCall py tools outcome with
    | .ok result => .ok result
    | .error (.timeout _) => .error (retrievalError (searchTool ++ " did not answer within "
        ++ seconds client.callTimeout ++ " for dataset " ++ py.repr (.str client.dataset)))
    | .error (.other exc) => .error exc

/-- The last part of `search`. -/
def conclude (result : ToolResult) : Except Raised RetrievalResult :=
  if result.isError then do
    let errorType ← optionalStr py result.payload "error_type"
    let message ← str py ((Json.get? result.payload "message").getD (.str "(no message)"))
    .error (retrievalError
      (searchTool ++ " returned " ++ orText errorType "an error" ++ ": " ++ message))
  else toRetrievalResult py result.payload

def search (client : Client) (started : Start) (reply : Reply) : Except Raised RetrievalResult := do
  start py client started
  let result ← await py client reply
  conclude py result

/-! ## What is asked of the server's behaviour -/

/-- A `RetrievalError`. -/
def IsRetrievalError : Raised → Prop
  | .domain e => e.cls.isinstance .retrievalError = true
  | .unexpected _ => False

/-- `str` of the value is defined, where it has one. -/
def HasText (members : List (String × Json)) (key : String) : Prop :=
  ∀ value, Json.get? members key = some value → hasLong value = false

/-- The decoder refuses no part of an element. -/
def WellFormed : Json → Prop
  | .obj members => tableOf members ≠ "" ∧
    match Json.get? members "column" with
    | none => True
    | some .null => True
    | some (.str _) => True
    | _ => False
  | _ => False

/-- Type and comment of an element have texts, and an integer score is a double. -/
def CleanElement : Json → Prop
  | .obj members => HasText members "type" ∧ HasText members "comment" ∧
    ∀ n, Json.get? members "score" = some (.int n) → (toDouble n).isSome = true
  | _ => True

/-- Each well formed element before the first that is not. -/
def CleanElements : List Json → Prop
  | [] => True
  | item :: rest => WellFormed item → CleanElement item ∧ CleanElements rest

def CleanEndpoints (members : List (String × Json)) : List String → Prop
  | [] => True
  | key :: rest => ∀ value, Json.get? members key = some value →
      hasLong value = false ∧ CleanEndpoints members rest

def endpoints : List String := ["from_table", "from_column", "to_table", "to_column"]

def CleanEdge : Json → Prop
  | .obj members => CleanEndpoints members endpoints
  | _ => True

def Complete : Json → Prop
  | .obj members => ∀ key ∈ endpoints, (Json.get? members key).isSome = true
  | _ => False

def CleanEdges : List Json → Prop
  | [] => True
  | item :: rest => CleanEdge item ∧ (Complete item → CleanEdges rest)

def CleanPayload (payload : List (String × Json)) : Prop :=
  match (Json.get? payload "elements").getD (.arr []),
      (Json.get? payload "foreign_keys").getD (.arr []) with
  | .arr elements, .arr edges =>
    CleanElements elements ∧ ((∀ item ∈ elements, WellFormed item) → CleanEdges edges)
  | _, _ => True

/-- The result of the tool can be read, and what is shown of it has a text. -/
def CleanResult (result : CallToolResult) : Prop :=
  match payloadOf py result with
  | .ok payload =>
    if result.isError then HasText payload "error_type" ∧ HasText payload "message"
    else CleanPayload payload
  | .error exc => IsRetrievalError exc

/-- The tool call does not end in an exception but a `TimeoutError` or a
`RetrievalError`, and its result is clean. -/
def CleanCall (tools : List String) (outcome : Except Failure CallToolResult) : Prop :=
  searchTool ∈ tools ∧
    match outcome with
    | .ok result => CleanResult py result
    | .error (.timeout _) => True
    | .error (.other exc) => IsRetrievalError exc

def Clean (started : Start) (reply : Reply) : Prop :=
  match started, reply with
  | .answerable, .answered tools outcome => CleanCall py tools outcome
  | _, _ => True

/-! ## What the parts raise -/

variable {py}

theorem failsWith_retrievalError {α : Type} (message : String) :
    FailsWith IsRetrievalError (.error (retrievalError message) : Except Raised α) := by
  have own : ErrorClass.isinstance .retrievalError .retrievalError = true := by decide
  exact failsWith_error.mpr own

/-- The computation gives a result if `p` holds, and another error otherwise. -/
def Guarded {α : Type} (p : Prop) (x : Except Raised α) : Prop :=
  (p ∧ ∃ a, x = .ok a) ∨ (¬p ∧ ∃ e, x = .error e ∧ ¬IsRetrievalError e)

theorem failsWith_bind_of_guarded {α β : Type} {p q : Prop} {x : Except Raised α}
    {f : α → Except Raised β} (guarded : Guarded p x)
    (later : ∀ a, FailsWith IsRetrievalError (f a) ↔ q) :
    FailsWith IsRetrievalError (x >>= f) ↔ p ∧ q := by
  rcases guarded with ⟨holds, a, rfl⟩ | ⟨fails, e, rfl, other⟩
  · exact (later a).trans ⟨fun rest => ⟨holds, rest⟩, fun both => both.2⟩
  · constructor
    · intro allowed
      exact absurd (allowed e rfl) other
    · rintro ⟨holds, -⟩
      exact absurd holds fails

theorem guarded_str (value : Json) : Guarded (hasLong value = false) (str py value) := by
  by_cases text : ∃ s, value = .str s
  · obtain ⟨s, rfl⟩ := text
    exact .inl ⟨rfl, s, rfl⟩
  · have other : str py value = if hasLong value then .error tooLong else .ok (py.str value) := by
      cases value with
      | str s => exact absurd ⟨s, rfl⟩ text
      | _ => rfl
    rw [other]
    cases hasLong value with
    | true => exact .inr ⟨Bool.noConfusion, tooLong, rfl, id⟩
    | false => exact .inl ⟨rfl, _, rfl⟩

theorem guarded_map {α β : Type} {p : Prop} {x : Except Raised α} (guarded : Guarded p x)
    (f : α → β) : Guarded p (f <$> x) := by
  rcases guarded with ⟨holds, a, rfl⟩ | ⟨fails, e, rfl, other⟩
  · exact .inl ⟨holds, f a, rfl⟩
  · exact .inr ⟨fails, e, rfl, other⟩

theorem guarded_optionalStr (members : List (String × Json)) (key : String) :
    Guarded (HasText members key) (optionalStr py members key) := by
  rw [optionalStr, HasText]
  cases found : Json.get? members key with
  | none => exact .inl ⟨nofun, none, rfl⟩
  | some value =>
    have one : (∀ other, some value = some other → hasLong other = false) ↔
        hasLong value = false := ⟨fun each => each value rfl, fun short _ same =>
          Option.some.inj same ▸ short⟩
    rw [one]
    cases value with
    | null => exact .inl ⟨rfl, none, rfl⟩
    | _ => exact guarded_map (guarded_str _) some

theorem guarded_score (value : Option Json) :
    Guarded (∀ n, value = some (.int n) → (toDouble n).isSome = true) (score py value) := by
  by_cases number : ∃ n, value = some (.int n)
  · obtain ⟨n, rfl⟩ := number
    rw [score]
    cases double : toDouble n with
    | some q =>
      refine .inl ⟨?_, .finite q, rfl⟩
      rintro m same
      cases same
      rw [double]
      rfl
    | none =>
      refine .inr ⟨?_, overflow, rfl, id⟩
      intro each
      have some_double := each n rfl
      rw [double] at some_double
      cases some_double
  · refine .inl ⟨fun n same => absurd ⟨n, same⟩ number, ?_⟩
    cases value with
    | none => exact ⟨_, rfl⟩
    | some value =>
      cases value with
      | int n => exact absurd ⟨n, rfl⟩ number
      | _ => exact ⟨_, rfl⟩

theorem guarded_bind {α β : Type} {p q : Prop} {x : Except Raised α} {f : α → Except Raised β}
    (guarded : Guarded p x) (later : ∀ a, Guarded q (f a)) : Guarded (p ∧ q) (x >>= f) := by
  rcases guarded with ⟨holds, a, rfl⟩ | ⟨fails, e, rfl, other⟩
  · rcases later a with ⟨rest, found⟩ | ⟨rest, failed⟩
    · exact .inl ⟨⟨holds, rest⟩, found⟩
    · exact .inr ⟨fun both => rest both.2, failed⟩
  · exact .inr ⟨fun both => fails both.1, e, rfl, other⟩

theorem guarded_pure {α : Type} (a : α) : Guarded True (pure a) := .inl ⟨trivial, a, rfl⟩

theorem failsWith_iff_of_guarded {α : Type} {p : Prop} {x : Except Raised α}
    (guarded : Guarded p x) : FailsWith IsRetrievalError x ↔ p := by
  rcases guarded with ⟨holds, a, rfl⟩ | ⟨fails, e, rfl, other⟩
  · exact ⟨fun _ => holds, fun _ => failsWith_ok a⟩
  · exact ⟨fun allowed => absurd (allowed e rfl) other, fun holds => absurd holds fails⟩

theorem exists_ok_iff_of_guarded {α : Type} {p : Prop} {x : Except Raised α}
    (guarded : Guarded p x) : (∃ a, x = .ok a) ↔ p := by
  rcases guarded with ⟨holds, found⟩ | ⟨fails, e, rfl, other⟩
  · exact ⟨fun _ => holds, fun _ => found⟩
  · exact ⟨nofun, fun holds => absurd holds fails⟩

/-! ## The elements and the edges of a payload -/

theorem guarded_element {members : List (String × Json)} {index : Nat} {column : Option String}
    (named : tableOf members ≠ "") (found : columnOf members index = .ok column) :
    Guarded (CleanElement (.obj members)) (element py (.obj members) index) := by
  have body : element py (.obj members) index = (do
      let dataType ← optionalStr py members "type"
      let comment ← optionalStr py members "comment"
      let score ← score py (Json.get? members "score")
      return ⟨if column.getD "" = "" then "table" else "column", tableOf members, column, dataType,
        comment, "", score⟩) := by
    rw [element, if_neg named, found]
    rfl
  rw [body, CleanElement]
  refine guarded_bind (guarded_optionalStr members "type") fun dataType => ?_
  refine guarded_bind (guarded_optionalStr members "comment") fun comment => ?_
  rw [← and_true (∀ n, _)]
  exact guarded_bind (guarded_score _) fun score => guarded_pure _

/-- An element is refused, or guarded by what is read of it. -/
theorem element_cases (py : Builtins) (item : Json) (index : Nat) :
    (WellFormed item ∧ Guarded (CleanElement item) (element py item index)) ∨
      (¬WellFormed item ∧ ∃ message, element py item index = .error (retrievalError message)) := by
  cases item with
  | obj members =>
    by_cases named : tableOf members = ""
    · exact .inr ⟨fun formed => formed.1 named, _, if_pos named⟩
    · have formed_iff : WellFormed (.obj members) ↔
          ∃ column, columnOf members index = .ok column := by
        rw [WellFormed, columnOf]
        split
        · exact ⟨fun _ => ⟨none, rfl⟩, fun _ => ⟨named, trivial⟩⟩
        · exact ⟨fun _ => ⟨none, rfl⟩, fun _ => ⟨named, trivial⟩⟩
        · exact ⟨fun _ => ⟨_, rfl⟩, fun _ => ⟨named, trivial⟩⟩
        · exact ⟨fun formed => formed.2.elim, nofun⟩
      cases found : columnOf members index with
      | ok column => exact .inl ⟨formed_iff.mpr ⟨column, found⟩, guarded_element named found⟩
      | error e =>
        refine .inr ⟨?_, ?_⟩
        · rw [formed_iff, found]
          exact nofun
        · rw [element, if_neg named, found]
          rw [columnOf] at found
          split at found
          · cases found
          · cases found
          · cases found
          · cases found
            exact ⟨_, rfl⟩
  | _ => exact .inr ⟨id, _, rfl⟩

theorem failsWith_elements_iff (items : List Json) (first : Nat) :
    FailsWith IsRetrievalError ((items.zipIdx first).mapM fun entry => element py entry.1 entry.2) ↔
      CleanElements items := by
  induction items generalizing first with
  | nil => exact ⟨fun _ => trivial, fun _ => failsWith_ok []⟩
  | cons item rest ih =>
    rw [List.zipIdx_cons, failsWith_mapM_cons_iff, ih, CleanElements]
    rcases element_cases py item first with ⟨formed, guarded⟩ | ⟨unformed, message, failed⟩
    · rw [failsWith_iff_of_guarded guarded]
      constructor
      · rintro ⟨clean, later⟩ -
        obtain ⟨found, same⟩ := (exists_ok_iff_of_guarded guarded).mpr clean
        exact ⟨clean, later found same⟩
      · intro both
        exact ⟨(both formed).1, fun _ _ => (both formed).2⟩
    · rw [failed]
      exact ⟨fun _ formed => absurd formed unformed,
        fun _ => ⟨failsWith_retrievalError message, nofun⟩⟩

/-- Clean elements are read exactly when none is refused. -/
theorem elements_isOk_iff {items : List Json} (clean : CleanElements items) (first : Nat) :
    (∃ read, (items.zipIdx first).mapM (fun entry => element py entry.1 entry.2) = .ok read) ↔
      ∀ item ∈ items, WellFormed item := by
  induction items generalizing first with
  | nil => exact ⟨fun _ => nofun, fun _ => ⟨[], rfl⟩⟩
  | cons item rest ih =>
    rw [List.zipIdx_cons, List.forall_mem_cons]
    rcases element_cases py item first with ⟨formed, guarded⟩ | ⟨unformed, message, failed⟩
    · obtain ⟨own, later⟩ := clean formed
      rw [← ih later (first + 1)]
      obtain ⟨found, same⟩ := (exists_ok_iff_of_guarded guarded).mpr own
      constructor
      · rintro ⟨read, mapped⟩
        obtain ⟨-, bs, -, tail, -⟩ := mapM_cons_ok_iff.mp mapped
        exact ⟨formed, bs, tail⟩
      · rintro ⟨-, bs, tail⟩
        exact ⟨found :: bs, mapM_cons_ok_iff.mpr ⟨found, bs, same, tail, rfl⟩⟩
    · constructor
      · rintro ⟨read, mapped⟩
        obtain ⟨b, -, head, -, -⟩ := mapM_cons_ok_iff.mp mapped
        rw [failed] at head
        cases head
      · rintro ⟨formed, -⟩
        exact absurd formed unformed

/-- One endpoint of an edge and what is read after it. -/
theorem failsWith_endpoint_bind_iff {α : Type} {members : List (String × Json)} {index : Nat}
    {key : String} {keys : List String} {f : String → Except Raised α}
    (later : ∀ text, FailsWith IsRetrievalError (f text) ↔ CleanEndpoints members keys) :
    FailsWith IsRetrievalError (endpoint py members index key >>= f) ↔
      CleanEndpoints members (key :: keys) := by
  rw [CleanEndpoints, endpoint]
  cases found : Json.get? members key with
  | none => exact ⟨fun _ => nofun, fun _ => failsWith_retrievalError _⟩
  | some value =>
    dsimp only
    rw [failsWith_bind_of_guarded (guarded_str value) later]
    exact ⟨fun both _ same => Option.some.inj same ▸ both, fun each => each value rfl⟩

theorem failsWith_edge_iff (item : Json) (index : Nat) :
    FailsWith IsRetrievalError (edge py item index) ↔ CleanEdge item := by
  cases item with
  | obj members =>
    rw [edge, CleanEdge, endpoints]
    refine failsWith_endpoint_bind_iff fun fromTable => ?_
    refine failsWith_endpoint_bind_iff fun fromColumn => ?_
    refine failsWith_endpoint_bind_iff fun toTable => ?_
    refine failsWith_endpoint_bind_iff fun toColumn => ?_
    exact ⟨fun _ => trivial, fun _ => failsWith_ok _⟩
  | _ => exact ⟨fun _ => trivial, fun _ => failsWith_retrievalError _⟩

theorem endpoint_isOk_iff {members : List (String × Json)} {index : Nat} {key : String} :
    (∃ text, endpoint py members index key = .ok text) ↔
      ∃ value, Json.get? members key = some value ∧ hasLong value = false := by
  rw [endpoint]
  cases Json.get? members key with
  | none => exact ⟨nofun, nofun⟩
  | some value =>
    dsimp only
    rw [exists_ok_iff_of_guarded (guarded_str value)]
    constructor
    · exact fun short => ⟨value, rfl, short⟩
    · rintro ⟨other, same, short⟩
      exact Option.some.inj same ▸ short

/-- A clean edge is read exactly when it is complete. -/
theorem edge_isOk_iff {item : Json} {index : Nat} (clean : CleanEdge item) :
    (∃ read, edge py item index = .ok read) ↔ Complete item := by
  cases item with
  | obj members =>
    constructor
    · rintro ⟨read, found⟩
      obtain ⟨_, fromTable, found⟩ := bind_ok_iff.mp found
      obtain ⟨_, fromColumn, found⟩ := bind_ok_iff.mp found
      obtain ⟨_, toTable, found⟩ := bind_ok_iff.mp found
      obtain ⟨_, toColumn, -⟩ := bind_ok_iff.mp found
      have present : ∀ {key text : String}, endpoint py members index key = .ok text →
          (Json.get? members key).isSome = true := by
        intro key text same
        obtain ⟨value, listed, -⟩ := endpoint_isOk_iff.mp ⟨text, same⟩
        rw [listed]
        rfl
      intro key listed
      simp only [endpoints, List.mem_cons, List.not_mem_nil, or_false] at listed
      rcases listed with rfl | rfl | rfl | rfl
      · exact present fromTable
      · exact present fromColumn
      · exact present toTable
      · exact present toColumn
    · intro complete
      have present : ∀ key ∈ endpoints, ∃ value, Json.get? members key = some value := by
        intro key listed
        exact Option.isSome_iff_exists.mp (complete key listed)
      obtain ⟨a, at_a⟩ := present "from_table" (by decide)
      obtain ⟨b, at_b⟩ := present "from_column" (by decide)
      obtain ⟨c, at_c⟩ := present "to_table" (by decide)
      obtain ⟨d, at_d⟩ := present "to_column" (by decide)
      obtain ⟨short_a, clean⟩ := clean a at_a
      obtain ⟨short_b, clean⟩ := clean b at_b
      obtain ⟨short_c, clean⟩ := clean c at_c
      obtain ⟨short_d, -⟩ := clean d at_d
      have read : ∀ {key : String} {value : Json}, Json.get? members key = some value →
          hasLong value = false → ∃ text, endpoint py members index key = .ok text :=
        fun listed short => endpoint_isOk_iff.mpr ⟨_, listed, short⟩
      obtain ⟨fromTable, first⟩ := read at_a short_a
      obtain ⟨fromColumn, second⟩ := read at_b short_b
      obtain ⟨toTable, third⟩ := read at_c short_c
      obtain ⟨toColumn, fourth⟩ := read at_d short_d
      exact ⟨_, bind_ok_iff.mpr ⟨fromTable, first, bind_ok_iff.mpr ⟨fromColumn, second,
        bind_ok_iff.mpr ⟨toTable, third, bind_ok_iff.mpr ⟨toColumn, fourth, rfl⟩⟩⟩⟩⟩
  | _ =>
    refine ⟨?_, False.elim⟩
    rintro ⟨read, found⟩
    cases found

theorem failsWith_edges_iff (items : List Json) (first : Nat) :
    FailsWith IsRetrievalError ((items.zipIdx first).mapM fun entry => edge py entry.1 entry.2) ↔
      CleanEdges items := by
  induction items generalizing first with
  | nil => exact ⟨fun _ => trivial, fun _ => failsWith_ok []⟩
  | cons item rest ih =>
    rw [List.zipIdx_cons, failsWith_mapM_cons_iff, ih, failsWith_edge_iff, CleanEdges]
    refine and_congr_right fun clean => ?_
    rw [← edge_isOk_iff clean]
    exact ⟨fun each found => each found.choose found.choose_spec, fun later b same =>
      later ⟨b, same⟩⟩

theorem failsWith_toRetrievalResult_iff (payload : List (String × Json)) :
    FailsWith IsRetrievalError (toRetrievalResult py payload) ↔ CleanPayload payload := by
  rw [toRetrievalResult, CleanPayload]
  split
  · rw [failsWith_bind_iff, failsWith_elements_iff]
    refine and_congr_right fun clean => ?_
    rw [← elements_isOk_iff clean 0]
    constructor
    · rintro each ⟨read, mapped⟩
      exact (failsWith_edges_iff _ 0).mp (failsWith_bind_ok_iff.mp (each read mapped))
    · intro edges read mapped
      exact failsWith_bind_ok_iff.mpr ((failsWith_edges_iff _ 0).mpr (edges ⟨read, mapped⟩))
  · exact ⟨fun _ => trivial, fun _ => failsWith_retrievalError _⟩

/-! ## The whole search -/

theorem failsWith_conclude_iff (result : ToolResult) :
    FailsWith IsRetrievalError (conclude py result) ↔
      if result.isError then HasText result.payload "error_type" ∧ HasText result.payload "message"
      else CleanPayload result.payload := by
  rw [conclude]
  split
  · refine failsWith_bind_of_guarded (guarded_optionalStr _ _) fun errorType => ?_
    have shown : (∀ value, Json.get? result.payload "message" = some value →
        hasLong value = false) ↔
        hasLong ((Json.get? result.payload "message").getD (.str "(no message)")) = false := by
      cases Json.get? result.payload "message" with
      | none => exact ⟨fun _ => rfl, fun _ => nofun⟩
      | some value => exact ⟨fun each => each value rfl, fun short _ same =>
          Option.some.inj same ▸ short⟩
    rw [HasText, shown, ← and_true (hasLong _ = false)]
    exact failsWith_bind_of_guarded (guarded_str _) fun message =>
      ⟨fun _ => trivial, fun _ => failsWith_retrievalError _⟩
  · exact failsWith_toRetrievalResult_iff result.payload

theorem failsWith_answered_iff (client : Client) (tools : List String)
    (outcome : Except Failure CallToolResult) :
    FailsWith IsRetrievalError (await py client (.answered tools outcome) >>= conclude py) ↔
      CleanCall py tools outcome := by
  by_cases discovered : searchTool ∈ tools
  · simp only [await, registryCall, CleanCall, discovered, true_and]
    cases outcome with
    | error failure =>
      cases failure with
      | timeout text => exact ⟨fun _ => trivial, fun _ => failsWith_retrievalError _⟩
      | other exc => exact failsWith_error
    | ok result =>
      dsimp only
      rw [toResult, CleanResult]
      cases read : payloadOf py result with
      | error exc => exact failsWith_error
      | ok payload => exact failsWith_conclude_iff ⟨result.isError, payload, textOf result⟩
  · simp only [await, registryCall, if_neg discovered, CleanCall]
    constructor
    · intro fails
      exact (failsWith_error.mp fails).elim
    · rintro ⟨listed, -⟩
      exact absurd listed discovered

/-- A search ends in a result or a `RetrievalError` exactly when the server's
behaviour is clean. -/
theorem search_shaped_iff (py : Builtins) (client : Client) (started : Start) (reply : Reply) :
    FailsWith IsRetrievalError (search py client started reply) ↔ Clean py started reply := by
  rw [search]
  cases started with
  | timedOut => exact ⟨fun _ => trivial, fun _ => failsWith_retrievalError _⟩
  | failed message => exact ⟨fun _ => trivial, fun _ => failsWith_retrievalError _⟩
  | answerable =>
    cases reply with
    | answered tools outcome => exact failsWith_answered_iff client tools outcome
    | notRunning => exact ⟨fun _ => trivial, fun _ => failsWith_retrievalError _⟩
    | stopped text => exact ⟨fun _ => trivial, fun _ => failsWith_retrievalError _⟩
    | unanswered => exact ⟨fun _ => trivial, fun _ => failsWith_retrievalError _⟩

end decoder

/-! ## A server that dies -/

/-- No text is asked for where nothing is read. -/
def plain : Builtins := ⟨fun _ => "", fun _ => "", fun _ => none, fun _ => .error .decode⟩

/-- One element with a score of four hundred digits. -/
def huge : CallToolResult :=
  ⟨[], some (.obj [("elements",
    .arr [.obj [("table", .str "singer"), ("score", .int (10 ^ 400))]])]), false⟩

/-- The transport's own exception reaches the caller as it is, and so does what
`float` raises for too large a score. -/
theorem raw_exception_escapes :
    ¬FailsWith IsRetrievalError (search plain ⟨"concert_singer", 300, 120⟩ .answerable
        (.answered [searchTool] (.error (.other (.unexpected "McpError: Connection closed"))))) ∧
      ¬FailsWith IsRetrievalError (search plain ⟨"concert_singer", 300, 120⟩ .answerable
        (.answered [searchTool] (.ok huge))) := by
  constructor
  · exact fun shaped => shaped (.unexpected "McpError: Connection closed") rfl
  · intro shaped
    have large : toDouble ((10 ^ 400 : Int) : Rat) = none := by decide +kernel
    have raised : element plain (.obj [("table", .str "singer"), ("score", .int (10 ^ 400))]) 0 =
        .error overflow := by
      have scored : score plain (some (.int (10 ^ 400))) = .error overflow := by
        rw [score, large]
      rw [element, if_neg (by decide)]
      show (score plain (some (.int (10 ^ 400))) >>= _) = _
      rw [scored]
      rfl
    refine shaped overflow ?_
    show (List.mapM (fun entry => element plain entry.1 entry.2)
      [(Json.obj [("table", .str "singer"), ("score", .int (10 ^ 400))], 0)] >>= _) = _
    rw [List.mapM_cons, raised]
    rfl

end McpRetrieval
