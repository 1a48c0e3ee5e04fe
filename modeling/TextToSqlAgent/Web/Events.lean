import Mathlib.Data.Rat.Defs
import TextToSqlAgent.Web.Utf16

/-!
# The event contract

A framed event is turned into a typed one, or into none: where its name is not
known, its payload is no JSON or has another shape. `JSON.parse` is a parameter.
-/

namespace Events

open Utf16

/-- A JavaScript number: a finite one as the rational number it stands for. -/
inductive JsNumber
  | finite (q : Rat)
  | infinite (negative : Bool)
  | nan
  deriving DecidableEq, Repr

/-- What `JSON.parse` gives. -/
inductive JsValue
  | null
  | bool (b : Bool)
  | number (x : JsNumber)
  | string (s : JsString)
  | array (items : List JsValue)
  | object (members : List (JsString × JsValue))

structure QueryStep where
  stage : JsString
  durationMs : Rat
  status : JsString
  deriving DecidableEq, Repr

inductive QueryEvent
  | stage (stage status : JsString)
  | sql (sql : JsString) (attempt : Rat)
  | rows (columns : List JsString) (rows : List (List JsValue)) (truncated : Bool)
  | done (rowCount : Rat) (executed : Bool) (steps : List QueryStep)
    (inputTokens outputTokens : Rat)
  | error (code message requestId : JsString)

/-- An event that ends the stream. -/
def QueryEvent.isTerminal : QueryEvent → Bool
  | .done .. => true
  | .error .. => true
  | _ => false

/-- The members of a value that is a record. -/
def record : Option JsValue → Option (List (JsString × JsValue))
  | some (.object members) => some members
  | _ => none

def str : Option JsValue → Option JsString
  | some (.string s) => some s
  | _ => none

def num : Option JsValue → Option Rat
  | some (.number (.finite q)) => some q
  | _ => none

def bool : Option JsValue → Option Bool
  | some (.bool b) => some b
  | _ => none

def array : Option JsValue → Option (List JsValue)
  | some (.array items) => some items
  | _ => none

/-- `payload.name`. -/
def property (payload : List (JsString × JsValue)) (name : String) : Option JsValue :=
  (payload.find? fun member => member.1 == js name).map Prod.snd

def parseStage (payload : List (JsString × JsValue)) : Option QueryEvent := do
  let stage ← str (property payload "stage")
  let status ← str (property payload "status")
  return .stage stage status

def parseSql (payload : List (JsString × JsValue)) : Option QueryEvent := do
  let sql ← str (property payload "sql")
  return .sql sql ((num (property payload "attempt")).getD 1)

def parseRows (payload : List (JsString × JsValue)) : Option QueryEvent := do
  let columns ← array (property payload "columns")
  let columns ← columns.mapM fun c => str (some c)
  let rows ← array (property payload "rows")
  let rows ← rows.mapM fun row => array (some row)
  -- A missing flag is not defaulted: that would promise a complete result.
  let truncated ← bool (property payload "truncated")
  return .rows columns rows truncated

/-- The items that are steps; the others are passed over. -/
def parseSteps (value : Option JsValue) : List QueryStep :=
  ((array value).getD []).filterMap fun item => do
    let item ← record (some item)
    let stage ← str (property item "stage")
    let duration ← num (property item "duration_ms")
    let status ← str (property item "status")
    return ⟨stage, duration, status⟩

def parseDone (payload : List (JsString × JsValue)) : Option QueryEvent := do
  let rowCount ← num (property payload "row_count")
  let executed ← bool (property payload "executed")
  let usage := (record (property payload "usage")).getD []
  return .done rowCount executed (parseSteps (property payload "steps"))
    ((num (property usage "input_tokens")).getD 0) ((num (property usage "output_tokens")).getD 0)

def parseError (payload : List (JsString × JsValue)) : Option QueryEvent := do
  let inner ← record (property payload "error")
  let code ← str (property inner "code")
  let message ← str (property inner "message")
  return .error code message ((str (property inner "request_id")).getD [])

/-- Turn one framed event into a typed event, if it is one. -/
def parseEvent (parse : JsString → Option JsValue) (name data : JsString) :
    Option QueryEvent := do
  let payload ← record (parse data)
  if name = js "stage" then parseStage payload
  else if name = js "sql" then parseSql payload
  else if name = js "rows" then parseRows payload
  else if name = js "done" then parseDone payload
  else if name = js "error" then parseError payload
  else none

/-- An error is read as an error, or not at all. -/
theorem parseEvent_error {parse : JsString → Option JsValue} {data : JsString}
    {event : QueryEvent} (parsed : parseEvent parse (js "error") data = some event) :
    event.isTerminal = true := by
  obtain ⟨payload, -, named⟩ := Option.bind_eq_some_iff.mp parsed
  rw [if_neg (by decide), if_neg (by decide), if_neg (by decide), if_neg (by decide),
    if_pos rfl] at named
  obtain ⟨inner, -, found⟩ := Option.bind_eq_some_iff.mp named
  obtain ⟨code, -, found⟩ := Option.bind_eq_some_iff.mp found
  obtain ⟨message, -, found⟩ := Option.bind_eq_some_iff.mp found
  obtain rfl := Option.some.inj found
  rfl

end Events
