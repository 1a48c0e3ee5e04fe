import Mathlib.Data.List.Basic

/-!
# Server-sent event framing

`ServerSentEvent` and `HEARTBEAT` of the API. A payload is a mapping that
`json.dumps` has serialised; `encode` refuses one that still spans lines.
-/

namespace SseEvent

/-- A comment frame, sent while nothing else is. -/
def heartbeat : String := ": keepalive\n\n"

/-- What may appear on an `event:` line: `[a-z][a-z_]{0,30}`. -/
def legalEventName (event : String) : Bool :=
  match event.toList with
  | [] => false
  | c :: rest => c.isLower && decide (rest.length ≤ 30) && rest.all fun d => d.isLower || d == '_'

structure ValueError where
  message : String
  deriving DecidableEq, Repr

/-- One event. The check of `__post_init__` is a field, so an event with an
illegal name cannot be built. -/
structure ServerSentEvent (Payload : Type) where
  event : String
  data : Payload
  legal : legalEventName event = true

variable {Payload : Type} (dumps : Payload → String)

/-- The wire form: an `event:` line, a `data:` line, a blank line. -/
def ServerSentEvent.encode (e : ServerSentEvent Payload) : Except ValueError String :=
  let payload := dumps e.data
  if '\n' ∈ payload.toList ∨ '\r' ∈ payload.toList then
    .error ⟨"SSE payload spans lines for event '" ++ e.event ++ "'"⟩
  else .ok ("event: " ++ e.event ++ "\ndata: " ++ payload ++ "\n\n")

/-- What a stream writes to its socket, one after the other. -/
inductive Written (Payload : Type)
  | event (e : ServerSentEvent Payload)
  | heartbeat

def Written.text : Written Payload → Except ValueError String
  | .event e => e.encode dumps
  | .heartbeat => .ok SseEvent.heartbeat

/-- The text on the wire. -/
def wireText : List (Written Payload) → Except ValueError String
  | [] => .ok ""
  | w :: rest =>
    match w.text dumps with
    | .error e => .error e
    | .ok text => (wireText rest).map fun tail => text ++ tail

def eventsOf (written : List (Written Payload)) : List (ServerSentEvent Payload) :=
  written.filterMap fun
    | .event e => some e
    | .heartbeat => none

/-- The names the service uses are legal. -/
example : ["stage", "sql", "rows", "done", "error"].all legalEventName = true := by decide

example : legalEventName "rows\n" = false := by decide

theorem legalEventName_chars {event : String} (legal : legalEventName event = true) :
    event.toList.length ≤ 31 ∧ ∀ c ∈ event.toList, c.isLower = true ∨ c = '_' := by
  rw [legalEventName] at legal
  cases chars : event.toList with
  | nil => simp
  | cons c rest =>
    simp only [chars, Bool.and_eq_true, decide_eq_true_eq, List.all_eq_true, Bool.or_eq_true,
      beq_iff_eq] at legal
    obtain ⟨⟨first, short⟩, others⟩ := legal
    refine ⟨by rw [List.length_cons]; omega, ?_⟩
    intro d hd
    rcases List.mem_cons.mp hd with rfl | hd
    · exact Or.inl first
    · exact others d hd

end SseEvent
