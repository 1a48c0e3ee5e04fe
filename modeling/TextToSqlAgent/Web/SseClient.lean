import TextToSqlAgent.Library.Cutting
import TextToSqlAgent.Web.Utf16

/-!
# The client's server-sent-events parser

`SseParser` of the web client: chunks in, frames out. A line ends at LF, CRLF
or CR, and a CR at the end of the buffer is held until the next chunk shows
whether an LF follows it.
-/

namespace SseClient

open Cutting Utf16

/-- Largest single line accepted, in UTF-16 code units. -/
def maxLineChars : Nat := 1000000

/-- Largest accumulated `data:` payload for one event. -/
def maxEventChars : Nat := 8000000

structure SseFrame where
  event : JsString
  data : JsString
  deriving DecidableEq, Repr

structure SseProtocolError where
  message : String
  deriving DecidableEq, Repr

/-- The event under construction. -/
structure EventState where
  dataLines : List JsString := []
  dataChars : Nat := 0
  eventName : JsString := []
  sawField : Bool := false
  deriving DecidableEq, Repr

structure SseParser where
  buffer : JsString := []
  event : EventState := {}
  deriving DecidableEq, Repr

/-- The slice points of the next line, counted from `i`. -/
def nextLineBreakFrom (i : Nat) : JsString → Option (Nat × Nat)
  | [] => none
  | ch :: rest =>
    if ch = LF then some (i, i + 1)
    else if ch = CR then
      match rest with
      -- The LF that would pair with this CR may be in the next chunk.
      | [] => none
      | next :: _ => if next = LF then some (i, i + 2) else some (i, i + 1)
    else nextLineBreakFrom (i + 1) rest

def nextLineBreak (buffer : JsString) : Option (Nat × Nat) := nextLineBreakFrom 0 buffer

/-- End the current event, if a blank line closed one that had fields. -/
def dispatch (s : EventState) : EventState × Option SseFrame :=
  if s.sawField then
    ({}, some ⟨if s.eventName = [] then js "message" else s.eventName,
      [LF].intercalate s.dataLines⟩)
  else (s, none)

/-- The text before the first colon, or the whole line. -/
def fieldName (line : JsString) : JsString :=
  match line.findIdx? (· = COLON) with
  | none => line
  | some i => line.take i

/-- The text after the first colon. -/
def afterColon (line : JsString) : JsString :=
  match line.findIdx? (· = COLON) with
  | none => []
  | some i => line.drop (i + 1)

/-- One leading space is not part of the value. -/
def fieldValue (line : JsString) : JsString :=
  let value := afterColon line
  if value.head? = some SPACE then value.drop 1 else value

/-- The switch on the field's name. -/
def applyField (s : EventState) (field value : JsString) :
    Except SseProtocolError EventState :=
  if field = js "event" then .ok { s with eventName := value, sawField := true }
  else if field = js "data" then
    let dataChars := s.dataChars + (value.length + 1)
    if dataChars > maxEventChars then
      .error ⟨s!"event stream sent {dataChars} characters in one event"⟩
    else
      .ok { s with
        dataChars := dataChars, dataLines := s.dataLines ++ [value], sawField := true }
  else if field = js "id" ∨ field = js "retry" then .ok { s with sawField := true }
  -- Unknown field: ignored, so that a server may add one.
  else .ok s

/-- Apply one line; a frame comes out if the line dispatched one. -/
def consumeLine (s : EventState) (line : JsString) :
    Except SseProtocolError (EventState × Option SseFrame) :=
  if line = [] then .ok (dispatch s)
  else if line.head? = some COLON then .ok (s, none)
  else (applyField s (fieldName line) (fieldValue line)).map fun t => (t, none)

/-- The loop of `push`: cut a line, apply it, until the buffer holds no break.
Every turn shortens the buffer, so its length is fuel enough. -/
def pushLoop : Nat → SseParser → List SseFrame →
    Except SseProtocolError (SseParser × List SseFrame)
  | 0, p, frames => .ok (p, frames)
  | fuel + 1, p, frames =>
    match nextLineBreak p.buffer with
    | none => .ok (p, frames)
    | some (start, stop) =>
      match consumeLine p.event (p.buffer.take start) with
      | .error e => .error e
      | .ok (event, frame) => pushLoop fuel ⟨p.buffer.drop stop, event⟩ (frames ++ frame.toList)

/-- Consume a chunk and return every frame it completed. -/
def push (p : SseParser) (chunk : JsString) :
    Except SseProtocolError (SseParser × List SseFrame) :=
  let buffer := p.buffer ++ chunk
  match pushLoop (buffer.length + 1) ⟨buffer, p.event⟩ [] with
  | .error e => .error e
  | .ok (q, frames) =>
    if q.buffer.length > maxLineChars then
      .error ⟨s!"event stream sent {q.buffer.length} characters with no line break"⟩
    else .ok (q, frames)

/-- Whether anything is still buffered when the connection ends. -/
def pending (p : SseParser) : Bool := p.buffer.length > 0 || p.event.sawField

/-- Successive pushes, their frames concatenated; the first refusal ends it. -/
def feed : SseParser → List JsString → Except SseProtocolError (SseParser × List SseFrame)
  | p, [] => .ok (p, [])
  | p, chunk :: chunks =>
    match push p chunk with
    | .error e => .error e
    | .ok (q, frames) => (feed q chunks).map fun r => (r.1, frames ++ r.2)

/-! ## The loop as a drain -/

theorem nextLineBreakFrom_bounds {i : Nat} {b : JsString} {start stop : Nat}
    (h : nextLineBreakFrom i b = some (start, stop)) :
    i ≤ start ∧ start < stop ∧ stop ≤ i + b.length := by
  induction b generalizing i with
  | nil => cases h
  | cons ch rest ih =>
    rw [nextLineBreakFrom.eq_def] at h
    dsimp only at h
    by_cases lf : ch = LF
    · simp only [if_pos lf, Option.some.injEq, Prod.mk.injEq] at h
      simp only [List.length_cons]
      omega
    · by_cases cr : ch = CR
      · cases rest with
        | nil => simp only [if_neg lf, if_pos cr, reduceCtorEq] at h
        | cons next after =>
          simp only [if_neg lf, if_pos cr] at h
          split at h <;> simp only [Option.some.injEq, Prod.mk.injEq] at h <;>
            simp only [List.length_cons] <;> omega
      · have tail := ih (by simpa only [if_neg lf, if_neg cr] using h)
        simp only [List.length_cons]
        omega

/-- A line break that has been found stays where it is when more text arrives. -/
theorem nextLineBreakFrom_append {i : Nat} {b : JsString} {cut : Nat × Nat}
    (h : nextLineBreakFrom i b = some cut) (more : JsString) :
    nextLineBreakFrom i (b ++ more) = some cut := by
  induction b generalizing i with
  | nil => cases h
  | cons ch rest ih =>
    rw [nextLineBreakFrom.eq_def] at h ⊢
    dsimp only [List.cons_append] at h ⊢
    by_cases lf : ch = LF
    · simpa only [if_pos lf] using h
    · by_cases cr : ch = CR
      · cases rest with
        | nil => simp only [if_neg lf, if_pos cr, reduceCtorEq] at h
        | cons next after => simpa only [if_neg lf, if_pos cr, List.cons_append] using h
      · simp only [if_neg lf, if_neg cr] at h ⊢
        exact ih h

/-- The line cutter of the parser's loop. -/
def lineCutter : Cutter UInt16 where
  cut b := (nextLineBreak b).map fun at_ => (b.take at_.1, b.drop at_.2)
  shrinks := by
    intro b p r h
    obtain ⟨⟨start, stop⟩, found, eq⟩ := Option.map_eq_some_iff.mp h
    cases eq
    have bounds := nextLineBreakFrom_bounds found
    simp only [List.length_drop]
    omega
  stable := by
    intro b p r h more
    obtain ⟨⟨start, stop⟩, found, eq⟩ := Option.map_eq_some_iff.mp h
    cases eq
    have bounds := nextLineBreakFrom_bounds found
    have later : nextLineBreak (b ++ more) = some (start, stop) :=
      nextLineBreakFrom_append found more
    simp only [later, Option.map_some, Option.some.injEq, Prod.mk.injEq]
    exact ⟨List.take_append_of_le_length (by omega), List.drop_append_of_le_length (by omega)⟩

/-- A line as the library's consumer takes it. -/
def consume (s : EventState) (line : JsString) :
    Except SseProtocolError (EventState × List SseFrame) :=
  (consumeLine s line).map fun r => (r.1, r.2.toList)

/-- Any fuel above the buffer's length drains the buffer. -/
theorem pushLoop_eq_drain (fuel : Nat) (p : SseParser) (frames : List SseFrame)
    (enough : p.buffer.length < fuel) :
    pushLoop fuel p frames = (drain lineCutter consume p.buffer p.event).map
      fun d => (⟨d.rest, d.state⟩, frames ++ d.output) := by
  induction fuel generalizing p frames with
  | zero => omega
  | succ fuel ih =>
    rw [pushLoop]
    cases found : nextLineBreak p.buffer with
    | none =>
      have uncut : lineCutter.cut p.buffer = none := by simp [lineCutter, found]
      rw [drain_none _ uncut]
      simp [Except.map]
    | some at_ =>
      obtain ⟨start, stop⟩ := at_
      have cut : lineCutter.cut p.buffer = some (p.buffer.take start, p.buffer.drop stop) := by
        simp [lineCutter, found]
      have shorter := lineCutter.shrinks cut
      rw [drain_some _ cut]
      simp only [consume]
      cases consumeLine p.event (p.buffer.take start) with
      | error e => rfl
      | ok next =>
        obtain ⟨event, frame⟩ := next
        simp only [Except.map]
        have less := Nat.lt_of_lt_of_le shorter (Nat.le_of_lt_succ enough)
        rw [ih ⟨p.buffer.drop stop, event⟩ _ less]
        cases drain lineCutter consume (p.buffer.drop stop) event with
        | error e => rfl
        | ok d => simp [Except.map, Drained.after]

/-- A push that does not throw drains the buffer with the chunk appended. -/
theorem push_ok_iff (p : SseParser) (chunk : JsString) (q : SseParser) (frames : List SseFrame) :
    push p chunk = .ok (q, frames) ↔
      drain lineCutter consume (p.buffer ++ chunk) p.event = .ok ⟨q.buffer, q.event, frames⟩ ∧
        q.buffer.length ≤ maxLineChars := by
  simp only [push]
  rw [pushLoop_eq_drain _ ⟨p.buffer ++ chunk, p.event⟩ [] (Nat.lt_succ_self _)]
  cases drain lineCutter consume (p.buffer ++ chunk) p.event with
  | error e => simp [Except.map]
  | ok d =>
    simp only [Except.map, List.nil_append]
    split
    · rename_i long
      simp only [reduceCtorEq, Except.ok.injEq, false_iff, not_and]
      rintro rfl
      exact Nat.not_le_of_gt long
    · rename_i fits
      constructor
      · intro same
        cases same
        exact ⟨rfl, by simpa using fits⟩
      · rintro ⟨same, -⟩
        cases same
        rfl

/-- Successive pushes that do not throw drain the concatenated chunks. -/
theorem feed_ok_drains {p q : SseParser} {chunks : List JsString} {frames : List SseFrame}
    (uncut : lineCutter.cut p.buffer = none) (fed : feed p chunks = .ok (q, frames)) :
    drain lineCutter consume (p.buffer ++ chunks.flatten) p.event =
      .ok ⟨q.buffer, q.event, frames⟩ := by
  induction chunks generalizing p q frames with
  | nil =>
    cases fed
    rw [List.flatten_nil, List.append_nil, drain_none _ uncut]
  | cons chunk chunks ih =>
    rw [feed] at fed
    cases pushed : push p chunk with
    | error e => simp [pushed] at fed
    | ok next =>
      obtain ⟨mid, first⟩ := next
      have drained := ((push_ok_iff p chunk mid first).mp pushed).1
      have held : lineCutter.cut mid.buffer = none := by
        rw [show mid.buffer = rest lineCutter (p.buffer ++ chunk) from drain_rest drained]
        exact rest_uncut _
      cases tail : feed mid chunks with
      | error e => simp [pushed, tail, Except.map] at fed
      | ok last =>
        obtain ⟨final, later⟩ := last
        simp only [pushed, tail, Except.map, Except.ok.injEq, Prod.mk.injEq] at fed
        obtain ⟨rfl, rfl⟩ := fed
        rw [List.flatten_cons, ← List.append_assoc, drain_append, drained]
        simp [ih held tail, Except.map, Drained.after]

/-- A text that drains, and that never leaves too long a rest on the way, can
be pushed in any chunks. -/
theorem feed_of_drain {p : SseParser} {chunks : List JsString}
    {d : Drained UInt16 EventState SseFrame} (uncut : lineCutter.cut p.buffer = none)
    (drained : drain lineCutter consume (p.buffer ++ chunks.flatten) p.event = .ok d)
    (fits : ∀ x, x <+: chunks.flatten →
      (rest lineCutter (p.buffer ++ x)).length ≤ maxLineChars) :
    feed p chunks = .ok (⟨d.rest, d.state⟩, d.output) := by
  induction chunks generalizing p d with
  | nil =>
    rw [List.flatten_nil, List.append_nil, drain_none _ uncut] at drained
    cases drained
    rfl
  | cons chunk chunks ih =>
    rw [List.flatten_cons, ← List.append_assoc] at drained
    obtain ⟨mid, first⟩ := drain_prefix drained
    have midRest := drain_rest first
    have pushed : push p chunk = .ok (⟨mid.rest, mid.state⟩, mid.output) := by
      refine (push_ok_iff p chunk ⟨mid.rest, mid.state⟩ mid.output).mpr ⟨first, ?_⟩
      show mid.rest.length ≤ maxLineChars
      rw [midRest]
      exact fits chunk (List.prefix_append _ _)
    have held : lineCutter.cut mid.rest = none := by
      rw [midRest]
      exact rest_uncut _
    have fitsLater : ∀ x, x <+: chunks.flatten →
        (rest lineCutter (mid.rest ++ x)).length ≤ maxLineChars := by
      intro x hx
      rw [midRest, ← rest_append, List.append_assoc]
      exact fits (chunk ++ x) ((List.prefix_append_right_inj chunk).mpr hx)
    rw [drain_append, first] at drained
    cases tail : drain lineCutter consume (mid.rest ++ chunks.flatten) mid.state with
    | error e => simp [tail, Except.map] at drained
    | ok d' =>
      simp only [tail, Except.map, Except.ok.injEq] at drained
      subst drained
      have later := ih (p := ⟨mid.rest, mid.state⟩) held tail fitsLater
      simp [feed, pushed, later, Except.map, Drained.after]

end SseClient
