import Mathlib.Algebra.GroupWithZero.Nat
import TextToSqlAgent.Web.SseClient

/-!
# A reference parse of a whole event stream

The whole text is split into lines, the lines into blocks closed by a blank
line, and a block with a known field gives one frame. Nothing is held between
calls. The incremental parser agrees with it for every way of chunking the text.
-/

namespace SseReference

open Cutting Utf16 SseClient

/-- A first line put in front of a split text. -/
def line (cur : JsString) (t : List JsString × JsString) : List JsString × JsString :=
  (cur :: t.1, t.2)

/-- The complete lines of a text, and the incomplete one after them. A line
ends at LF, CRLF or a CR that is not the last character of the text. -/
def splitLines (cur : JsString) : JsString → List JsString × JsString
  | [] => ([], cur)
  | [ch] => if ch = LF then ([cur], []) else ([], cur ++ [ch])
  | ch :: next :: after =>
    if ch = LF then line cur (splitLines [] (next :: after))
    else if ch = CR then
      if next = LF then line cur (splitLines [] after)
      else line cur (splitLines [] (next :: after))
    else splitLines (cur ++ [ch]) (next :: after)

/-- The blocks closed by a blank line, and the lines after the last of them. -/
def splitBlocks (cur : List JsString) : List JsString → List (List JsString) × List JsString
  | [] => ([], cur)
  | l :: rest =>
    if l = [] then (cur :: (splitBlocks [] rest).1, (splitBlocks [] rest).2)
    else splitBlocks (cur ++ [l]) rest

/-- The fields the protocol knows. -/
inductive Field
  | event
  | data
  | id
  | retry
  deriving DecidableEq, Repr

def fieldNamed (name : JsString) : Option Field :=
  if name = js "event" then some .event
  else if name = js "data" then some .data
  else if name = js "id" then some .id
  else if name = js "retry" then some .retry
  else none

def stripSpace (value : JsString) : JsString :=
  match value with
  | [] => []
  | ch :: rest => if ch = SPACE then rest else ch :: rest

/-- Name up to the first colon, value after it. A comment has an empty name,
and neither it nor an unknown name is a field. -/
def readField (l : JsString) : Option (Field × JsString) :=
  (fieldNamed (l.takeWhile (· ≠ COLON))).map fun f =>
    (f, stripSpace ((l.dropWhile (· ≠ COLON)).drop 1))

def valuesOf (f : Field) (fields : List (Field × JsString)) : List JsString :=
  (fields.filter (·.1 = f)).map Prod.snd

def lastEvent (fields : List (Field × JsString)) : JsString :=
  (valuesOf .event fields).getLast?.getD []

/-- The frame of a block, if any line of it was a field. -/
def frameOf (fields : List (Field × JsString)) : Option SseFrame :=
  if fields = [] then none
  else some ⟨if lastEvent fields = [] then js "message" else lastEvent fields,
    [LF].intercalate (valuesOf .data fields)⟩

def fieldsOf (block : List JsString) : List (Field × JsString) := block.filterMap readField

def referenceFrames (text : JsString) : List SseFrame :=
  ((splitBlocks [] (splitLines [] text).1).1.map fieldsOf).filterMap frameOf

/-- The text ends inside a line, or its last block is open and has a field. -/
def referencePending (text : JsString) : Bool :=
  !(splitLines [] text).2.isEmpty ||
    !(fieldsOf (splitBlocks [] (splitLines [] text).1).2).isEmpty

/-! ## Lines -/

/-- The first line of a text ends where the parser finds its first break. -/
theorem splitLines_of_break (i : Nat) (b cur : JsString) :
    splitLines cur b = match nextLineBreakFrom i b with
      | none => ([], cur ++ b)
      | some (start, stop) =>
        line (cur ++ b.take (start - i)) (splitLines [] (b.drop (stop - i))) := by
  induction b generalizing i cur with
  | nil => simp [splitLines, nextLineBreakFrom]
  | cons ch rest ih =>
    rw [nextLineBreakFrom.eq_def]
    dsimp only
    by_cases lf : ch = LF
    · cases rest with
      | nil => simp [splitLines, lf, line]
      | cons next after => simp [splitLines, lf, line]
    · by_cases cr : ch = CR
      · cases rest with
        | nil => simp only [splitLines, if_neg lf, if_pos cr]
        | cons next after =>
          by_cases pair : next = LF
          · simp only [splitLines, if_neg lf, if_pos cr, if_pos pair]
            simp
          · simp only [splitLines, if_neg lf, if_pos cr, if_neg pair]
            simp
      · simp only [if_neg lf, if_neg cr]
        cases rest with
        | nil => simp only [splitLines, if_neg lf, nextLineBreakFrom]
        | cons next after =>
          rw [splitLines, if_neg lf, if_neg cr, ih (i + 1) (cur ++ [ch])]
          cases found : nextLineBreakFrom (i + 1) (next :: after) with
          | none => simp
          | some at_ =>
            obtain ⟨start, stop⟩ := at_
            have bounds := nextLineBreakFrom_bounds found
            obtain ⟨m, hm⟩ : ∃ m, start - i = m + 1 := ⟨start - i - 1, by omega⟩
            obtain ⟨n, hn⟩ : ∃ n, stop - i = n + 1 := ⟨stop - i - 1, by omega⟩
            have hm' : start - (i + 1) = m := by omega
            have hn' : stop - (i + 1) = n := by omega
            simp only [hm, hn, hm', hn', List.take_succ_cons, List.drop_succ_cons,
              List.append_assoc, List.singleton_append]

/-- Lines consumed one after the other. -/
def consumeLines (s : EventState) : List JsString →
    Except SseProtocolError (EventState × List SseFrame)
  | [] => .ok (s, [])
  | l :: rest =>
    match consume s l with
    | .error e => .error e
    | .ok (t, frames) => (consumeLines t rest).map fun r => (r.1, frames ++ r.2)

/-- Draining a text consumes its complete lines and keeps the incomplete one. -/
theorem drain_eq_consumeLines (b : JsString) (s : EventState) :
    drain lineCutter consume b s = (consumeLines s (splitLines [] b).1).map
      fun r => ⟨(splitLines [] b).2, r.1, r.2⟩ := by
  induction hn : b.length using Nat.strongRecOn generalizing b s with
  | ind n ih =>
    have split := splitLines_of_break 0 b []
    cases found : nextLineBreakFrom 0 b with
    | none =>
      have uncut : lineCutter.cut b = none := by simp [lineCutter, nextLineBreak, found]
      simp only [found, List.nil_append] at split
      rw [drain_none s uncut, split]
      rfl
    | some at_ =>
      obtain ⟨start, stop⟩ := at_
      have cut : lineCutter.cut b = some (b.take start, b.drop stop) := by
        simp [lineCutter, nextLineBreak, found]
      simp only [found, List.nil_append, Nat.sub_zero] at split
      rw [drain_some s cut, split]
      simp only [line, consumeLines]
      cases consume s (b.take start) with
      | error e => rfl
      | ok next =>
        obtain ⟨t, frames⟩ := next
        simp only
        rw [ih _ (hn ▸ lineCutter.shrinks cut) (b.drop stop) t rfl]
        cases consumeLines t (splitLines [] (b.drop stop)).1 with
        | error e => rfl
        | ok r => rfl

/-! ## Blocks -/

/-- The parser's state inside a block, computed from the fields read so far. -/
def stateOf (fields : List (Field × JsString)) : EventState where
  dataLines := valuesOf .data fields
  dataChars := ((valuesOf .data fields).map fun v => v.length + 1).sum
  eventName := lastEvent fields
  sawField := !fields.isEmpty

theorem dispatch_stateOf (fields : List (Field × JsString)) :
    dispatch (stateOf fields) = (stateOf [], frameOf fields) := by
  cases fields with
  | nil => rfl
  | cons f rest => rfl

theorem valuesOf_snoc (g f : Field) (v : JsString) (fields : List (Field × JsString)) :
    valuesOf g (fields ++ [(f, v)]) = valuesOf g fields ++ if f = g then [v] else [] := by
  by_cases same : f = g
  · simp [valuesOf, List.filter_append, same]
  · simp [valuesOf, List.filter_append, same]

/-- The name the parser slices off is the text before the first colon. -/
theorem fieldName_eq (l : JsString) : fieldName l = l.takeWhile (· ≠ COLON) := by
  induction l with
  | nil => rfl
  | cons ch rest ih =>
    rw [fieldName] at ih ⊢
    by_cases colon : ch = COLON
    · simp [List.findIdx?_cons, colon]
    · cases found : rest.findIdx? (· = COLON) with
      | none => simpa [List.findIdx?_cons, colon, found] using ih
      | some i => simpa [List.findIdx?_cons, colon, found] using ih

theorem afterColon_eq (l : JsString) : afterColon l = (l.dropWhile (· ≠ COLON)).drop 1 := by
  induction l with
  | nil => rfl
  | cons ch rest ih =>
    rw [afterColon] at ih ⊢
    by_cases colon : ch = COLON
    · simp [List.findIdx?_cons, colon]
    · cases found : rest.findIdx? (· = COLON) with
      | none => simpa [List.findIdx?_cons, colon, found] using ih
      | some i => simpa [List.findIdx?_cons, colon, found] using ih

/-- The value the parser slices off is the text after the first colon. -/
theorem fieldValue_eq (l : JsString) :
    fieldValue l = stripSpace ((l.dropWhile (· ≠ COLON)).drop 1) := by
  rw [fieldValue, ← afterColon_eq]
  cases afterColon l with
  | nil => rfl
  | cons ch rest => simp [stripSpace]

/-- A comment has an empty name, and the empty name is no field's. -/
theorem readField_comment {l : JsString} (comment : l.head? = some COLON) :
    readField l = none := by
  cases l with
  | nil => cases comment
  | cons ch rest =>
    have colon : ch = COLON := Option.some.inj comment
    have unnamed : fieldNamed [] = none := by decide
    simp [readField, colon, unnamed]

/-- The switch adds the field of that name, if there is one. -/
theorem applyField_stateOf {fields : List (Field × JsString)} {name value : JsString}
    {t : EventState} (applied : applyField (stateOf fields) name value = .ok t) :
    t = stateOf (fields ++ ((fieldNamed name).map fun f => (f, value)).toList) := by
  have distinct : js "data" ≠ js "event" ∧ js "id" ≠ js "event" ∧ js "retry" ≠ js "event" ∧
      js "id" ≠ js "data" ∧ js "retry" ≠ js "data" ∧ js "retry" ≠ js "id" := by decide
  rw [applyField] at applied
  by_cases event : name = js "event"
  · subst event
    simp only [if_true, Except.ok.injEq] at applied
    simp [← applied, fieldNamed, stateOf, valuesOf_snoc, lastEvent]
  · by_cases data : name = js "data"
    · subst data
      simp only [if_neg event, if_true] at applied
      split at applied
      · cases applied
      · simp only [Except.ok.injEq] at applied
        simp [← applied, fieldNamed, event, stateOf, valuesOf_snoc, lastEvent]
    · by_cases id : name = js "id"
      · subst id
        simp only [if_neg event, if_neg data, true_or, if_true, Except.ok.injEq] at applied
        simp [← applied, fieldNamed, event, data, stateOf, valuesOf_snoc, lastEvent]
      · by_cases retry : name = js "retry"
        · subst retry
          simp only [if_neg event, if_neg data, or_true, if_true, Except.ok.injEq] at applied
          simp [← applied, fieldNamed, event, data, id, stateOf, valuesOf_snoc, lastEvent]
        · simp only [if_neg event, if_neg data, id, retry, or_self, if_false,
            Except.ok.injEq] at applied
          simp [← applied, fieldNamed, event, data, id, retry]

theorem consume_blank (fields : List (Field × JsString)) :
    consume (stateOf fields) [] = .ok (stateOf [], (frameOf fields).toList) := by
  simp [consume, consumeLine, dispatch_stateOf, Except.map]

/-- A line that is not blank adds the field it holds, if it holds one. -/
theorem consume_line {fields : List (Field × JsString)} {l : JsString} {t : EventState}
    {frames : List SseFrame} (hl : l ≠ [])
    (consumed : consume (stateOf fields) l = .ok (t, frames)) :
    t = stateOf (fields ++ (readField l).toList) ∧ frames = [] := by
  rw [consume, consumeLine, if_neg hl] at consumed
  by_cases comment : l.head? = some COLON
  · simp only [if_pos comment, Except.map, Except.ok.injEq, Prod.mk.injEq] at consumed
    obtain ⟨rfl, rfl⟩ := consumed
    simp [readField_comment comment]
  · rw [if_neg comment] at consumed
    cases applied : applyField (stateOf fields) (fieldName l) (fieldValue l) with
    | error e => simp [applied, Except.map] at consumed
    | ok next =>
      simp only [applied, Except.map, Except.ok.injEq, Prod.mk.injEq] at consumed
      obtain ⟨rfl, rfl⟩ := consumed
      rw [readField, ← fieldName_eq, ← fieldValue_eq]
      exact ⟨applyField_stateOf applied, rfl⟩

/-- Inside an open block the parser's state is the one its fields give; each
closed block has given its frame. -/
theorem consumeLines_blocks (block : List JsString) {lines : List JsString} {t : EventState}
    {frames : List SseFrame}
    (consumed : consumeLines (stateOf (fieldsOf block)) lines = .ok (t, frames)) :
    t = stateOf (fieldsOf (splitBlocks block lines).2) ∧
      frames = ((splitBlocks block lines).1.map fieldsOf).filterMap frameOf := by
  induction lines generalizing block t frames with
  | nil =>
    cases consumed
    exact ⟨rfl, rfl⟩
  | cons l rest ih =>
    rw [consumeLines] at consumed
    by_cases blank : l = []
    · subst blank
      simp only [consume_blank] at consumed
      cases tail : consumeLines (stateOf []) rest with
      | error e => simp [tail, Except.map] at consumed
      | ok next =>
        simp only [tail, Except.map, Except.ok.injEq, Prod.mk.injEq] at consumed
        obtain ⟨rfl, rfl⟩ := consumed
        obtain ⟨state, out⟩ := ih [] tail
        refine ⟨state, ?_⟩
        rw [out, splitBlocks, if_pos rfl, List.map_cons, List.filterMap_cons]
        cases frameOf (fieldsOf block) with
        | none => rfl
        | some frame => rfl
    · cases first : consume (stateOf (fieldsOf block)) l with
      | error e => simp [first] at consumed
      | ok next =>
        obtain ⟨mid, out⟩ := next
        obtain ⟨rfl, rfl⟩ := consume_line blank first
        have grown : fieldsOf block ++ (readField l).toList = fieldsOf (block ++ [l]) := by
          cases h : readField l with
          | none => simp [fieldsOf, h]
          | some f => simp [fieldsOf, h]
        rw [grown] at first
        cases tail : consumeLines (stateOf (fieldsOf (block ++ [l]))) rest with
        | error e => simp [first, tail, Except.map] at consumed
        | ok last =>
          simp only [first, tail, Except.map, List.nil_append, Except.ok.injEq,
            Prod.mk.injEq] at consumed
          obtain ⟨rfl, rfl⟩ := consumed
          rw [splitBlocks, if_neg blank]
          exact ih _ tail

/-- However a text is split into pushes none of which throws, the frames are
those of the reference parse of the whole text, and so is `pending`. -/
theorem chunks_parse_as_whole (chunks : List JsString) (p : SseParser)
    (frames : List SseFrame) (fed : feed {} chunks = .ok (p, frames)) :
    frames = referenceFrames chunks.flatten ∧ pending p = referencePending chunks.flatten := by
  have drained := feed_ok_drains (p := {}) rfl fed
  rw [List.nil_append, drain_eq_consumeLines] at drained
  cases consumed : consumeLines {} (splitLines [] chunks.flatten).1 with
  | error e => simp [consumed, Except.map] at drained
  | ok r =>
    simp only [consumed, Except.map, Except.ok.injEq, Drained.mk.injEq] at drained
    obtain ⟨rest, state, out⟩ := drained
    obtain ⟨finalState, finalFrames⟩ := consumeLines_blocks [] consumed
    refine ⟨by rw [← out, finalFrames, referenceFrames], ?_⟩
    rw [pending, ← rest, ← state, finalState, referencePending, stateOf]
    cases (splitLines [] chunks.flatten).2 with
    | nil => simp
    | cons ch tail => simp

/-- A CRLF cut in half, two data lines, and an unfinished comment. -/
theorem chunks_parse_as_whole_split_crlf :
    [⟨js "sql", js "a\nb"⟩] = referenceFrames
        [js "event: sql\ndata: a\r", js "\ndata: b\n\n: keep"].flatten ∧
      pending ⟨js ": keep", {}⟩ = referencePending
        [js "event: sql\ndata: a\r", js "\ndata: b\n\n: keep"].flatten :=
  chunks_parse_as_whole [js "event: sql\ndata: a\r", js "\ndata: b\n\n: keep"]
    ⟨js ": keep", {}⟩ [⟨js "sql", js "a\nb"⟩] (by decide)

end SseReference
