import TextToSqlAgent.Api.SseEvent
import TextToSqlAgent.Web.SseReference

/-!
# Server framing and client framing

What the server writes is a list of short lines, each ended by LF and none
containing CR or LF. The client cuts exactly those lines, and the lines of an
event leave its parser as they found it, with one frame out.
-/

namespace SseWire

open Cutting Utf16 SseClient SseReference SseEvent

theorem js_append (s t : String) : js (s ++ t) = js s ++ js t := by
  simp [js]

/-- A line that a terminator can be put after. -/
def Inline (l : JsString) : Prop := LF ∉ l ∧ CR ∉ l

/-- Lines, each ended by LF. -/
def terminated (lines : List JsString) : JsString := lines.flatMap fun l => l ++ [LF]

theorem splitLines_terminated_line {l cur : JsString} (inline : Inline l) (more : JsString) :
    splitLines cur (l ++ LF :: more) = line (cur ++ l) (splitLines [] more) := by
  induction l generalizing cur with
  | nil =>
    cases more with
    | nil => simp [splitLines, line]
    | cons ch more => simp [splitLines, line]
  | cons ch l ih =>
    obtain ⟨noLf, noCr⟩ := inline
    have lf : ch ≠ LF := fun h => noLf (h ▸ List.mem_cons_self)
    have cr : ch ≠ CR := fun h => noCr (h ▸ List.mem_cons_self)
    have tail : Inline l :=
      ⟨fun h => noLf (List.mem_cons_of_mem _ h), fun h => noCr (List.mem_cons_of_mem _ h)⟩
    have step : splitLines cur (ch :: (l ++ LF :: more)) =
        splitLines (cur ++ [ch]) (l ++ LF :: more) := by
      cases l with
      | nil => rw [List.nil_append, splitLines, if_neg lf, if_neg cr]
      | cons next l => rw [List.cons_append, splitLines, if_neg lf, if_neg cr]
    rw [List.cons_append, step, ih tail, List.append_assoc, List.singleton_append]

theorem splitLines_terminated {lines : List JsString} (inline : ∀ l ∈ lines, Inline l) :
    splitLines [] (terminated lines) = (lines, []) := by
  induction lines with
  | nil => rfl
  | cons l rest ih =>
    have tail := ih fun k hk => inline k (List.mem_cons_of_mem l hk)
    rw [terminated, List.flatMap_cons, List.append_assoc, List.singleton_append,
      splitLines_terminated_line (inline l List.mem_cons_self)]
    rw [terminated] at tail
    rw [tail, List.nil_append, line]

/-- Two runs of lines, one after the other. -/
theorem consumeLines_append {s t u : EventState} {first second : List JsString}
    {out later : List SseFrame} (h : consumeLines s first = .ok (t, out))
    (g : consumeLines t second = .ok (u, later)) :
    consumeLines s (first ++ second) = .ok (u, out ++ later) := by
  induction first generalizing s out with
  | nil =>
    cases h
    exact g
  | cons l rest ih =>
    rw [consumeLines] at h
    rw [List.cons_append, consumeLines]
    cases one : consume s l with
    | error e => simp [one] at h
    | ok next =>
      cases tail : consumeLines next.1 rest with
      | error e => simp [one, tail, Except.map] at h
      | ok last =>
        simp only [one, tail, Except.map, Except.ok.injEq, Prod.mk.injEq] at h
        obtain ⟨rfl, rfl⟩ := h
        simp [ih tail, Except.map]

/-! ## The lines of one event -/

/-- A field line as the server writes it. -/
theorem consume_field (name value : JsString) (colonless : COLON ∉ name) (named : name ≠ [])
    (s : EventState) :
    consume s (name ++ COLON :: SPACE :: value) =
      (applyField s name value).map fun t => (t, []) := by
  have cut : ∀ ch ∈ name, decide (ch ≠ COLON) = true := by
    intro ch hch
    exact decide_eq_true fun h => colonless (h ▸ hch)
  have hname : fieldName (name ++ COLON :: SPACE :: value) = name := by
    rw [fieldName_eq, List.takeWhile_append_of_pos cut]
    simp
  have hvalue : fieldValue (name ++ COLON :: SPACE :: value) = value := by
    rw [fieldValue_eq, List.dropWhile_append_of_pos cut]
    simp [stripSpace]
  have written : name ++ COLON :: SPACE :: value ≠ [] := by simp
  have notComment : (name ++ COLON :: SPACE :: value).head? ≠ some COLON := by
    cases name with
    | nil => exact absurd rfl named
    | cons ch rest =>
      simp only [List.cons_append, List.head?_cons, ne_eq, Option.some.injEq]
      exact fun h => colonless (h ▸ List.mem_cons_self)
  rw [consume, consumeLine, if_neg written, if_neg notComment, hname, hvalue]
  cases applyField s name value with
  | error e => rfl
  | ok t => rfl

/-- The lines of an event: its name, its payload, and the blank line. -/
def eventLines (name payload : JsString) : List JsString :=
  [js "event" ++ COLON :: SPACE :: name, js "data" ++ COLON :: SPACE :: payload, []]

theorem consumeLines_event {name payload : JsString} (named : name ≠ [])
    (short : payload.length + 1 ≤ maxEventChars) :
    consumeLines {} (eventLines name payload) = .ok ({}, [⟨name, payload⟩]) := by
  have event := consume_field (js "event") name (by decide) (by decide) {}
  have data := consume_field (js "data") payload (by decide) (by decide)
    { eventName := name, sawField := true }
  have other : js "data" ≠ js "event" := by decide
  have fits : ¬ 0 + (payload.length + 1) > maxEventChars := by omega
  rw [applyField, if_pos rfl] at event
  rw [applyField, if_neg other, if_pos rfl] at data
  simp only [if_neg fits, List.nil_append] at data
  have blank : consume ⟨[payload], 0 + (payload.length + 1), name, true⟩ [] =
      .ok ({}, [⟨name, payload⟩]) := by
    simp [consume, consumeLine, dispatch, Except.map, named]
  simp only [eventLines, consumeLines, event, data, blank, Except.map, List.nil_append,
    List.append_nil]

theorem consumeLines_heartbeat :
    consumeLines {} [js ": keepalive", []] = .ok ({}, []) := by decide

/-! ## The whole wire -/

variable {Payload : Type} (dumps : Payload → String)

/-- The frame an event should arrive as. -/
def frameFor (e : ServerSentEvent Payload) : SseFrame := ⟨js e.event, js (dumps e.data)⟩

/-- The lines of one thing the server writes. -/
def linesOf : Written Payload → List JsString
  | .event e => eventLines (js e.event) (js (dumps e.data))
  | .heartbeat => [js ": keepalive", []]

theorem text_terminates_lines {w : Written Payload} {text : String}
    (written : w.text dumps = .ok text) : js text = terminated (linesOf dumps w) := by
  cases w with
  | heartbeat =>
    have comment : js heartbeat = js ": keepalive" ++ [LF, LF] := by decide
    cases written
    rw [comment]
    simp [linesOf, terminated]
  | event e =>
    rw [Written.text, ServerSentEvent.encode] at written
    split at written
    · cases written
    · simp only [Except.ok.injEq] at written
      have parts : js "event: " = js "event" ++ [COLON, SPACE] ∧
          js "\ndata: " = LF :: (js "data" ++ [COLON, SPACE]) ∧ js "\n\n" = [LF, LF] := by decide
      rw [← written]
      simp only [js_append, parts.1, parts.2.1, parts.2.2, linesOf, eventLines, terminated]
      simp

theorem wireText_terminates_lines {written : List (Written Payload)} {text : String}
    (ok : wireText dumps written = .ok text) :
    js text = terminated (written.flatMap (linesOf dumps)) := by
  induction written generalizing text with
  | nil =>
    cases ok
    rfl
  | cons w rest ih =>
    rw [wireText] at ok
    cases first : w.text dumps with
    | error e => simp [first] at ok
    | ok head =>
      cases tail : wireText dumps rest with
      | error e => simp [first, tail, Except.map] at ok
      | ok more =>
        simp only [first, tail, Except.map, Except.ok.injEq] at ok
        rw [← ok, js_append, text_terminates_lines dumps first, ih tail]
        simp [terminated]

/-- A payload on one line is never refused. -/
theorem wireText_total (single : ∀ d, '\n' ∉ (dumps d).toList ∧ '\r' ∉ (dumps d).toList)
    (written : List (Written Payload)) : ∃ text, wireText dumps written = .ok text := by
  induction written with
  | nil => exact ⟨"", rfl⟩
  | cons w rest ih =>
    obtain ⟨more, tail⟩ := ih
    have head : ∃ text, w.text dumps = .ok text := by
      cases w with
      | heartbeat => exact ⟨heartbeat, rfl⟩
      | event e => simp [Written.text, ServerSentEvent.encode, (single e.data).1, (single e.data).2]
    obtain ⟨text, first⟩ := head
    exact ⟨text ++ more, by simp [wireText, first, tail, Except.map]⟩

theorem inline_js {s : String} (h : '\n' ∉ s.toList ∧ '\r' ∉ s.toList) : Inline (js s) := by
  have low : ∀ n : Nat, n < 0xD800 → ∀ c : Char, c.toNat = n → c ∉ s.toList →
      UInt16.ofNat n ∉ js s := by
    intro n hn c hc absent present
    obtain ⟨d, hd, same⟩ := (mem_utf16 hn s.toList).mp present
    have eq : d = c := Char.toNat_inj.mp (same.trans hc.symm)
    exact absent (eq ▸ hd)
  exact ⟨low 10 (by decide) '\n' rfl h.1, low 13 (by decide) '\r' rfl h.2⟩

theorem event_name_inline {event : String} (legal : legalEventName event = true) :
    Inline (js event) ∧ js event ≠ [] ∧ (js event).length ≤ 31 := by
  obtain ⟨short, chars⟩ := legalEventName_chars legal
  have ascii : ∀ c ∈ event.toList, (utf16Char c).length = 1 := by
    intro c hc
    have small : c.toNat < 0x10000 := by
      rcases chars c hc with lower | rfl
      · have upper : c.val ≤ 'z'.val := of_decide_eq_true (Bool.and_eq_true_iff.mp lower).2
        exact Nat.lt_of_le_of_lt (UInt32.le_iff_toNat_le.mp upper) (by decide)
      · decide
    simp [utf16Char, small]
  have length : (js event).length = event.toList.length := by
    rw [js, utf16, List.length_flatMap, List.map_congr_left ascii]
    simp
  have named : event.toList ≠ [] := by
    intro empty
    simp [legalEventName, empty] at legal
  refine ⟨inline_js ⟨?_, ?_⟩, ?_, by omega⟩
  · intro h
    exact absurd (chars _ h) (by decide)
  · intro h
    exact absurd (chars _ h) (by decide)
  · intro empty
    have : event.toList.length = 0 := by rw [← length, empty]; rfl
    exact named (List.length_eq_zero_iff.mp this)

theorem inline_linesOf (single : ∀ d, '\n' ∉ (dumps d).toList ∧ '\r' ∉ (dumps d).toList)
    (w : Written Payload) : ∀ l ∈ linesOf dumps w, Inline l := by
  have blank : Inline [] := ⟨List.not_mem_nil, List.not_mem_nil⟩
  have field : ∀ name value : JsString, Inline name → Inline value →
      Inline (name ++ COLON :: SPACE :: value) := by
    intro name value hn hv
    have notBreak : LF ≠ COLON ∧ LF ≠ SPACE ∧ CR ≠ COLON ∧ CR ≠ SPACE := by decide
    simp [Inline, hn.1, hn.2, hv.1, hv.2, notBreak]
  cases w with
  | heartbeat =>
    intro l hl
    rcases List.mem_pair.mp hl with rfl | rfl
    · exact ⟨by decide, by decide⟩
    · exact blank
  | event e =>
    intro l hl
    simp only [linesOf, eventLines, List.mem_cons, List.not_mem_nil, or_false] at hl
    rcases hl with rfl | rfl | rfl
    · exact field _ _ ⟨by decide, by decide⟩ (event_name_inline e.legal).1
    · exact field _ _ ⟨by decide, by decide⟩ (inline_js (single e.data))
    · exact blank

/-- The lines of everything written, consumed from the start of an event. -/
theorem consumeLines_written {written : List (Written Payload)}
    (fits : ∀ e ∈ eventsOf written, (js (dumps e.data)).length + 1 ≤ maxEventChars) :
    consumeLines {} (written.flatMap (linesOf dumps)) =
      .ok ({}, (eventsOf written).map (frameFor dumps)) := by
  induction written with
  | nil => rfl
  | cons w rest ih =>
    rw [List.flatMap_cons]
    cases w with
    | heartbeat =>
      have tail := ih fun e he => fits e he
      exact consumeLines_append consumeLines_heartbeat tail
    | event e =>
      have tail := ih fun f hf => fits f (List.mem_cons_of_mem e hf)
      have first := consumeLines_event (event_name_inline e.legal).2.1
        (fits e List.mem_cons_self)
      exact consumeLines_append first tail

/-! ## What the parser holds on the way -/

theorem uncut_no_lf {i : Nat} {b : JsString} (h : nextLineBreakFrom i b = none) : LF ∉ b := by
  induction b generalizing i with
  | nil => exact List.not_mem_nil
  | cons ch rest ih =>
    rw [nextLineBreakFrom.eq_def] at h
    dsimp only at h
    by_cases lf : ch = LF
    · simp [lf] at h
    · by_cases cr : ch = CR
      · cases rest with
        | nil => simpa using fun same : LF = ch => lf same.symm
        | cons next after =>
          simp only [if_neg lf, if_pos cr] at h
          split at h <;> cases h
      · simp only [if_neg lf, if_neg cr] at h
        simp only [List.mem_cons, not_or]
        exact ⟨fun same => lf same.symm, ih h⟩

theorem rest_suffix (b : JsString) : rest lineCutter b <:+ b := by
  induction hn : b.length using Nat.strongRecOn generalizing b with
  | ind n ih =>
    cases found : nextLineBreak b with
    | none =>
      have uncut : lineCutter.cut b = none := by simp [lineCutter, found]
      simp only [rest_none uncut, List.suffix_rfl]
    | some at_ =>
      have cut : lineCutter.cut b = some (b.take at_.1, b.drop at_.2) := by
        simp [lineCutter, found]
      rw [rest_some cut]
      exact (ih _ (hn ▸ lineCutter.shrinks cut) _ rfl).trans (List.drop_suffix _ _)

/-- A stretch of text free of a character lies on one side of it. -/
theorem infix_append_cons {α : Type} {x : α} {seg before after : List α}
    (inside : seg <:+: before ++ x :: after) (free : x ∉ seg) :
    seg <:+: before ∨ seg <:+: after := by
  obtain ⟨s, t, eq⟩ := inside
  rw [List.append_assoc] at eq
  rcases List.append_eq_append_iff.mp eq with ⟨a, hbefore, hrest⟩ | ⟨c, hs, hrest⟩
  · rcases List.append_eq_append_iff.mp hrest.symm with ⟨a', hseg, hx⟩ | ⟨c', ha, -⟩
    · cases a' with
      | nil => exact Or.inl ⟨s, [], by simp [hbefore, hseg]⟩
      | cons y a' =>
        have : x = y := (List.cons.inj hx).1
        exact absurd (by simp [hseg, this]) free
    · exact Or.inl ⟨s, c', by simp [hbefore, ha]⟩
  · cases c with
    | nil =>
      cases seg with
      | nil => exact Or.inl (List.nil_infix)
      | cons y seg =>
        have : x = y := (List.cons.inj hrest).1
        exact absurd (by simp [this]) free
    | cons y c => exact Or.inr ⟨c, t, by simp [(List.cons.inj hrest).2]⟩

/-- A stretch of the wire without a line break lies inside one line. -/
theorem infix_terminated {lines : List JsString} {seg : JsString}
    (inside : seg <:+: terminated lines) (unbroken : LF ∉ seg) :
    seg = [] ∨ ∃ l ∈ lines, seg <:+: l := by
  induction lines with
  | nil => exact Or.inl (List.infix_nil.mp inside)
  | cons l rest ih =>
    have split : terminated (l :: rest) = l ++ LF :: terminated rest := by simp [terminated]
    rw [split] at inside
    rcases infix_append_cons inside unbroken with here | later
    · exact Or.inr ⟨l, List.mem_cons_self, here⟩
    · rcases ih later with empty | ⟨k, hk, hseg⟩
      · exact Or.inl empty
      · exact Or.inr ⟨k, List.mem_cons_of_mem l hk, hseg⟩

/-- What a prefix of the wire leaves uncut is never longer than a line. -/
theorem rest_prefix_short {lines : List JsString} {x : JsString} {bound : Nat}
    (short : ∀ l ∈ lines, l.length ≤ bound) (hx : x <+: terminated lines) :
    (rest lineCutter x).length ≤ bound := by
  have uncut : nextLineBreak (rest lineCutter x) = none :=
    Option.map_eq_none_iff.mp (rest_uncut (C := lineCutter) x)
  have inside : rest lineCutter x <:+: terminated lines :=
    (rest_suffix x).isInfix.trans hx.isInfix
  rcases infix_terminated inside (uncut_no_lf uncut) with empty | ⟨l, hl, hseg⟩
  · simp [empty]
  · exact Nat.le_trans hseg.length_le (short l hl)

theorem data_line_length (payload : String) :
    (js ("data: " ++ payload)).length = (js payload).length + 6 := by
  have six : (js "data: ").length = 6 := by decide
  rw [js_append, List.length_append, six, Nat.add_comm]

theorem linesOf_short {w : Written Payload}
    (fits : ∀ e, w = .event e → (js ("data: " ++ dumps e.data)).length ≤ maxLineChars) :
    ∀ l ∈ linesOf dumps w, l.length ≤ maxLineChars := by
  cases w with
  | heartbeat =>
    show ∀ l ∈ [js ": keepalive", []], l.length ≤ maxLineChars
    decide
  | event e =>
    have payload := fits e rfl
    have name := (event_name_inline e.legal).2.2
    have sizes : (js "event").length = 5 ∧ (js "data").length = 4 := by decide
    rw [data_line_length] at payload
    intro l hl
    simp only [linesOf, eventLines, List.mem_cons, List.not_mem_nil, or_false] at hl
    rcases hl with rfl | rfl | rfl
    · simp only [List.length_append, List.length_cons, sizes]
      exact Nat.le_trans (by omega) (show 38 ≤ maxLineChars by decide)
    · simp only [List.length_append, List.length_cons, sizes]
      omega
    · exact Nat.zero_le _

/-- Everything the server writes reaches the client as it was: the same names
and payloads in the same order, however the wire is chunked, and nothing
pending at the end. -/
theorem client_reads_what_server_wrote
    (single : ∀ d, '\n' ∉ (dumps d).toList ∧ '\r' ∉ (dumps d).toList)
    (written : List (Written Payload))
    (fits : ∀ e ∈ eventsOf written, (js ("data: " ++ dumps e.data)).length ≤ maxLineChars) :
    ∃ text, wireText dumps written = .ok text ∧
      ∀ chunks : List JsString, chunks.flatten = js text →
        ∃ p, feed {} chunks = .ok (p, (eventsOf written).map (frameFor dumps)) ∧
          pending p = false := by
  obtain ⟨text, ok⟩ := wireText_total dumps single written
  refine ⟨text, ok, ?_⟩
  intro chunks whole
  have lines := wireText_terminates_lines dumps ok
  have inline : ∀ l ∈ written.flatMap (linesOf dumps), Inline l := by
    intro l hl
    obtain ⟨w, -, hw⟩ := List.mem_flatMap.mp hl
    exact inline_linesOf dumps single w l hw
  have short : ∀ l ∈ written.flatMap (linesOf dumps), l.length ≤ maxLineChars := by
    intro l hl
    obtain ⟨w, hw, hl⟩ := List.mem_flatMap.mp hl
    refine linesOf_short dumps ?_ l hl
    rintro e rfl
    exact fits e (List.mem_filterMap.mpr ⟨.event e, hw, rfl⟩)
  have drained : drain lineCutter consume (([] : JsString) ++ chunks.flatten) {} =
      .ok ⟨[], {}, (eventsOf written).map (frameFor dumps)⟩ := by
    rw [List.nil_append, drain_eq_consumeLines, whole, lines, splitLines_terminated inline,
      consumeLines_written dumps]
    · rfl
    · intro e he
      have line := fits e he
      rw [data_line_length] at line
      exact Nat.le_trans (by omega) (Nat.le_trans line (by decide))
  refine ⟨⟨[], {}⟩, feed_of_drain (p := {}) rfl drained ?_, rfl⟩
  intro x hx
  rw [whole, lines] at hx
  exact rest_prefix_short short hx

private def exampleEvent : ServerSentEvent Unit := ⟨"sql", (), by decide⟩

private def exampleDumps : Unit → String := fun _ => "\x7b\"sql\":\"SELECT 1\\nFROM t\"\x7d"

/-- A statement over two lines, between two heartbeats. -/
theorem client_reads_two_line_statement :
    ∃ text, wireText exampleDumps [.heartbeat, .event exampleEvent, .heartbeat] = .ok text ∧
      ∀ chunks : List JsString, chunks.flatten = js text →
        ∃ p, feed {} chunks = .ok (p, [⟨js "sql", js "\x7b\"sql\":\"SELECT 1\\nFROM t\"\x7d"⟩]) ∧
          pending p = false :=
  client_reads_what_server_wrote exampleDumps (fun () => by decide)
    [.heartbeat, .event exampleEvent, .heartbeat] (by decide)

end SseWire
