import Mathlib.Data.List.TakeWhile
import TextToSqlAgent.Web.SseLines

/-!
# The parser's bounds

When a stream of chunks is refused, what was delivered before that, and how much the
parser holds between two pushes.
-/

namespace SseBounds

open Cutting Utf16 SseClient SseReference SseLines

/-- The frames a caller has got of the pushes before the one that threw, and what
became of the parser. -/
def read : SseParser → List JsString → List SseFrame × Except SseProtocolError SseParser
  | p, [] => ([], .ok p)
  | p, chunk :: chunks =>
    match push p chunk with
    | .error e => ([], .error e)
    | .ok (q, frames) => (frames ++ (read q chunks).1, (read q chunks).2)

def Refuses (chunks : List JsString) : Prop := ∃ e, (read {} chunks).2 = .error e

def delivered (chunks : List JsString) : List SseFrame := (read {} chunks).1

/-- The characters held between two pushes. -/
def retainedChars (p : SseParser) : Nat :=
  p.buffer.length + (p.event.dataLines.map List.length).sum + p.event.eventName.length

/-- The lines after the last blank one. -/
def openBlock (lines : List JsString) : List JsString := (splitBlocks [] lines).2

/-- The frames these lines complete. -/
def framesOf (lines : List JsString) : List SseFrame :=
  ((splitBlocks [] lines).1.map fieldsOf).filterMap frameOf

/-- The data of the event the last of these lines belongs to, as it is counted. -/
def dataChars (lines : List JsString) : Nat :=
  ((valuesOf .data (fieldsOf (openBlock lines))).map fun value => value.length + 1).sum

/-- The line makes its event's data too long. -/
def Overflows (before : List JsString) (line : JsString) : Prop :=
  maxEventChars < dataChars (before ++ [line])

instance (before : List JsString) (line : JsString) : Decidable (Overflows before line) :=
  inferInstanceAs (Decidable (_ < _))

/-- The lines before the first one that is too long or makes its event too long. -/
def beforeFault (before : List JsString) : List JsString → List JsString
  | [] => before
  | line :: rest =>
    if maxLineChars < line.length ∨ Overflows before line then before
    else beforeFault (before ++ [line]) rest

/-- The most that is held between two pushes: a line, an event's data, and its name,
which was a line. -/
def retainedBound : Nat := 2 * maxLineChars + maxEventChars

/-- The bounds of the parser on one text, however it is cut into chunks. -/
structure Bounds (text : JsString) : Prop where
  uniform : ∀ first second : List JsString, first.flatten = text → second.flatten = text →
    (Refuses first ↔ Refuses second)
  long : ∀ chunks : List JsString, chunks.flatten = text →
    (∃ line, (line ∈ (splitLines [] text).1 ∨ line = (splitLines [] text).2) ∧
      maxLineChars < line.length) → Refuses chunks
  delivers : ∀ chunks : List JsString, chunks.flatten = text → Refuses chunks →
    framesOf (beforeFault [] (splitLines [] text).1) <+: delivered chunks
  retains : ∀ (chunks : List JsString) (p : SseParser), chunks.flatten = text →
    (read {} chunks).2 = .ok p → retainedChars p ≤ retainedBound

/-- The lines fit even where a CR that ends them is held. Only a line that makes its
event too long, and an unfinished last line, may be longer, and no frame is complete
before these. -/
def Fair (before : List JsString) (tail : JsString) : List (JsString × Nat) → Prop
  | [] => tail.length ≤ maxLineChars ∨ framesOf before = []
  | (line, held) :: rest =>
    if Overflows before line then framesOf before = []
    else held ≤ maxLineChars ∧ Fair (before ++ [line]) tail rest

/-! ## Blocks and lines, one after another -/

theorem splitBlocks_append (cur lines more : List JsString) :
    splitBlocks cur (lines ++ more) =
      ((splitBlocks cur lines).1 ++ (splitBlocks (splitBlocks cur lines).2 more).1,
        (splitBlocks (splitBlocks cur lines).2 more).2) := by
  induction lines generalizing cur with
  | nil => rfl
  | cons line rest ih =>
    rw [List.cons_append, splitBlocks, splitBlocks]
    split
    · rw [ih []]
      rfl
    · exact ih _

theorem openBlock_append_singleton (lines : List JsString) (line : JsString) :
    openBlock (lines ++ [line]) = if line = [] then [] else openBlock lines ++ [line] := by
  rw [openBlock, splitBlocks_append, splitBlocks]
  split <;> rfl

/-! ## Which lines are consumed -/

def stateAt (before : List JsString) : EventState := stateOf (fieldsOf (openBlock before))

theorem fieldNamed_eq_data_iff {name : JsString} :
    fieldNamed name = some .data ↔ name = js "data" := by
  have distinct : js "data" ≠ js "event" := by decide
  constructor
  · intro named
    rw [fieldNamed] at named
    split at named
    · cases named
    · split at named
      · assumption
      · split at named
        · cases named
        · split at named <;> cases named
  · rintro rfl
    rw [fieldNamed, if_neg distinct, if_pos rfl]

/-- Only a data line can be refused. -/
theorem consume_error_iff {fields : List (Field × JsString)} {l : JsString} (some : l ≠ []) :
    (∃ e, consume (stateOf fields) l = .error e) ↔
      ∃ value, readField l = Option.some (.data, value) ∧
        maxEventChars < (stateOf fields).dataChars + (value.length + 1) := by
  have read : readField l = (fieldNamed (fieldName l)).map fun f => (f, fieldValue l) := by
    rw [readField, ← fieldName_eq, ← fieldValue_eq]
  rw [consume, consumeLine, if_neg some]
  by_cases comment : l.head? = Option.some COLON
  · rw [if_pos comment, readField_comment comment]
    constructor
    · rintro ⟨e, failed⟩
      cases failed
    · rintro ⟨value, same, -⟩
      cases same
  · have distinct : js "data" ≠ js "event" := by decide
    rw [if_neg comment, read, applyField]
    by_cases data : fieldName l = js "data"
    · rw [data, if_neg distinct, if_pos rfl, fieldNamed_eq_data_iff.mpr rfl]
      by_cases long : (stateOf fields).dataChars + ((fieldValue l).length + 1) > maxEventChars
      · simp only [if_pos long]
        exact ⟨fun _ => ⟨fieldValue l, rfl, long⟩, fun _ => ⟨_, rfl⟩⟩
      · simp only [if_neg long]
        constructor
        · rintro ⟨e, failed⟩
          cases failed
        · rintro ⟨value, same, too⟩
          cases same
          exact absurd too long
    · constructor
      · rintro ⟨e, failed⟩
        rw [if_neg data] at failed
        split at failed
        · cases failed
        · split at failed <;> cases failed
      · rintro ⟨value, same, -⟩
        obtain ⟨field, named, equal⟩ := Option.map_eq_some_iff.mp same
        cases equal
        exact absurd (fieldNamed_eq_data_iff.mp named) data

theorem dataChars_append_singleton {before : List JsString} {line : JsString} (some : line ≠ []) :
    dataChars (before ++ [line]) = dataChars before + match readField line with
      | Option.some (.data, value) => value.length + 1
      | _ => 0 := by
  rw [dataChars, dataChars, openBlock_append_singleton, if_neg some, fieldsOf, fieldsOf,
    List.filterMap_append]
  cases found : readField line with
  | none => simp [found]
  | some field =>
    obtain ⟨f, value⟩ := field
    cases f <;> simp [found, valuesOf_snoc]

theorem consume_isOk_iff {before : List JsString} {line : JsString}
    (fits : dataChars before ≤ maxEventChars) :
    (∃ r, consume (stateAt before) line = .ok r) ↔ ¬Overflows before line := by
  by_cases blank : line = []
  · subst blank
    have nothing : dataChars (before ++ [[]]) = 0 := by
      rw [dataChars, openBlock_append_singleton, if_pos rfl]
      rfl
    rw [Overflows, nothing, stateAt, consume_blank]
    exact ⟨fun _ => Nat.not_lt_zero _, fun _ => ⟨_, rfl⟩⟩
  · have refused := @consume_error_iff (fieldsOf (openBlock before)) line blank
    have count : (stateOf (fieldsOf (openBlock before))).dataChars = dataChars before := rfl
    rw [count] at refused
    rw [Overflows, dataChars_append_singleton blank, stateAt]
    cases made : consume (stateOf (fieldsOf (openBlock before))) line with
    | error e =>
      obtain ⟨value, found, long⟩ := refused.mp ⟨e, made⟩
      rw [found]
      exact ⟨nofun, fun short => absurd long short⟩
    | ok r =>
      refine ⟨fun _ long => ?_, fun _ => ⟨r, rfl⟩⟩
      have not : ¬∃ value, readField line = some (.data, value) ∧
          maxEventChars < dataChars before + (value.length + 1) := by
        rw [← refused, made]
        exact nofun
      split at long
      · rename_i value found
        exact not ⟨value, found, long⟩
      · exact absurd fits (Nat.not_le_of_gt long)

/-- No line makes its event too long. -/
def Flows (before : List JsString) : List JsString → Prop
  | [] => True
  | line :: rest => ¬Overflows before line ∧ Flows (before ++ [line]) rest

theorem consume_stateAt {before : List JsString} {line : JsString} {t : EventState}
    {frames : List SseFrame} (consumed : consume (stateAt before) line = .ok (t, frames)) :
    t = stateAt (before ++ [line]) := by
  rw [stateAt, openBlock_append_singleton]
  by_cases blank : line = []
  · subst blank
    rw [stateAt, consume_blank] at consumed
    cases consumed
    rfl
  · rw [if_neg blank, (consume_line blank consumed).1, fieldsOf, fieldsOf, List.filterMap_append]
    cases found : readField line with
    | none => simp [found]
    | some field => simp [found]

theorem consumeLines_isOk_iff {before lines : List JsString}
    (fits : dataChars before ≤ maxEventChars) :
    (∃ r, consumeLines (stateAt before) lines = .ok r) ↔ Flows before lines := by
  induction lines generalizing before with
  | nil => exact ⟨fun _ => trivial, fun _ => ⟨_, rfl⟩⟩
  | cons line rest ih =>
    rw [consumeLines, Flows, ← consume_isOk_iff fits]
    cases made : consume (stateAt before) line with
    | error e =>
      constructor
      · rintro ⟨r, none⟩
        cases none
      · rintro ⟨⟨r, none⟩, -⟩
        cases none
    | ok next =>
      obtain ⟨t, frames⟩ := next
      obtain rfl := consume_stateAt made
      have short := (consume_isOk_iff fits).mp ⟨_, made⟩
      rw [← ih (Nat.le_of_not_lt short)]
      constructor
      · rintro ⟨r, all⟩
        refine ⟨⟨_, rfl⟩, ?_⟩
        cases later : consumeLines (stateAt (before ++ [line])) rest with
        | error e => simp only [later] at all; cases all
        | ok r => exact ⟨r, rfl⟩
      · rintro ⟨-, r, later⟩
        simp only [later]
        exact ⟨_, rfl⟩

theorem drains_iff {text : JsString} :
    (∃ d, drain lineCutter consume text {} = .ok d) ↔ Flows [] (splitLines [] text).1 := by
  rw [← consumeLines_isOk_iff (Nat.zero_le _), drain_eq_consumeLines]
  change _ ↔ ∃ r, consumeLines {} (splitLines [] text).1 = .ok r
  cases consumeLines {} (splitLines [] text).1 with
  | error e =>
    constructor
    · rintro ⟨d, failed⟩
      cases failed
    · rintro ⟨r, failed⟩
      cases failed
  | ok r => exact ⟨fun _ => ⟨r, rfl⟩, fun _ => ⟨_, rfl⟩⟩

/-! ## Streams of chunks -/

theorem feed_eq_read (p : SseParser) (chunks : List JsString) :
    feed p chunks = (read p chunks).2.map fun q => (q, (read p chunks).1) := by
  induction chunks generalizing p with
  | nil => rfl
  | cons chunk chunks ih =>
    rw [feed, read]
    cases push p chunk with
    | error e => rfl
    | ok next =>
      obtain ⟨q, frames⟩ := next
      simp only [ih q]
      cases (read q chunks).2 with
      | error e => rfl
      | ok last => rfl

/-- A stream is not refused when it can be fed. -/
theorem not_refuses_iff {chunks : List JsString} :
    ¬Refuses chunks ↔ ∃ r, feed {} chunks = .ok r := by
  rw [Refuses, feed_eq_read]
  cases (read {} chunks).2 with
  | error e =>
    constructor
    · intro accepted
      exact absurd ⟨e, rfl⟩ accepted
    · rintro ⟨r, failed⟩
      cases failed
  | ok p =>
    refine ⟨fun _ => ⟨_, rfl⟩, ?_⟩
    rintro - ⟨e, failed⟩
    cases failed

theorem fits_of_feed {p q : SseParser} {chunks : List JsString} {frames : List SseFrame}
    (start : p.buffer.length ≤ maxLineChars) (fed : feed p chunks = .ok (q, frames)) :
    q.buffer.length ≤ maxLineChars := by
  induction chunks generalizing p q frames with
  | nil =>
    cases fed
    exact start
  | cons chunk chunks ih =>
    rw [feed] at fed
    cases pushed : push p chunk with
    | error e => rw [pushed] at fed; cases fed
    | ok next =>
      obtain ⟨mid, first⟩ := next
      rw [pushed] at fed
      cases tail : feed mid chunks with
      | error e => simp only [tail] at fed; cases fed
      | ok last =>
        simp only [tail] at fed
        cases fed
        exact ih ((push_ok_iff p chunk mid first).mp pushed).2 tail

/-- What cannot be drained is refused in any chunks. -/
theorem refuses_of_overflow {chunks : List JsString}
    (overflow : ¬Flows [] (splitLines [] chunks.flatten).1) : Refuses chunks := by
  by_contra accepted
  obtain ⟨⟨p, frames⟩, fed⟩ := not_refuses_iff.mp accepted
  have drained := feed_ok_drains (p := {}) rfl fed
  exact overflow (drains_iff.mp ⟨_, drained⟩)

/-- A text whose unfinished line is too long is refused in any chunks. -/
theorem refuses_of_tail {chunks : List JsString}
    (long : maxLineChars < (splitLines [] chunks.flatten).2.length) : Refuses chunks := by
  by_contra accepted
  obtain ⟨⟨p, frames⟩, fed⟩ := not_refuses_iff.mp accepted
  have drained := feed_ok_drains (p := {}) rfl fed
  have held := fits_of_feed (p := {}) (Nat.zero_le _) fed
  have left : p.buffer = rest lineCutter chunks.flatten := drain_rest drained
  rw [left, rest_eq] at held
  exact absurd held (Nat.not_le_of_gt long)

/-- A refused stream stays refused when more chunks follow. -/
theorem refuses_append {chunks more : List JsString} (refused : Refuses chunks) :
    Refuses (chunks ++ more) := by
  suffices from_ : ∀ p : SseParser, (∃ e, (read p chunks).2 = .error e) →
      ∃ e, (read p (chunks ++ more)).2 = .error e by
    exact from_ {} refused
  clear refused
  induction chunks with
  | nil =>
    rintro p ⟨e, none⟩
    cases none
  | cons chunk chunks ih =>
    rintro p ⟨e, failed⟩
    rw [List.cons_append, read]
    rw [read] at failed
    cases pushed : push p chunk with
    | error e' => exact ⟨e', rfl⟩
    | ok next =>
      simp only [pushed] at failed
      exact ih next.1 ⟨e, failed⟩

/-- A text without a line that overflows, and with only short lines, is read in any
chunks. -/
theorem accepts_of_fits {chunks : List JsString}
    (flows : Flows [] (splitLines [] chunks.flatten).1)
    (fits : ∀ x, x <+: chunks.flatten → (splitLines [] x).2.length ≤ maxLineChars) :
    ¬Refuses chunks := by
  obtain ⟨d, drained⟩ := drains_iff.mpr flows
  refine not_refuses_iff.mpr ⟨_, feed_of_drain (p := {}) rfl drained ?_⟩
  intro x part
  rw [List.nil_append, rest_eq]
  exact fits x part

/-- In one chunk only the end of the text is measured. -/
theorem accepts_single {text : JsString} (flows : Flows [] (splitLines [] text).1)
    (short : (splitLines [] text).2.length ≤ maxLineChars) : ¬Refuses [text] := by
  obtain ⟨d, drained⟩ := drains_iff.mpr flows
  have pushed : push {} text = .ok (⟨d.rest, d.state⟩, d.output) := by
    refine (push_ok_iff {} text _ _).mpr ⟨drained, ?_⟩
    rw [drain_rest drained, rest_eq]
    exact short
  refine not_refuses_iff.mpr ⟨(⟨d.rest, d.state⟩, d.output ++ []), ?_⟩
  rw [feed, pushed]
  rfl

theorem delivered_of_single {text : JsString} (refused : Refuses [text]) :
    delivered [text] = [] := by
  obtain ⟨e, failed⟩ := refused
  rw [delivered, read]
  rw [read] at failed
  cases pushed : push {} text with
  | error e => rfl
  | ok next => simp only [pushed] at failed; cases failed

/-! ## What is held -/

theorem dataChars_le_of_flows {before lines : List JsString}
    (fits : dataChars before ≤ maxEventChars) (flows : Flows before lines) :
    dataChars (before ++ lines) ≤ maxEventChars := by
  induction lines generalizing before with
  | nil => rwa [List.append_nil]
  | cons line rest ih =>
    have next := ih (Nat.le_of_not_lt flows.1) flows.2
    rwa [List.append_assoc, List.singleton_append] at next

theorem mem_splitBlocks_snd {cur lines : List JsString} {line : JsString}
    (listed : line ∈ (splitBlocks cur lines).2) : line ∈ cur ∨ line ∈ lines := by
  induction lines generalizing cur with
  | nil => exact Or.inl listed
  | cons other rest ih =>
    rw [splitBlocks] at listed
    split at listed
    · rcases ih listed with none | later
      · cases none
      · exact Or.inr (List.mem_cons_of_mem _ later)
    · rcases ih listed with here | later
      · rcases List.mem_append.mp here with here | same
        · exact Or.inl here
        · exact Or.inr (List.mem_cons.mpr (.inl (List.mem_singleton.mp same)))
      · exact Or.inr (List.mem_cons_of_mem _ later)

theorem length_stripSpace_le (value : JsString) : (stripSpace value).length ≤ value.length := by
  cases value with
  | nil => exact Nat.le_refl _
  | cons ch rest =>
    rw [stripSpace]
    split
    · exact Nat.le_succ _
    · exact Nat.le_refl _

theorem length_value_le {line value : JsString} {field : Field}
    (found : readField line = some (field, value)) : value.length ≤ line.length := by
  obtain ⟨f, -, same⟩ := Option.map_eq_some_iff.mp found
  obtain ⟨-, rfl⟩ := Prod.mk.inj same
  refine Nat.le_trans (length_stripSpace_le _) ?_
  rw [List.length_drop]
  exact Nat.le_trans (Nat.sub_le _ _) (List.dropWhile_suffix _).length_le

theorem length_lastEvent_le {lines : List JsString}
    (short : ∀ line ∈ lines, line.length ≤ maxLineChars) :
    (lastEvent (fieldsOf (openBlock lines))).length ≤ maxLineChars := by
  rw [lastEvent]
  cases last : (valuesOf .event (fieldsOf (openBlock lines))).getLast? with
  | none => exact Nat.zero_le _
  | some value =>
    obtain ⟨⟨field, value'⟩, kept, rfl⟩ := List.mem_map.mp (List.mem_of_getLast? last)
    obtain ⟨line, listed, found⟩ := List.mem_filterMap.mp (List.mem_filter.mp kept).1
    refine Nat.le_trans (length_value_le found) (short line ?_)
    rcases mem_splitBlocks_snd listed with none | listed
    · cases none
    · exact listed

theorem sum_lengths_le (values : List JsString) :
    (values.map List.length).sum ≤ (values.map fun value => value.length + 1).sum := by
  induction values with
  | nil => exact Nat.le_refl _
  | cons value rest ih =>
    rw [List.map_cons, List.map_cons, List.sum_cons, List.sum_cons]
    omega

/-- What is held of a text whose complete lines are short. -/
theorem retainedChars_le {chunks : List JsString} {p : SseParser}
    (short : ∀ line ∈ (splitLines [] chunks.flatten).1, line.length ≤ maxLineChars)
    (accepted : (read {} chunks).2 = .ok p) : retainedChars p ≤ retainedBound := by
  have fed : feed {} chunks = .ok (p, (read {} chunks).1) := by
    rw [feed_eq_read, accepted]
    rfl
  have drained := feed_ok_drains (p := {}) rfl fed
  have flows : Flows [] (splitLines [] chunks.flatten).1 := drains_iff.mp ⟨_, drained⟩
  have buffer := fits_of_feed (p := {}) (Nat.zero_le _) fed
  have data : dataChars ([] ++ (splitLines [] chunks.flatten).1) ≤ maxEventChars :=
    dataChars_le_of_flows (Nat.zero_le _) flows
  have name := length_lastEvent_le short
  rw [List.nil_append, drain_eq_consumeLines] at drained
  cases consumed : consumeLines {} (splitLines [] chunks.flatten).1 with
  | error e => rw [consumed] at drained; cases drained
  | ok r =>
    rw [consumed] at drained
    have event : p.event = stateAt (splitLines [] chunks.flatten).1 := by
      have same := congrArg Drained.state (Except.ok.inj drained)
      exact same.symm.trans (consumeLines_blocks [] consumed).1
    have lines := sum_lengths_le (valuesOf .data (fieldsOf (openBlock
      (splitLines [] chunks.flatten).1)))
    rw [List.nil_append, dataChars] at data
    rw [retainedChars, retainedBound, event, stateAt, stateOf]
    dsimp only
    omega

/-! ## Texts that are fair -/

theorem beforeFault_of_fault {before rest : List JsString} {line : JsString}
    (fault : maxLineChars < line.length ∨ Overflows before line) :
    beforeFault before (line :: rest) = before := by
  rw [beforeFault, if_pos fault]

/-- A beginning of a fair text is read, or it is refused before any frame. -/
theorem Fair.read_or_refused {before : List JsString} {lines : List (JsString × Nat)}
    {tail x : JsString} {m : Nat} (fair : Fair before tail lines)
    (short : ∀ entry ∈ lines, entry.1.length ≤ entry.2) (bound : m ≤ lines.length)
    (next : ∀ entry, lines[m]? = some entry → x.length ≤ entry.2)
    (last : m = lines.length → x.length ≤ tail.length) :
    (Flows before ((lines.take m).map Prod.fst) ∧
        (∀ entry ∈ lines.take m, entry.2 ≤ maxLineChars) ∧ x.length ≤ maxLineChars) ∨
      ((¬Flows before ((lines.take m).map Prod.fst) ∨ maxLineChars < x.length) ∧
        framesOf (beforeFault before ((lines.take m).map Prod.fst)) = []) := by
  induction lines generalizing before m with
  | nil =>
    rw [List.take_nil]
    have within := last (Nat.le_zero.mp bound)
    by_cases long : maxLineChars < x.length
    · refine Or.inr ⟨Or.inr long, ?_⟩
      rcases fair with fits | nothing
      · omega
      · exact nothing
    · exact Or.inl ⟨trivial, nofun, Nat.le_of_not_lt long⟩
  | cons entry rest ih =>
    obtain ⟨line, held⟩ := entry
    rw [Fair] at fair
    cases m with
    | zero =>
      have within := next (line, held) rfl
      rw [List.take_zero]
      by_cases long : maxLineChars < x.length
      · refine Or.inr ⟨Or.inr long, ?_⟩
        split at fair
        · exact fair
        · have := fair.1
          simp only at within
          omega
      · exact Or.inl ⟨trivial, nofun, Nat.le_of_not_lt long⟩
    | succ m =>
      rw [List.take_succ_cons, List.map_cons]
      split at fair
      · rename_i overflow
        refine Or.inr ⟨Or.inl fun flows => flows.1 overflow, ?_⟩
        rw [beforeFault_of_fault (.inr overflow)]
        exact fair
      · rename_i flows
        have fits : line.length ≤ maxLineChars :=
          Nat.le_trans (short (line, held) List.mem_cons_self) fair.1
        have sound : ¬(maxLineChars < line.length ∨ Overflows before line) := by
          rintro (long | overflow)
          · exact absurd fits (Nat.not_le_of_gt long)
          · exact flows overflow
        rw [beforeFault, if_neg sound]
        rcases ih fair.2 (fun e listed => short e (List.mem_cons_of_mem _ listed))
          (Nat.le_of_succ_le_succ bound) next (fun same => last (congrArg Nat.succ same)) with
          ⟨all, small, within⟩ | ⟨refused, nothing⟩
        · refine Or.inl ⟨⟨flows, all⟩, ?_, within⟩
          intro e listed
          rcases List.mem_cons.mp listed with rfl | listed
          · exact fair.1
          · exact small e listed
        · refine Or.inr ⟨refused.imp (fun stops all => stops all.2) id, nothing⟩

theorem fits_of_held {text : JsString} (held : ∀ entry ∈ heldLines [] text, entry.2 ≤ maxLineChars)
    (tail : (splitLines [] text).2.length ≤ maxLineChars) {x : JsString} (part : x <+: text) :
    (splitLines [] x).2.length ≤ maxLineChars := by
  obtain ⟨m, bound, -, next, last⟩ := prefix_lines part
  rcases Nat.lt_or_eq_of_le bound with inside | same
  · have found := List.getElem?_eq_getElem inside
    exact Nat.le_trans (next _ found) (held _ (List.getElem_mem inside))
  · exact Nat.le_trans (last same) tail

/-- On every beginning of a fair text the bounds hold. -/
theorem bounds_of_fair {text x : JsString}
    (fair : Fair [] (splitLines [] text).2 (heldLines [] text)) (part : x <+: text) :
    Bounds x := by
  obtain ⟨m, bound, taken, next, last⟩ := prefix_lines part
  have lines : (splitLines [] x).1 = ((heldLines [] text).take m).map Prod.fst := by
    rw [← map_fst_heldLines, taken]
  rcases fair.read_or_refused (fun _ listed => length_le_of_mem_heldLines listed) bound next last
    with ⟨flows, small, within⟩ | ⟨refused, nothing⟩
  · rw [← lines] at flows
    rw [← taken] at small
    have accepts : ∀ chunks : List JsString, chunks.flatten = x → ¬Refuses chunks := by
      rintro chunks rfl
      exact accepts_of_fits flows fun y inside => fits_of_held small within inside
    have short : ∀ line ∈ (splitLines [] x).1, line.length ≤ maxLineChars := by
      intro line listed
      rw [← map_fst_heldLines] at listed
      obtain ⟨entry, member, rfl⟩ := List.mem_map.mp listed
      exact Nat.le_trans (length_le_of_mem_heldLines member) (small entry member)
    constructor
    · intro first second one two
      exact iff_of_false (accepts first one) (accepts second two)
    · rintro chunks - ⟨line, listed | rfl, long⟩
      · exact absurd (short line listed) (Nat.not_le_of_gt long)
      · exact absurd within (Nat.not_le_of_gt long)
    · intro chunks whole refused
      exact absurd refused (accepts chunks whole)
    · rintro chunks p rfl accepted
      exact retainedChars_le short accepted
  · rw [← lines] at refused nothing
    have refuses : ∀ chunks : List JsString, chunks.flatten = x → Refuses chunks := by
      rintro chunks rfl
      rcases refused with overflow | long
      · exact refuses_of_overflow overflow
      · exact refuses_of_tail long
    constructor
    · intro first second one two
      exact iff_of_true (refuses first one) (refuses second two)
    · intro chunks whole _
      exact refuses chunks whole
    · intro chunks _ _
      rw [nothing]
      exact List.nil_prefix
    · intro chunks p whole accepted
      obtain ⟨e, failed⟩ := refuses chunks whole
      rw [accepted] at failed
      cases failed

/-! ## Texts that are not -/

theorem flows_append {before done rest : List JsString} :
    Flows before (done ++ rest) ↔ Flows before done ∧ Flows (before ++ done) rest := by
  induction done generalizing before with
  | nil => simp [Flows]
  | cons line done ih =>
    rw [List.cons_append, Flows, Flows, ih, and_assoc, List.append_assoc, List.singleton_append]

/-- No line is too long or makes its event too long. -/
def Sound (before lines : List JsString) : Prop :=
  Flows before lines ∧ ∀ line ∈ lines, line.length ≤ maxLineChars

theorem beforeFault_append {before done rest : List JsString} (sound : Sound before done) :
    beforeFault before (done ++ rest) = beforeFault (before ++ done) rest := by
  induction done generalizing before with
  | nil => rw [List.nil_append, List.append_nil]
  | cons line done ih =>
    obtain ⟨flows, short⟩ := sound
    have none : ¬(maxLineChars < line.length ∨ Overflows before line) := by
      rintro (long | overflow)
      · exact absurd (short line List.mem_cons_self) (Nat.not_le_of_gt long)
      · exact flows.1 overflow
    rw [List.cons_append, beforeFault, if_neg none,
      ih ⟨flows.2, fun other listed => short other (List.mem_cons_of_mem _ listed)⟩,
      List.append_assoc, List.singleton_append]

theorem delivered_nothing {text : JsString} (bounds : Bounds text) (refused : Refuses [text]) :
    framesOf (beforeFault [] (splitLines [] text).1) = [] := by
  have got := bounds.delivers [text] (by simp) refused
  rw [delivered_of_single refused] at got
  exact List.prefix_nil.mp got

/-- A line that may be held beyond the bound is refused in one chunking and read in
another. -/
theorem held_le_of_bounds {text : JsString} (bounds : ∀ x, x <+: text → Bounds x)
    {done rest : List (JsString × Nat)} {entry : JsString × Nat}
    (lines : heldLines [] text = done ++ entry :: rest)
    (flows : Flows [] ((done ++ [entry]).map Prod.fst)) : entry.2 ≤ maxLineChars := by
  have found : (heldLines [] text)[done.length]? = some entry := by
    rw [lines]
    simp
  obtain ⟨y, ch, part, taken, short, held⟩ := held_before_cut found
  have first : (heldLines [] text).take (done.length + 1) = done ++ [entry] := by
    rw [lines, List.append_cons, ← List.length_singleton (a := entry), ← List.length_append,
      List.take_left]
  by_contra long
  have unsplit : ¬Refuses [y ++ [ch]] := by
    have own : (splitLines [] (y ++ [ch])).1 = (done ++ [entry]).map Prod.fst := by
      rw [← map_fst_heldLines, taken, first]
    refine accepts_single (own ▸ flows) (Nat.le_trans short ?_)
    decide
  have split : Refuses [y, [ch]] := by
    refine @refuses_append [y] [[ch]] (refuses_of_tail ?_)
    rw [List.flatten_singleton]
    omega
  have same := (bounds (y ++ [ch]) part).uniform [y, [ch]] [y ++ [ch]] (by simp) (by simp)
  exact unsplit (same.mp split)

/-- The lines that are left are fair, those done being sound. -/
theorem fair_of_bounds {text : JsString} (bounds : ∀ x, x <+: text → Bounds x)
    {todo done : List (JsString × Nat)} (lines : heldLines [] text = done ++ todo)
    (sound : Sound [] (done.map Prod.fst)) :
    Fair (done.map Prod.fst) (splitLines [] text).2 todo := by
  have whole := bounds text (List.prefix_refl text)
  have split : (splitLines [] text).1 = done.map Prod.fst ++ todo.map Prod.fst := by
    rw [← map_fst_heldLines, lines, List.map_append]
  induction todo generalizing done with
  | nil =>
    by_cases long : maxLineChars < (splitLines [] text).2.length
    · have refused : Refuses [text] := refuses_of_tail (by rwa [List.flatten_singleton])
      have nothing := delivered_nothing whole refused
      rw [split, beforeFault_append sound] at nothing
      exact Or.inr nothing
    · exact Or.inl (Nat.le_of_not_lt long)
  | cons entry rest ih =>
    obtain ⟨line, held⟩ := entry
    rw [Fair]
    split
    · rename_i overflow
      have refused : Refuses [text] := by
        refine refuses_of_overflow fun flows => ?_
        rw [List.flatten_singleton, split, flows_append] at flows
        exact flows.2.1 overflow
      have nothing := delivered_nothing whole refused
      rw [split, beforeFault_append sound] at nothing
      exact (congrArg framesOf (beforeFault_of_fault (.inr overflow))).symm.trans nothing
    · rename_i flows
      have further : Flows [] ((done ++ [(line, held)]).map Prod.fst) := by
        rw [List.map_append, flows_append]
        exact ⟨sound.1, flows, trivial⟩
      have fits := held_le_of_bounds bounds lines further
      have member : (line, held) ∈ heldLines [] text := by
        rw [lines]
        simp
      have short := length_le_of_mem_heldLines member
      refine ⟨fits, ?_⟩
      have next := @ih (done ++ [(line, held)]) (by rw [lines]; simp) ⟨further, ?_⟩
        (by rw [split]; simp)
      · rwa [List.map_append] at next
      · intro other listed
        rw [List.map_append] at listed
        rcases List.mem_append.mp listed with listed | same
        · exact sound.2 other listed
        · rw [List.mem_singleton.mp same]
          exact Nat.le_trans short fits

/-- The bounds hold on every beginning of a text exactly when the text is fair. -/
theorem bounds_iff_fair (text : JsString) :
    (∀ x, x <+: text → Bounds x) ↔ Fair [] (splitLines [] text).2 (heldLines [] text) := by
  constructor
  · intro bounds
    exact @fair_of_bounds text bounds (heldLines [] text) [] rfl ⟨trivial, nofun⟩
  · intro fair x part
    exact bounds_of_fair fair part

/-- A complete line that is no field is read in one chunk, however long it is. -/
theorem accepts_line {x : JsString} (plain : Plain x) (some : x ≠ [])
    (noField : readField x = none) : ¬Refuses [x ++ [LF]] := by
  have split : splitLines [] (x ++ [LF]) = ([x], []) := splitLines_line plain (.lf [])
  have count : dataChars ([] ++ [x]) = 0 := by
    rw [dataChars_append_singleton some, noField]
    rfl
  refine accepts_single ?_ ?_
  · rw [split]
    refine ⟨?_, trivial⟩
    rw [Overflows, count]
    exact Nat.not_lt_zero _
  · rw [split]
    exact Nat.zero_le _

/-- Cut off from its break, a line beyond the bound is refused. -/
theorem refuses_line {x : JsString} (plain : Plain x) (long : maxLineChars < x.length) :
    Refuses [x, [LF]] := by
  refine @refuses_append [x] [[LF]] (refuses_of_tail ?_)
  rw [List.flatten_singleton, splitLines_uncut (.inl plain)]
  exact long

/-- One character more than a line may have, without its break. -/
def longLine : JsString := List.replicate (maxLineChars + 1) 120

theorem length_longLine : longLine.length = maxLineChars + 1 := List.length_replicate

theorem plain_longLine : Plain longLine := by
  intro ch listed
  rw [List.eq_of_mem_replicate listed]
  decide

theorem readField_longLine : readField longLine = none := by
  have whole : longLine.takeWhile (· ≠ COLON) = longLine := by
    rw [List.takeWhile_eq_self_iff]
    intro ch listed
    rw [List.eq_of_mem_replicate listed]
    decide
  have unnamed : ∀ name : JsString, name.length ≤ maxLineChars → longLine ≠ name := by
    rintro name short rfl
    rw [length_longLine] at short
    omega
  rw [readField, whole, fieldNamed, if_neg (unnamed _ (by decide)), if_neg (unnamed _ (by decide)),
    if_neg (unnamed _ (by decide)), if_neg (unnamed _ (by decide))]
  rfl

/-- With its break in the same chunk the line is read, with its break in the next one
it is refused. -/
theorem long_line_accepted :
    ¬Refuses [longLine ++ [LF]] ∧ Refuses [longLine, [LF]] ∧ ¬Bounds (longLine ++ [LF]) := by
  have some : longLine ≠ [] := by
    refine List.ne_nil_of_length_pos ?_
    rw [length_longLine]
    exact Nat.succ_pos _
  have accepted := accepts_line plain_longLine some readField_longLine
  have refused : Refuses [longLine, [LF]] := by
    refine refuses_line plain_longLine ?_
    rw [length_longLine]
    exact Nat.lt_succ_self _
  refine ⟨accepted, refused, ?_⟩
  intro bounds
  exact accepted ((bounds.uniform _ _ (by simp) (by simp)).mp refused)

end SseBounds
