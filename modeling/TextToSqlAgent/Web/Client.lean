import TextToSqlAgent.Web.SseClient
import TextToSqlAgent.Web.Reducer

/-!
# The transport

`ask` of the web client, as the list of the events it yields for one response of
the API: what `fetch` comes to, the chunks of the body and how the body ends.
Events come from the frames of the body and from the failures that the client
itself reports.
-/

namespace Client

open Utf16 SseClient Events Reducer

/-- What is used of the browser: `JSON`, and the text that a streaming decoder
gives for a chunk after the chunks before it. -/
structure Web where
  parse : JsString → Option JsValue
  stringify : JsValue → JsString
  decode : List (List UInt8) → List UInt8 → JsString

/-- A read of the body ends it, or throws, where an abort is told apart. -/
inductive BodyEnd
  | closed
  | failed (abort : Bool)
  deriving DecidableEq, Repr

structure Body where
  chunks : List (List UInt8)
  ending : BodyEnd

/-- A response; `json` is its body as JSON, where that can be read. -/
structure Response where
  ok : Bool
  status : Nat
  json : Option JsValue
  body : Option Body

inductive Fetched
  | failed (abort : Bool)
  | answered (response : Response)

variable (web : Web)

def clientError (code message : String) : QueryEvent := .error (js code) (js message) []

/-- Read an error envelope, falling back to the status. -/
def envelopeOf (response : Response) : QueryEvent :=
  let fallback := clientError "http_error" s!"the API answered {response.status}"
  match response.json with
  | some (.object members) =>
    if members.any fun member => member.1 == js "error" then
      (parseEvent web.parse (js "error") (web.stringify (.object members))).getD fallback
    else fallback
  | _ => fallback

/-- The events of the frames that are events. -/
def eventsOf (frames : List SseFrame) : List QueryEvent :=
  frames.filterMap fun frame => parseEvent web.parse frame.event frame.data

/-- What is yielded when no more chunks come. -/
def lastEvents (parser : SseParser) : BodyEnd → List QueryEvent
  | .closed =>
    if pending parser then
      [clientError "stream_truncated" "the connection closed before the answer finished"]
    else []
  | .failed abort =>
    if abort then []
    else [clientError "network_error" "the connection dropped while the answer was arriving"]

/-- The loop over the chunks, after some chunks. -/
def readLoop (ending : BodyEnd) : List (List UInt8) → SseParser → List (List UInt8) →
    List QueryEvent
  | _, parser, [] => lastEvents parser ending
  | before, parser, chunk :: rest =>
    match push parser (web.decode before chunk) with
    | .error e => [clientError "protocol_error" e.message]
    | .ok (parser, frames) =>
      eventsOf web frames ++ readLoop ending (before ++ [chunk]) parser rest

/-- The events that `ask` yields. -/
def ask : Fetched → List QueryEvent
  | .failed abort =>
    if abort then [] else [clientError "network_error" "could not reach the API. Is it running?"]
  | .answered response =>
    if !response.ok then [envelopeOf web response]
    else
      match response.body with
      | none => [clientError "internal_error" "the response had no body to read"]
      | some body => readLoop web body.ending [] {} body.chunks

/-! ## Settling -/

/-- Events as they are dispatched, each at its time. -/
def dispatchAll (s : State) (timed : List (QueryEvent × Rat)) : State :=
  timed.foldl (fun s e => reduce s (.event e.1 e.2)) s

/-- From any asking state these events lead to an answer or a failure, and to
the state that the first terminal one of them sets. -/
def Settles (events : List QueryEvent) : Prop :=
  ∀ (s : State) (timed : List (QueryEvent × Rat)), s.phase = .asking →
    timed.map Prod.fst = events →
      ((dispatchAll s timed).phase = .answered ∨ (dispatchAll s timed).phase = .failed) ∧
      ∃ before terminal after, timed = before ++ terminal :: after ∧
        (∀ e ∈ before, e.1.isTerminal = false) ∧ terminal.1.isTerminal = true ∧
        dispatchAll s timed = reduce (dispatchAll s before) (.event terminal.1 terminal.2)

theorem dispatchAll_settled {s : State} (settled : s.phase ≠ .asking)
    (timed : List (QueryEvent × Rat)) : dispatchAll s timed = s := by
  induction timed with
  | nil => rfl
  | cons e rest ih =>
    have kept : reduce s (.event e.1 e.2) = s := applyEvent_of_settled settled _ _
    rw [dispatchAll, List.foldl_cons, kept]
    exact ih

theorem dispatchAll_asking {s : State} (asking : s.phase = .asking)
    {timed : List (QueryEvent × Rat)} (open_ : ∀ e ∈ timed, e.1.isTerminal = false) :
    (dispatchAll s timed).phase = .asking := by
  induction timed generalizing s with
  | nil => exact asking
  | cons e rest ih =>
    rcases phase_applyEvent asking e.1 e.2 with ⟨-, still⟩ | ⟨terminal, -⟩
    · exact ih still fun f hf => open_ f (List.mem_cons_of_mem _ hf)
    · exact absurd ((open_ e List.mem_cons_self).symm.trans terminal) (by decide)

theorem settles_iff_terminal {events : List QueryEvent} :
    Settles events ↔ ∃ e ∈ events, e.isTerminal = true := by
  constructor
  · intro settles
    let asking : State := reduce initialState (.ask [])
    obtain ⟨-, before, terminal, after, split, -, last, -⟩ :=
      settles asking (events.map fun e => (e, 0)) rfl (by simp [Function.comp_def])
    have listed : terminal ∈ events.map fun e => (e, (0 : Rat)) := by
      rw [split]
      exact List.mem_append_right _ List.mem_cons_self
    obtain ⟨e, he, rfl⟩ := List.mem_map.mp listed
    exact ⟨e, he, last⟩
  · rintro ⟨e, he, ends⟩ s timed asking rfl
    obtain ⟨first, hfirst, rfl⟩ := List.mem_map.mp he
    obtain ⟨terminal, found⟩ := Option.isSome_iff_exists.mp
      (List.find?_isSome (p := fun e => e.1.isTerminal).mpr ⟨first, hfirst, ends⟩)
    obtain ⟨last, before, after, split, open_⟩ := List.find?_eq_some_iff_append.mp found
    have nonterminal : ∀ e ∈ before, e.1.isTerminal = false := by
      intro e he
      simpa using open_ e he
    have stillAsking := dispatchAll_asking asking nonterminal
    have phase : (reduce (dispatchAll s before) (.event terminal.1 terminal.2)).phase = .answered ∨
        (reduce (dispatchAll s before) (.event terminal.1 terminal.2)).phase = .failed := by
      rcases phase_applyEvent stillAsking terminal.1 terminal.2 with ⟨open_, -⟩ | ⟨-, phase⟩
      · exact absurd (open_.symm.trans last) (by decide)
      · exact phase
    have settledBy : dispatchAll s timed =
        reduce (dispatchAll s before) (.event terminal.1 terminal.2) := by
      have settled : (reduce (dispatchAll s before) (.event terminal.1 terminal.2)).phase ≠
          .asking := by
        rcases phase with phase | phase
        · rw [phase]
          decide
        · rw [phase]
          decide
      rw [split, dispatchAll, List.foldl_append, List.foldl_cons]
      exact dispatchAll_settled settled after
    rw [settledBy]
    exact ⟨phase, before, terminal, after, split, nonterminal, last, rfl⟩

/-! ## The ends of a response -/

/-- The texts of the chunks. -/
def texts (before : List (List UInt8)) : List (List UInt8) → List JsString
  | [] => []
  | chunk :: rest => web.decode before chunk :: texts (before ++ [chunk]) rest

/-- What the loop yields, by what the parser makes of the whole body. -/
theorem readLoop_of_feed (ending : BodyEnd) (before : List (List UInt8)) (parser : SseParser)
    (chunks : List (List UInt8)) :
    match feed parser (texts web before chunks) with
    | .ok (last, frames) =>
      readLoop web ending before parser chunks = eventsOf web frames ++ lastEvents last ending
    | .error e => ∃ events, readLoop web ending before parser chunks =
        events ++ [clientError "protocol_error" e.message] := by
  induction chunks generalizing before parser with
  | nil => rfl
  | cons chunk rest ih =>
    rw [texts, feed, readLoop]
    cases push parser (web.decode before chunk) with
    | error e => exact ⟨[], rfl⟩
    | ok next =>
      obtain ⟨mid, frames⟩ := next
      have later := ih (before ++ [chunk]) mid
      dsimp only
      cases fed : feed mid (texts web (before ++ [chunk]) rest) with
      | error e =>
        rw [fed] at later
        obtain ⟨events, same⟩ := later
        exact ⟨eventsOf web frames ++ events, by rw [same, List.append_assoc]⟩
      | ok last =>
        rw [fed] at later
        dsimp only at later
        rw [later, ← List.append_assoc]
        simp only [Except.map, eventsOf, List.filterMap_append]

/-- The caller aborted. -/
def Aborted : Fetched → Prop
  | .failed abort => abort = true
  | .answered response => ∃ body, response.body = some body ∧ body.ending = .failed true

/-- The body does not close on a frame boundary without a terminal event: a
frame is one, or something is left over, or the parser throws. -/
def Terminates (body : Body) : Prop :=
  match feed {} (texts web [] body.chunks) with
  | .error _ => True
  | .ok (parser, frames) =>
    pending parser = true ∨ ∃ e ∈ eventsOf web frames, e.isTerminal = true

/-- The answer ends with a terminal event, or in a way that the client reports. -/
def Ends : Fetched → Prop
  | .failed _ => True
  | .answered response => response.ok = true → ∀ body, response.body = some body →
      body.ending = .closed → Terminates web body

theorem envelopeOf_terminal (response : Response) :
    (envelopeOf web response).isTerminal = true := by
  have fallback : (clientError "http_error" s!"the API answered {response.status}").isTerminal =
      true := rfl
  rw [envelopeOf]
  split
  · split
    · rename_i members _ _
      cases parsed : parseEvent web.parse (js "error") (web.stringify (.object members)) with
      | none => exact fallback
      | some event => exact parseEvent_error parsed
    · exact fallback
  · exact fallback

theorem readLoop_terminal_iff {body : Body} (kept : body.ending ≠ .failed true) :
    (∃ e ∈ readLoop web body.ending [] {} body.chunks, e.isTerminal = true) ↔
      (body.ending = .closed → Terminates web body) := by
  have looped := readLoop_of_feed web body.ending [] {} body.chunks
  rw [Terminates]
  cases fed : feed {} (texts web [] body.chunks) with
  | error e =>
    rw [fed] at looped
    obtain ⟨events, same⟩ := looped
    rw [same]
    refine iff_of_true ⟨_, List.mem_append_right _ List.mem_cons_self, rfl⟩ fun _ => trivial
  | ok last =>
    obtain ⟨parser, frames⟩ := last
    rw [fed] at looped
    dsimp only at looped ⊢
    rw [looped]
    simp only [List.mem_append, or_and_right, exists_or]
    cases ending : body.ending with
    | failed abort =>
      have here : abort = false := by
        rw [ending] at kept
        cases abort
        · rfl
        · exact absurd rfl kept
      subst here
      exact iff_of_true (Or.inr ⟨_, List.mem_cons_self, rfl⟩) nofun
    | closed =>
      rw [imp_iff_right rfl, lastEvents]
      cases pending parser with
      | true => exact iff_of_true (Or.inr ⟨_, List.mem_cons_self, rfl⟩) (Or.inl rfl)
      | false => simp

/-- For every response whose reader is not aborted: the events that `ask` yields
settle the question exactly when the answer ends in one of these ways. -/
theorem settles_iff_ends {fetched : Fetched} (kept : ¬Aborted fetched) :
    Settles (ask web fetched) ↔ Ends web fetched := by
  rw [settles_iff_terminal]
  cases fetched with
  | failed abort =>
    cases abort with
    | true => exact absurd rfl kept
    | false => exact iff_of_true ⟨_, List.mem_cons_self, rfl⟩ trivial
  | answered response =>
    rw [ask, Ends]
    cases ok : response.ok with
    | false =>
      exact iff_of_true ⟨_, List.mem_cons_self, envelopeOf_terminal web response⟩ nofun
    | true =>
      cases found : response.body with
      | none => exact iff_of_true ⟨_, List.mem_cons_self, rfl⟩ nofun
      | some body =>
        have notAborted : body.ending ≠ .failed true := fun failed => kept ⟨body, found, failed⟩
        have loop := readLoop_terminal_iff web notAborted
        simpa using loop

/-- A text of ASCII characters, nothing of which is JSON. -/
private def plain : Web where
  parse _ := none
  stringify _ := []
  decode _ bytes := bytes.map fun b => UInt16.ofNat b.toNat

/-- The connection is closed within a line. -/
theorem settles_iff_ends_torn :
    Settles (ask plain (.answered ⟨true, 200, none, some ⟨[[101, 118]], .closed⟩⟩)) := by
  refine (settles_iff_ends plain ?_).mpr ?_
  · rintro ⟨body, found, failed⟩
    obtain rfl := Option.some.inj found
    cases failed
  · rintro - body found -
    obtain rfl := Option.some.inj found
    exact Or.inl (by decide)

/-- A body that is closed before it has begun leaves the page asking. -/
theorem empty_body_never_settles :
    ∃ response : Response, response.ok = true ∧ (∃ body, response.body = some body ∧
      body.ending = .closed) ∧ ∀ web, ask web (.answered response) = [] ∧
        ¬Settles (ask web (.answered response)) := by
  refine ⟨⟨true, 200, none, some ⟨[], .closed⟩⟩, rfl, ⟨_, rfl, rfl⟩, fun web => ⟨rfl, ?_⟩⟩
  rw [settles_iff_terminal]
  rintro ⟨e, he, -⟩
  exact absurd he List.not_mem_nil

end Client
