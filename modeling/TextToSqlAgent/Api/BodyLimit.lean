import TextToSqlAgent.Api.Errors

/-!
# The limit on a request body

`BodySizeLimitMiddleware`. The server's messages and the application's pass it in
any order the application chooses; it counts the bytes on the way in and decides
on the way out.
-/

namespace BodyLimit

open Python Errors

/-- Bytes of a header are given as their Latin-1 text. -/
structure Scope where
  type : String
  headers : List (String × String)
  requestId : Option String

/-- An `http.request` message. -/
structure Request where
  body : Option (List UInt8)
  moreBody : Option Bool
  deriving DecidableEq, Repr

/-- `message.get("body", b"")`. -/
def Request.bytes (r : Request) : List UInt8 := r.body.getD []

def Request.more (r : Request) : Bool := r.moreBody.getD false

inductive Received
  | request (r : Request)
  | disconnect
  deriving DecidableEq, Repr

inductive Sent
  | start (status : Nat) (headers : List (String × String))
  | body (content : String) (moreBody : Bool)
  | other (type : String)
  deriving DecidableEq, Repr

def Sent.isStart : Sent → Bool
  | .start _ _ => true
  | _ => false

def maxRequestIdChars : Nat := 128

/-- `_SAFE_REQUEST_ID`. -/
def safeRequestId (supplied : String) : Bool :=
  0 < supplied.length && supplied.length ≤ maxRequestIdChars && supplied.toList.all fun c =>
    ('A' ≤ c && c ≤ 'Z') || ('a' ≤ c && c ≤ 'z') || ('0' ≤ c && c ≤ '9') || c = '.' || c = '_' ||
      c = ':' || c = '-'

/-- `assign_request_id`, where `fresh` is what `uuid4` gives. -/
def assignRequestId (fresh : String) (supplied : Option String) : String :=
  match supplied with
  | some id => if safeRequestId id then id else "req_" ++ fresh
  | none => "req_" ++ fresh

def requestIdFrom (fresh : String) (scope : Scope) : String :=
  match scope.requestId with
  | some existing => existing
  | none => assignRequestId fresh
      ((scope.headers.find? fun header => header.1 = "x-request-id").map Prod.snd)

/-- `int(value)` of bytes. -/
def intOfBytes (value : String) : Option Int :=
  if value.toList.all fun c => c.toNat < 128 then int value else none

/-- The first header of that name counts, whether it can be read or not. -/
def declaredLength (scope : Scope) : Option Int :=
  (scope.headers.find? fun header => header.1 = "content-length").bind fun header =>
    intOfBytes header.2

section middleware

/-! `json` and `headers` are what `JSONResponse` makes of an envelope. -/

variable (maxBytes : Nat) (json : Envelope → String) (headers : Envelope → List (String × String))
  (fresh : String)

/-- What `_refuse` sends. -/
def refuse (scope : Scope) : List Sent :=
  let response := envelope payloadTooLarge s!"request body exceeds {maxBytes} bytes"
    (requestIdFrom fresh scope)
  [.start response.status (headers response), .body (json response) false]

/-- What the calls of `receive` and `send` have left: how many messages the server
has given, the two variables of the closures, what the application was handed, and
what the client was sent. -/
structure State where
  taken : Nat
  received : Nat
  tooLarge : Bool
  handed : List Received
  sent : List Sent

def initial : State := ⟨0, 0, false, [], []⟩

/-- What an application does: it asks for a message or sends one. -/
inductive Act
  | receive
  | send (message : Sent)

/-- The server's messages: the chunks of the body, and then no more. -/
def serverMessage (chunks : List Request) (i : Nat) : Received :=
  match chunks[i]? with
  | some r => .request r
  | none => .disconnect

/-- `counted`. -/
def counted (chunks : List Request) (s : State) : State :=
  let message := serverMessage chunks s.taken
  match message with
  | .request r =>
    let received := s.received + r.bytes.length
    if maxBytes < received then
      ⟨s.taken + 1, received, true, s.handed ++ [.request ⟨some [], some false⟩], s.sent⟩
    else ⟨s.taken + 1, received, s.tooLarge, s.handed ++ [message], s.sent⟩
  | .disconnect => { s with taken := s.taken + 1, handed := s.handed ++ [message] }

/-- `guarded`. -/
def guarded (scope : Scope) (s : State) (message : Sent) : State :=
  if s.tooLarge then
    if message.isStart then { s with sent := s.sent ++ refuse maxBytes json headers fresh scope }
    else s
  else { s with sent := s.sent ++ [message] }

def step (scope : Scope) (chunks : List Request) (s : State) : Act → State
  | .receive => counted maxBytes chunks s
  | .send message => guarded maxBytes json headers fresh scope s message

/-- The application with the server's own `receive` and `send`. -/
def pass (chunks : List Request) (s : State) : Act → State
  | .receive =>
    { s with taken := s.taken + 1, handed := s.handed ++ [serverMessage chunks s.taken] }
  | .send message => { s with sent := s.sent ++ [message] }

/-- `__call__`, for an application that does `acts`. -/
def call (scope : Scope) (chunks : List Request) (acts : List Act) : State :=
  if scope.type = "http" then
    match declaredLength scope with
    | some declared =>
      if (maxBytes : Int) < declared then
        { initial with sent := refuse maxBytes json headers fresh scope }
      else acts.foldl (step maxBytes json headers fresh scope chunks) initial
    | none => acts.foldl (step maxBytes json headers fresh scope chunks) initial
  else acts.foldl (pass chunks) initial

/-! ## What is asked -/

/-- The chunks of one body: all but the last announce another one. -/
def IsBody (chunks : List Request) : Prop := ∀ r ∈ chunks.dropLast, r.more = true

instance (chunks : List Request) : Decidable (IsBody chunks) :=
  inferInstanceAs (Decidable (∀ r ∈ chunks.dropLast, r.more = true))

def total (chunks : List Request) : Nat := (chunks.map fun r => r.bytes.length).sum

def handedBytes (messages : List Received) : Nat :=
  (messages.map fun message =>
    match message with
    | .request r => r.bytes.length
    | .disconnect => 0).sum

/-- The application has been handed the end of the body. -/
def ReadToEnd (s : State) : Prop := ∃ r : Request, .request r ∈ s.handed ∧ r.more = false

/-- It sends nothing before it has read the body to its end. -/
def Patient (scope : Scope) (chunks : List Request) : State → List Act → Prop
  | _, [] => True
  | s, act :: rest => (∀ message, act = .send message → ReadToEnd s) ∧
      Patient scope chunks (step maxBytes json headers fresh scope chunks s act) rest

/-- The messages of an application, and how many it asked for. -/
def sends (acts : List Act) : List Sent :=
  acts.filterMap fun act =>
    match act with
    | .receive => none
    | .send message => some message

def receives (acts : List Act) : Nat :=
  acts.countP fun act =>
    match act with
    | .receive => true
    | .send _ => false

/-- The declared length or the received total exceeds the limit. -/
def Exceeds (scope : Scope) (chunks : List Request) : Prop :=
  (∃ declared, declaredLength scope = some declared ∧ (maxBytes : Int) < declared) ∨
    maxBytes < total chunks

/-! ## What the closures keep -/

theorem total_take_le (chunks : List Request) (i : Nat) : total (chunks.take i) ≤ total chunks := by
  have whole : total chunks = total (chunks.take i) + total (chunks.drop i) := by
    rw [total, total, total, ← List.sum_append, ← List.map_append, List.take_append_drop]
  omega

theorem total_take_succ {chunks : List Request} {i : Nat} {r : Request}
    (found : chunks[i]? = some r) :
    total (chunks.take (i + 1)) = total (chunks.take i) + r.bytes.length := by
  rw [List.take_add_one, found, total, List.map_append, List.sum_append]
  simp [total]

theorem handedBytes_concat (messages : List Received) (message : Received) :
    handedBytes (messages ++ [message]) = handedBytes messages + handedBytes [message] := by
  rw [handedBytes, List.map_append, List.sum_append]
  rfl

/-- What is true between any two acts of the application. -/
structure Inv (chunks : List Request) (s : State) : Prop where
  count : s.received = total (chunks.take s.taken)
  flag : s.tooLarge = decide (maxBytes < s.received)
  counted : handedBytes s.handed ≤ s.received
  bounded : handedBytes s.handed ≤ maxBytes
  unchanged : s.tooLarge = false → s.handed = (List.range s.taken).map (serverMessage chunks)
  ended : ReadToEnd s → s.tooLarge = true ∨ chunks.length ≤ s.taken

variable {maxBytes json headers fresh} {scope : Scope} {chunks : List Request} {s : State}

theorem inv_initial : Inv maxBytes chunks initial := by
  refine ⟨rfl, ?_, Nat.le_refl _, Nat.zero_le _, fun _ => rfl, ?_⟩
  · simp [initial]
  · rintro ⟨r, handed, -⟩
    cases handed

/-- The chunk that announces no other one is the last. -/
theorem length_le_of_last (body : IsBody chunks) {i : Nat} {r : Request}
    (found : chunks[i]? = some r) (last : r.more = false) : chunks.length ≤ i + 1 := by
  by_contra short
  have before : chunks.dropLast[i]? = some r := by
    rw [List.getElem?_dropLast, if_pos (by omega), found]
  rw [body r (List.mem_of_getElem? before)] at last
  cases last

theorem readToEnd_concat {messages : List Received} {message : Received}
    (ended : ∃ r : Request, .request r ∈ messages ++ [message] ∧ r.more = false) :
    (∃ r : Request, .request r ∈ messages ∧ r.more = false) ∨
      ∃ r : Request, message = .request r ∧ r.more = false := by
  obtain ⟨r, handed, last⟩ := ended
  rcases List.mem_append.mp handed with old | new
  · exact .inl ⟨r, old, last⟩
  · exact .inr ⟨r, (List.mem_singleton.mp new).symm, last⟩

theorem inv_counted (body : IsBody chunks) (inv : Inv maxBytes chunks s) :
    Inv maxBytes chunks (counted maxBytes chunks s) := by
  obtain ⟨count, flag, counted_, bounded, unchanged, ended⟩ := inv
  have next : (List.range (s.taken + 1)).map (serverMessage chunks) =
      (List.range s.taken).map (serverMessage chunks) ++ [serverMessage chunks s.taken] := by
    rw [List.range_succ, List.map_append]
    rfl
  cases found : chunks[s.taken]? with
  | none =>
    have message : serverMessage chunks s.taken = .disconnect := by simp [serverMessage, found]
    have beyond : chunks.length ≤ s.taken := List.getElem?_eq_none_iff.mp found
    simp only [BodyLimit.counted, message]
    constructor
    · rw [count, List.take_of_length_le beyond]
      exact congrArg total (List.take_of_length_le (Nat.le_succ_of_le beyond)).symm
    · exact flag
    · rw [handedBytes_concat]
      exact counted_
    · rw [handedBytes_concat]
      exact bounded
    · intro small
      show s.handed ++ [Received.disconnect] = _
      rw [next, message, unchanged small]
    · intro _
      exact .inr (Nat.le_succ_of_le beyond)
  | some r =>
    have message : serverMessage chunks s.taken = .request r := by simp [serverMessage, found]
    have more : s.received + r.bytes.length = total (chunks.take (s.taken + 1)) := by
      rw [count, total_take_succ found]
    simp only [BodyLimit.counted, message]
    by_cases beyond : maxBytes < s.received + r.bytes.length
    · rw [if_pos beyond]
      constructor
      · exact more
      · exact (decide_eq_true beyond).symm
      · rw [handedBytes_concat]
        exact Nat.le_trans counted_ (Nat.le_add_right _ _)
      · rw [handedBytes_concat]
        exact bounded
      · exact nofun
      · exact fun _ => .inl rfl
    · rw [if_neg beyond]
      -- What was too large before would be so now.
      have small : s.tooLarge = false := by
        rw [flag]
        exact decide_eq_false (by omega)
      have bytes : handedBytes (s.handed ++ [.request r]) =
          handedBytes s.handed + r.bytes.length := by
        rw [handedBytes_concat]
        rfl
      constructor
      · exact more
      · rw [small]
        exact (decide_eq_false beyond).symm
      · show handedBytes (s.handed ++ [.request r]) ≤ s.received + r.bytes.length
        omega
      · show handedBytes (s.handed ++ [.request r]) ≤ maxBytes
        omega
      · intro _
        show s.handed ++ [Received.request r] = _
        rw [next, message, unchanged small]
      · intro read
        rcases readToEnd_concat read with before | ⟨own, same, last⟩
        · rcases ended before with large | beyond
          · exact .inl large
          · exact .inr (Nat.le_succ_of_le beyond)
        · cases same
          exact .inr (length_le_of_last body found last)

theorem inv_guarded (inv : Inv maxBytes chunks s) (message : Sent) :
    Inv maxBytes chunks (guarded maxBytes json headers fresh scope s message) := by
  obtain ⟨count, flag, counted_, bounded, unchanged, ended⟩ := inv
  rw [guarded]
  split
  · split
    · exact ⟨count, flag, counted_, bounded, unchanged, ended⟩
    · exact ⟨count, flag, counted_, bounded, unchanged, ended⟩
  · exact ⟨count, flag, counted_, bounded, unchanged, ended⟩

theorem inv_step (body : IsBody chunks) (inv : Inv maxBytes chunks s) (act : Act) :
    Inv maxBytes chunks (step maxBytes json headers fresh scope chunks s act) := by
  cases act with
  | receive => exact inv_counted body inv
  | send message => exact inv_guarded inv message

theorem inv_run (body : IsBody chunks) (acts : List Act) (inv : Inv maxBytes chunks s) :
    Inv maxBytes chunks (acts.foldl (step maxBytes json headers fresh scope chunks) s) := by
  induction acts generalizing s with
  | nil => exact inv
  | cons act rest ih => exact ih (inv_step body inv act)

/-- After the end of the body the flag tells whether its total is too large. -/
theorem tooLarge_of_ended (inv : Inv maxBytes chunks s) (ended : ReadToEnd s) :
    s.tooLarge = decide (maxBytes < total chunks) := by
  have low := total_take_le chunks s.taken
  rw [← inv.count] at low
  rcases inv.ended ended with large | beyond
  · have flag := inv.flag
    rw [large] at flag
    have passed := of_decide_eq_true flag.symm
    rw [large]
    exact (decide_eq_true (by omega)).symm
  · rw [inv.flag, inv.count, List.take_of_length_le beyond]

/-- What the client is sent: one refusal for every response started, or all of it. -/
theorem sent_run (body : IsBody chunks) {acts : List Act} (inv : Inv maxBytes chunks s)
    (patient : Patient maxBytes json headers fresh scope chunks s acts) :
    (acts.foldl (step maxBytes json headers fresh scope chunks) s).sent = s.sent ++
      if maxBytes < total chunks then
        ((sends acts).filter Sent.isStart).flatMap fun _ => refuse maxBytes json headers fresh scope
      else sends acts := by
  induction acts generalizing s with
  | nil => simp [sends]
  | cons act rest ih =>
    obtain ⟨waits, later⟩ := patient
    rw [List.foldl_cons, ih (inv_step body inv act) later]
    cases act with
    | receive =>
      have same : (counted maxBytes chunks s).sent = s.sent := by
        simp only [counted]
        split
        · split
          · rfl
          · rfl
        · rfl
      rw [step, same]
      rfl
    | send message =>
      have flag := tooLarge_of_ended inv (waits message rfl)
      have first : sends (.send message :: rest) = message :: sends rest := rfl
      rw [step, guarded, flag, first]
      by_cases beyond : maxBytes < total chunks
      · cases started : message.isStart with
        | true => simp [beyond, started]
        | false => simp [beyond, started]
      · simp [beyond]

theorem taken_run (acts : List Act) :
    (acts.foldl (step maxBytes json headers fresh scope chunks) s).taken =
      s.taken + receives acts := by
  induction acts generalizing s with
  | nil => rfl
  | cons act rest ih =>
    rw [List.foldl_cons, ih]
    cases act with
    | receive =>
      have one : (counted maxBytes chunks s).taken = s.taken + 1 := by
        simp only [counted]
        split
        · split
          · rfl
          · rfl
        · rfl
      rw [step, one]
      simp only [receives, List.countP_cons, if_true]
      omega
    | send message =>
      have none : (guarded maxBytes json headers fresh scope s message).taken = s.taken := by
        simp only [guarded]
        split
        · split
          · rfl
          · rfl
        · rfl
      rw [step, none]
      simp [receives]

/-- The limit of a patient application: it is handed no more bytes than allowed; a
client that declares or sends too many is refused once and hears nothing else; and
otherwise nothing is changed in either direction. Whether it is too many is decided
by the declared length and the total alone. -/
theorem limit_kept {acts : List Act} (http : scope.type = "http") (body : IsBody chunks)
    (patient : Patient maxBytes json headers fresh scope chunks initial acts) :
    handedBytes (call maxBytes json headers fresh scope chunks acts).handed ≤ maxBytes ∧
      (Exceeds maxBytes scope chunks → (sends acts).countP Sent.isStart = 1 →
        (call maxBytes json headers fresh scope chunks acts).sent =
          refuse maxBytes json headers fresh scope) ∧
      (¬Exceeds maxBytes scope chunks →
        (call maxBytes json headers fresh scope chunks acts).handed =
            (List.range (receives acts)).map (serverMessage chunks) ∧
          (call maxBytes json headers fresh scope chunks acts).sent = sends acts) := by
  have inv : Inv maxBytes chunks
      (acts.foldl (step maxBytes json headers fresh scope chunks) initial) :=
    inv_run body acts inv_initial
  have sent := sent_run body inv_initial patient
  have taken : (acts.foldl (step maxBytes json headers fresh scope chunks) initial).taken =
      receives acts := by
    rw [taken_run]
    exact Nat.zero_add _
  -- Where the application is called, all of it is about the total.
  have called : handedBytes
        (acts.foldl (step maxBytes json headers fresh scope chunks) initial).handed ≤ maxBytes ∧
      (maxBytes < total chunks → (sends acts).countP Sent.isStart = 1 →
        (acts.foldl (step maxBytes json headers fresh scope chunks) initial).sent =
          refuse maxBytes json headers fresh scope) ∧
      (¬maxBytes < total chunks →
        (acts.foldl (step maxBytes json headers fresh scope chunks) initial).handed =
            (List.range (receives acts)).map (serverMessage chunks) ∧
          (acts.foldl (step maxBytes json headers fresh scope chunks) initial).sent =
            sends acts) := by
    refine ⟨inv.bounded, ?_, ?_⟩
    · intro beyond single
      rw [List.countP_eq_length_filter] at single
      obtain ⟨start, only⟩ := List.length_eq_one_iff.mp single
      rw [sent, if_pos beyond, only, List.flatMap_cons, List.flatMap_nil, List.append_nil]
      rfl
    · intro within
      have low := total_take_le chunks
        (acts.foldl (step maxBytes json headers fresh scope chunks) initial).taken
      have small : (acts.foldl (step maxBytes json headers fresh scope chunks) initial).tooLarge =
          false := by
        rw [inv.flag, inv.count]
        exact decide_eq_false (by omega)
      refine ⟨?_, ?_⟩
      · rw [inv.unchanged small, taken]
      · rw [sent, if_neg within]
        rfl
  rw [call, if_pos http]
  cases declared : declaredLength scope with
  | none =>
    have same : Exceeds maxBytes scope chunks ↔ maxBytes < total chunks := by
      simp [Exceeds, declared]
    rw [same]
    exact called
  | some length =>
    dsimp only
    split
    · rename_i beyond
      have exceeds : Exceeds maxBytes scope chunks := .inl ⟨length, declared, beyond⟩
      exact ⟨Nat.zero_le _, fun _ _ => rfl, fun within => absurd exceeds within⟩
    · rename_i within
      have same : Exceeds maxBytes scope chunks ↔ maxBytes < total chunks := by
        simp [Exceeds, declared, within]
      rw [same]
      exact called

end middleware

/-! ## A body in two chunks, with no declared length -/

def chunked : List Request := [⟨some [1, 2], some true⟩, ⟨some [3, 4], none⟩]

def answer : List Act :=
  [.receive, .receive, .receive, .send (.start 200 []), .send (.body "ok" false)]

/-- Four bytes of three allowed: the application reads on and answers in two parts. -/
theorem limit_kept_chunked :
    (call 3 (fun envelope => envelope.message) (fun _ => []) "0" ⟨"http", [], none⟩ chunked
      answer).sent = [.start 413 [], .body "request body exceeds 3 bytes" false] := by
  have patient : Patient 3 (fun envelope => envelope.message) (fun _ => []) "0" ⟨"http", [], none⟩
      chunked initial answer := by
    have ended : ReadToEnd (answer.take 3 |>.foldl (step 3 (fun envelope => envelope.message)
        (fun _ => []) "0" ⟨"http", [], none⟩ chunked) initial) :=
      ⟨⟨some [], some false⟩, by decide, rfl⟩
    exact ⟨nofun, nofun, nofun, fun _ _ => ended, fun _ _ => ended, trivial⟩
  have kept := limit_kept rfl (by decide) patient
  exact kept.2.1 (.inr (by decide)) (by decide)

end BodyLimit
