import Mathlib.Data.List.Sort
import TextToSqlAgent.McpServers.Common

/-!
# The tools that servers say they have

`ToolRegistry`: it connects to every configured server, keeps what each says it can
do, and sends a call to the server that described the tool. A server that fails costs
its own tools. A host may drop the structured part of a result; what is read of the
text is the same.
-/

namespace Discovery

open Python Exceptions JsonText JsonLayout McpServers
open McpRetrieval (Builtins CallToolResult ToolResult toResult)

structure DiscoveredTool where
  name : String
  description : String
  inputSchema : Payload
  server : String

/-- How connecting to a module ends: with a session and its tools, or with an exception
of some class, before the session is kept or after. -/
inductive Launch
  | notStarted (exc : String)
  | notListed (exc : String) (specs : List ToolSpec)
  | serves (specs : List ToolSpec)

/-- A session is the tools of the server behind it. -/
structure ToolRegistry where
  sessions : Dictionary String (List ToolSpec)
  tools : Dictionary String DiscoveredTool
  unavailable : Dictionary String String

namespace ToolRegistry

def initial : ToolRegistry := ⟨Dictionary.empty, Dictionary.empty, Dictionary.empty⟩

def describedBy (server : String) (spec : ToolSpec) : DiscoveredTool :=
  ⟨spec.name, spec.description, spec.inputSchema, server⟩

/-- `_connect_one`, with what `connect` makes of a failure. -/
def connectOne (r : ToolRegistry) (module : String × Launch) : ToolRegistry :=
  match module.2 with
  | .notStarted exc => { r with unavailable := r.unavailable.set module.1 exc }
  | .notListed exc specs =>
    { r with sessions := r.sessions.set module.1 specs
             unavailable := r.unavailable.set module.1 exc }
  | .serves specs =>
    { r with sessions := r.sessions.set module.1 specs
             tools := specs.foldl
               (fun tools spec => tools.set spec.name (describedBy module.1 spec)) r.tools }

def connect (modules : List (String × Launch)) : ToolRegistry := modules.foldl connectOne initial

def aclose (r : ToolRegistry) : ToolRegistry := { r with sessions := Dictionary.empty }

/-- The tool set as the model will be shown it. -/
def describe (r : ToolRegistry) : String :=
  let tools := (r.tools.entries.map Prod.snd).insertionSort fun a b => a.name ≤ b.name
  "\n\n".intercalate (tools.map fun tool => s!"{tool.name}: {tool.description}")

end ToolRegistry

/-- Whether the host passes on the structured part. -/
def deliver (structured : Bool) (result : CallToolResult) : CallToolResult :=
  if structured then result else { result with structuredContent := none }

/-- A `KeyError` of the tool or of its session, the server's own, and what reading the
result raises. -/
inductive CallError
  | undiscovered (name : String)
  | closed (server : String)
  | unknown (tool : UnknownTool)
  | unread (exc : Raised)

section Calls

variable (py : Builtins) (validate : Payload → Payload → Option ValidationError)
  (structured : Bool)

/-- `call`. -/
def ToolRegistry.call (r : ToolRegistry) (name : String) (arguments : Payload) :
    Except CallError ToolResult :=
  match r.tools.get? name with
  | none => .error (.undiscovered name)
  | some tool =>
    match r.sessions.get? tool.server with
    | none => .error (.closed tool.server)
    | some specs =>
      match callTool validate specs name arguments with
      | .error tool => .error (.unknown tool)
      | .ok result => (toResult py (deliver structured result)).mapError .unread

end Calls

/-! ## What is connected -/

/-- The tools of the servers that answer, each with its server. -/
def offers (modules : List (String × Launch)) : List (String × ToolSpec) :=
  modules.flatMap fun module =>
    match module.2 with
    | .serves specs => specs.map fun spec => (module.1, spec)
    | _ => []

def discovered (offer : String × ToolSpec) : String × DiscoveredTool :=
  (offer.2.name, ToolRegistry.describedBy offer.1 offer.2)

/-- The class of the exception that keeps a module from being available. -/
def Launch.failure : Launch → Option String
  | .notStarted exc => some exc
  | .notListed exc _ => some exc
  | .serves _ => none

theorem connect_append_singleton (modules : List (String × Launch)) (module : String × Launch) :
    ToolRegistry.connect (modules ++ [module]) =
      (ToolRegistry.connect modules).connectOne module := by
  rw [ToolRegistry.connect, List.foldl_append]
  rfl

theorem offers_append_singleton (modules : List (String × Launch)) (module : String × Launch) :
    offers (modules ++ [module]) = offers modules ++ offers [module] := by
  rw [offers, List.flatMap_append]
  rfl

/-- What is discovered are the offers, in turn. -/
theorem tools_connect (modules : List (String × Launch)) :
    (ToolRegistry.connect modules).tools = Dictionary.ofList ((offers modules).map discovered) := by
  induction modules using List.reverseRecOn with
  | nil => rfl
  | append_singleton modules module ih =>
    obtain ⟨name, launch⟩ := module
    rw [connect_append_singleton, offers_append_singleton, List.map_append, Dictionary.ofList,
      List.foldl_append, ← Dictionary.ofList, ← ih]
    cases launch with
    | notStarted exc => rfl
    | notListed exc specs => rfl
    | serves specs =>
      simp only [ToolRegistry.connectOne, offers, List.flatMap_cons, List.flatMap_nil,
        List.append_nil, List.foldl_map]
      rfl

/-- The server and the tool that a name stands for: the last that was offered. -/
def provider (modules : List (String × Launch)) (name : String) : Option (String × ToolSpec) :=
  (offers modules).reverse.find? fun offer => offer.2.name = name

theorem get?_tools (modules : List (String × Launch)) (name : String) :
    (ToolRegistry.connect modules).tools.get? name =
      (provider modules name).map fun offer => ToolRegistry.describedBy offer.1 offer.2 := by
  rw [tools_connect, Dictionary.get?_ofList, ← List.map_reverse, List.find?_map, Option.map_map]
  rfl

/-- What stays of a module's server: its session, if it got that far. -/
def Launch.session : Launch → Option (List ToolSpec)
  | .notStarted _ => none
  | .notListed _ specs => some specs
  | .serves specs => some specs

/-- What is known of modules, by their names. -/
def kept {α : Type} (part : Launch → Option α) (modules : List (String × Launch)) :
    List (String × α) :=
  modules.filterMap fun module => (part module.2).map fun a => (module.1, a)

theorem kept_append_singleton {α : Type} (part : Launch → Option α)
    (modules : List (String × Launch)) (module : String × Launch) :
    Dictionary.ofList (kept part (modules ++ [module])) =
      match part module.2 with
      | some a => (Dictionary.ofList (kept part modules)).set module.1 a
      | none => Dictionary.ofList (kept part modules) := by
  rw [kept, List.filterMap_append, ← kept]
  cases known : part module.2 with
  | none => simp [known]
  | some a =>
    simp only [List.filterMap_cons, known, Option.map_some, List.filterMap_nil]
    rw [Dictionary.ofList_append_singleton]

theorem sessions_connect (modules : List (String × Launch)) :
    (ToolRegistry.connect modules).sessions = Dictionary.ofList (kept Launch.session modules) := by
  induction modules using List.reverseRecOn with
  | nil => rfl
  | append_singleton modules module ih =>
    obtain ⟨name, launch⟩ := module
    rw [connect_append_singleton, kept_append_singleton, ← ih]
    cases launch <;> rfl

theorem unavailable_connect (modules : List (String × Launch)) :
    (ToolRegistry.connect modules).unavailable =
      Dictionary.ofList (kept Launch.failure modules) := by
  induction modules using List.reverseRecOn with
  | nil => rfl
  | append_singleton modules module ih =>
    obtain ⟨name, launch⟩ := module
    rw [connect_append_singleton, kept_append_singleton, ← ih]
    cases launch <;> rfl

theorem keys_kept {α : Type} (part : Launch → Option α) (modules : List (String × Launch)) :
    ((kept part modules).map Prod.fst).Sublist (modules.map Prod.fst) := by
  induction modules with
  | nil => exact List.Sublist.slnil
  | cons module modules ih =>
    rw [kept, List.filterMap_cons, ← kept]
    cases part module.2 with
    | none => exact ih.cons _
    | some a => exact ih.cons_cons _

/-- Of modules of distinct names each is known by what it came to. -/
theorem get?_kept {α : Type} (part : Launch → Option α) {modules : List (String × Launch)}
    (distinct : (modules.map Prod.fst).Nodup) {name : String} {a : α} :
    (Dictionary.ofList (kept part modules)).get? name = some a ↔
      ∃ launch, (name, launch) ∈ modules ∧ part launch = some a := by
  rw [← Dictionary.mem_entries_iff,
    Dictionary.entries_ofList (distinct.sublist (keys_kept part modules)), kept,
    List.mem_filterMap]
  constructor
  · rintro ⟨⟨other, launch⟩, listed, made⟩
    obtain ⟨b, known, same⟩ := Option.map_eq_some_iff.mp made
    obtain ⟨rfl, rfl⟩ := Prod.mk.inj same
    exact ⟨launch, listed, known⟩
  · rintro ⟨launch, listed, known⟩
    exact ⟨(name, launch), listed, by rw [known]; rfl⟩

/-- The tool that a name stands for is the one its server answers with. -/
theorem byName_of_provider {modules : List (String × Launch)} {name server : String}
    {spec : ToolSpec} (provided : provider modules name = some (server, spec)) :
    ∃ specs, (server, Launch.serves specs) ∈ modules ∧ (byName specs).get? name = some spec := by
  induction modules using List.reverseRecOn with
  | nil => cases provided
  | append_singleton modules module ih =>
    obtain ⟨own, launch⟩ := module
    rw [provider, offers_append_singleton, List.reverse_append, List.find?_append] at provided
    rcases Option.or_eq_some_iff.mp provided with last | ⟨-, earlier⟩
    · cases launch with
      | notStarted exc => cases last
      | notListed exc specs => cases last
      | serves specs =>
        simp only [offers, List.flatMap_cons, List.flatMap_nil, List.append_nil,
          ← List.map_reverse, List.find?_map] at last
        obtain ⟨found, at_, same⟩ := Option.map_eq_some_iff.mp last
        obtain ⟨rfl, rfl⟩ := Prod.mk.inj same
        refine ⟨specs, List.mem_append_right _ List.mem_cons_self, ?_⟩
        rw [byName, Dictionary.get?_ofList, ← List.map_reverse, List.find?_map, Option.map_map]
        exact Option.map_eq_some_iff.mpr ⟨found, at_, rfl⟩
    · obtain ⟨specs, listed, known⟩ := ih earlier
      exact ⟨specs, List.mem_append_left _ listed, known⟩

/-! ## What is read of a result -/

/-- Texts that are JSON for `JsonText.loads` are read so. -/
def ReadsJson (py : Builtins) : Prop :=
  ∀ text value, loads text = .ok value → py.loads text = .ok value

/-- What the agent makes of a payload. -/
def outcome (payload : Payload) : ToolResult :=
  ⟨(toCallResult payload).isError, payload, dumpsIndented (.obj payload)⟩

theorem loads_dumpsIndented_bare {value : Json} (lasting : Lasting value) :
    loads (dumpsIndented value) = .ok value := by
  have read := loads_layout (Layout.blank_indented 2) lasting [] nofun
  rwa [String.ofList_nil, String.append_empty] at read

/-- The flag and the payload come through with the structured part and without it. -/
theorem toResult_deliver {py : Builtins} (reads : ReadsJson py) (structured : Bool)
    {payload : Payload} (lasting : Lasting (.obj payload)) :
    toResult py (deliver structured (toCallResult payload)) = .ok (outcome payload) := by
  have text : McpRetrieval.textOf (toCallResult payload) = dumpsIndented (.obj payload) := by
    simp [McpRetrieval.textOf, toCallResult, String.join]
  cases structured with
  | true =>
    rw [deliver, if_pos rfl, toResult, text]
    rfl
  | false =>
    have some : dumpsIndented (.obj payload) ≠ "" := by
      intro nothing
      have begins : Begins (layoutChars (.indented 2) 0 (.obj payload)) := begins_layoutChars _ _
      obtain ⟨c, rest, written, -⟩ := begins
      rw [dumpsIndented, layout, written] at nothing
      simp at nothing
    have read := reads _ _ (loads_dumpsIndented_bare lasting)
    have same : McpRetrieval.textOf (deliver false (toCallResult payload)) =
        dumpsIndented (.obj payload) := text
    have payloadOf : McpRetrieval.payloadOf py (deliver false (toCallResult payload)) =
        .ok payload := by
      rw [McpRetrieval.payloadOf, same]
      simp only [deliver, Bool.false_eq_true, if_false, if_neg some, read]
    rw [toResult, payloadOf, same]
    rfl

/-! ## Calls -/

/-- The payloads of a tool come back as they were. -/
def Lasts (spec : ToolSpec) : Prop :=
  ∀ arguments payload, spec.handler arguments = .ok payload → Lasting (.obj payload)

theorem lasting_answer (validate : Payload → Payload → Option ValidationError) {spec : ToolSpec}
    (lasts : Lasts spec) (arguments : Payload) :
    Lasting (.obj (answer validate spec arguments)) := by
  rcases answer_cases validate spec arguments with ⟨type, message, fails⟩ | ⟨payload, -, made, same⟩
  · exact (flagged_of_fails validate fails).lasting
  · rw [same]
    exact lasts arguments payload made

theorem mem_of_provider {modules : List (String × Launch)} {name : String}
    {offer : String × ToolSpec} (provided : provider modules name = some offer) :
    offer ∈ offers modules :=
  List.mem_reverse.mp (List.mem_of_find?_eq_some provided)

variable {modules : List (String × Launch)} {py : Builtins}

/-- Where nothing but JSON is read. -/
def jsonBuiltins : Builtins where
  str := fun _ => ""
  repr := fun value => match value with
    | .str s => "'" ++ s ++ "'"
    | _ => ""
  float := fun _ => none
  loads := fun text => (loads text).mapError fun _ => .decode

theorem reads_jsonBuiltins : ReadsJson jsonBuiltins := by
  intro text value read
  simp only [jsonBuiltins, read]
  rfl

/-- A profiler that answers, and a search that does not start. -/
def twoModules : List (String × Launch) :=
  [("mcp_servers.profile_table", .serves [profileTool "connection lost"]),
    ("mcp_servers.schema_search", .notStarted "McpError")]

theorem lasts_profileTool (text : String) : Lasts (profileTool text) := by
  intro arguments payload made
  simp only [profileTool] at made
  split at made
  · obtain rfl := Except.ok.inj made
    refine .obj _ (distinct_marked _ _) fun member listed => ?_
    have among := Dictionary.mem_of_get?_ofList (Dictionary.mem_entries_iff.mp listed)
    simp only [List.mem_cons, List.not_mem_nil, or_false, Prod.mk.injEq] at among
    rcases among with ⟨-, value⟩ | ⟨-, value⟩
    · rw [value]
      exact .bool true
    · rw [value]
      exact .str _
  · cases made
  · cases made

theorem lasts_twoModules : ∀ offer ∈ offers twoModules, Lasts offer.2 := by
  intro offer listed
  obtain rfl := List.mem_singleton.mp listed
  exact lasts_profileTool _

/-- Modules that answer. -/
def available (modules : List (String × Launch)) : List (String × Launch) :=
  modules.filter fun module => module.2.failure.isNone

theorem offers_available (modules : List (String × Launch)) :
    offers (available modules) = offers modules := by
  induction modules with
  | nil => rfl
  | cons module modules ih =>
    obtain ⟨name, launch⟩ := module
    have split (rest : List (String × Launch)) :
        offers ((name, launch) :: rest) = offers [(name, launch)] ++ offers rest := by
      rw [← List.singleton_append, offers, List.flatMap_append]
      rfl
    rw [split, ← ih, available, List.filter_cons]
    cases launch with
    | notStarted exc => rfl
    | notListed exc specs => rfl
    | serves specs => exact split _

/-- Servers that fail cost their own tools and nothing else: what is discovered is what
the others offer, each of them is still reached, and exactly those that failed are
reported, with the class of what they raised. -/
theorem failures_cost_their_tools (modules : List (String × Launch))
    (distinct : (modules.map Prod.fst).Nodup) :
    (ToolRegistry.connect modules).tools = (ToolRegistry.connect (available modules)).tools ∧
      (∀ module exc, (ToolRegistry.connect modules).unavailable.get? module = some exc ↔
        ∃ launch, (module, launch) ∈ modules ∧ launch.failure = some exc) ∧
      ∀ name tool, (ToolRegistry.connect modules).tools.get? name = some tool →
        (ToolRegistry.connect modules).unavailable.get? tool.server = none ∧
          ∃ specs spec, (ToolRegistry.connect modules).sessions.get? tool.server = some specs ∧
            (byName specs).get? name = some spec := by
  refine ⟨?_, fun module exc => ?_, fun name tool found => ?_⟩
  · rw [tools_connect, tools_connect, offers_available]
  · rw [unavailable_connect]
    exact get?_kept Launch.failure distinct
  · rw [get?_tools] at found
    obtain ⟨⟨server, spec⟩, provided, rfl⟩ := Option.map_eq_some_iff.mp found
    obtain ⟨specs, listed, known⟩ := byName_of_provider provided
    refine ⟨?_, specs, spec, ?_, known⟩
    · rw [unavailable_connect, Option.eq_none_iff_forall_not_mem]
      intro exc reported
      obtain ⟨launch, other, failed⟩ := (get?_kept Launch.failure distinct).mp reported
      have same := List.inj_on_of_nodup_map distinct other listed rfl
      rw [(Prod.mk.inj same).2] at failed
      cases failed
    · rw [sessions_connect]
      exact (get?_kept Launch.session distinct).mpr ⟨_, listed, rfl⟩

theorem failures_cost_their_tools_search :
    (ToolRegistry.connect twoModules).tools =
        (ToolRegistry.connect (available twoModules)).tools ∧
      (ToolRegistry.connect twoModules).unavailable.get? "mcp_servers.schema_search" =
        some "McpError" := by
  obtain ⟨tools, reported, -⟩ := failures_cost_their_tools twoModules (by decide)
  refine ⟨tools, (reported _ _).mpr ⟨.notStarted "McpError", ?_, rfl⟩⟩
  exact List.mem_cons_of_mem _ List.mem_cons_self

end Discovery
