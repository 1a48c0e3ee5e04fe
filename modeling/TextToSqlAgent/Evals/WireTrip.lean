import TextToSqlAgent.Evals.McpRetrieval
import TextToSqlAgent.Generation.Prompts

/-!
# A retrieval result on the wire and back

What the server publishes of a result, what the client makes of it, and that
neither the prompt nor recall can tell the difference.
-/

namespace WireTrip

open Python Exceptions Fallible McpRetrieval Prompts
open Schema (RetrievedElement ForeignKey RetrievalResult)

/-! ## The payload -/

/-- `round(score, 4)`. -/
def roundScore : PyFloat → PyFloat
  | .finite q => .finite (roundPlaces 4 q)
  | x => x

def textOrNull : Option String → Json
  | some text => .str text
  | none => .null

def renderElement (element : RetrievedElement) : Json :=
  .obj [("table", .str element.table), ("column", textOrNull element.column),
    ("type", textOrNull element.dataType), ("comment", textOrNull element.comment),
    ("score", .float (roundScore element.score))]

def renderForeignKey (fk : ForeignKey) : Json :=
  .obj [("from_table", .str fk.fromTable), ("from_column", .str fk.fromColumn),
    ("to_table", .str fk.toTable), ("to_column", .str fk.toColumn)]

/-- Distinct table names, in rank order. -/
def tables (result : RetrievalResult) : List String :=
  (result.elements.map RetrievedElement.table).eraseDups

/-- The wire shape. Structured fields only. -/
def render (result : RetrievalResult) : List (String × Json) :=
  [("elements", .arr (result.elements.map renderElement)),
    ("foreign_keys", .arr (result.foreignKeys.map renderForeignKey)),
    ("tables", .arr ((tables result).map .str))]

/-! ## What comes back -/

/-- An element without the text that was embedded. -/
def receivedElement (element : RetrievedElement) : RetrievedElement :=
  { element with
    elementType := if element.column.getD "" = "" then "table" else "column"
    serialized := ""
    score := roundScore element.score }

/-- A join path without the name of its constraint. -/
def receivedEdge (fk : ForeignKey) : ForeignKey := { fk with constraintName := some "" }

variable {py : Builtins} {result : RetrievalResult}

theorem element_renderElement {element : RetrievedElement} (named : element.table ≠ "")
    (index : Nat) :
    McpRetrieval.element py (renderElement element) index = .ok (receivedElement element) := by
  obtain ⟨elementType, table, column, dataType, comment, serialized, score⟩ := element
  have read : tableOf [("table", .str table), ("column", textOrNull column),
      ("type", textOrNull dataType), ("comment", textOrNull comment),
      ("score", .float (roundScore score))] = table := by
    simp [tableOf, Json.get?]
  simp only [McpRetrieval.element, renderElement, read, if_neg named]
  cases column <;> cases dataType <;> cases comment <;>
    simp [columnOf, optionalStr, McpRetrieval.score, Json.get?, textOrNull, McpRetrieval.str,
      receivedElement, bind, Except.bind, pure, Except.pure]

theorem edge_renderForeignKey (fk : ForeignKey) (index : Nat) :
    edge py (renderForeignKey fk) index = .ok (receivedEdge fk) := by
  simp [edge, renderForeignKey, endpoint, Json.get?, McpRetrieval.str, receivedEdge, bind,
    Except.bind, pure, Except.pure]

/-- Items written and read with their places are read one for one. -/
theorem mapM_zipIdx_map {α β γ : Type} (write : α → β) (read : β → Nat → Except Raised γ)
    (back : α → γ) {items : List α} (each : ∀ a ∈ items, ∀ i, read (write a) i = .ok (back a)) :
    ((items.map write).zipIdx.mapM fun entry => read entry.1 entry.2) = .ok (items.map back) := by
  rw [List.zipIdx_map, List.mapM_map]
  have entries : ∀ entry ∈ items.zipIdx,
      ((fun entry => read entry.1 entry.2) ∘ Prod.map write id) entry = .ok (back entry.1) :=
    fun entry listed => each _ (List.fst_mem_of_mem_zipIdx listed) _
  refine (mapM_ok entries).trans (congrArg Except.ok ?_)
  conv_rhs => rw [← List.zipIdx_map_fst 0 items, List.map_map]
  rfl

/-- The payload is accepted, and nothing is missing but what is not published. -/
theorem toRetrievalResult_render (named : ∀ e ∈ result.elements, e.table ≠ "") :
    toRetrievalResult py (render result) =
      .ok ⟨result.elements.map receivedElement, result.foreignKeys.map receivedEdge⟩ := by
  have elements := mapM_zipIdx_map renderElement (McpRetrieval.element py) receivedElement
    fun e listed i => element_renderElement (named e listed) i
  have edges := mapM_zipIdx_map renderForeignKey (edge py) receivedEdge
    fun fk (_ : fk ∈ result.foreignKeys) i => edge_renderForeignKey fk i
  simp [toRetrievalResult, render, Json.get?, elements, edges, bind, Except.bind, pure,
    Except.pure]

/-! ## What is read of it -/

/-- The prompt reads what is published only. -/
theorem renderContext_received (elements : List RetrievedElement) (foreignKeys : List ForeignKey) :
    renderContext ⟨elements.map receivedElement, foreignKeys.map receivedEdge⟩ =
      renderContext ⟨elements, foreignKeys⟩ := by
  have lines : contextLines ⟨elements.map receivedElement, foreignKeys.map receivedEdge⟩ =
      contextLines ⟨elements, foreignKeys⟩ := by
    rw [contextLines_eq, contextLines_eq]
    dsimp only
    rw [List.map_map]
    congr 1
    · apply congrArg (fun f => List.flatMap f _)
      funext table
      rw [List.filter_map, List.filterMap_map]
      rfl
    · rw [relationshipLines, relationshipLines, List.map_map]
      simp only [List.map_eq_nil_iff]
      rfl
  simp only [renderContext, lines, List.map_eq_nil_iff]

theorem retrievedColumns_received (elements : List RetrievedElement)
    (foreignKeys others : List ForeignKey) :
    retrievedColumns ⟨elements.map receivedElement, others⟩ =
      retrievedColumns ⟨elements, foreignKeys⟩ := by
  rw [retrievedColumns, retrievedColumns, List.filterMap_map]
  rfl

/-- A join path as it is published. -/
def ends (fk : ForeignKey) : String × String × String × String :=
  (fk.fromTable, fk.fromColumn, fk.toTable, fk.toColumn)

/-- A result that is rendered for the wire and read again gives the same prompt,
the same columns and the same join paths. -/
theorem round_trip (py : Builtins) (result : RetrievalResult)
    (named : ∀ element ∈ result.elements, element.table ≠ "") :
    ∃ received, toRetrievalResult py (render result) = .ok received ∧
      renderContext received = renderContext result ∧
      retrievedColumns received = retrievedColumns result ∧
      received.foreignKeys.map ends = result.foreignKeys.map ends := by
  refine ⟨_, toRetrievalResult_render named, renderContext_received _ _,
    retrievedColumns_received _ _ _, ?_⟩
  rw [List.map_map]
  rfl

/-- A table by itself, and a column without a comment. -/
theorem round_trip_orders : ∃ received,
    toRetrievalResult plain (render
      ⟨[⟨"table", "orders", none, none, some "", "orders (table)", .finite (1 / 3)⟩,
        ⟨"column", "orders", some "total", some "numeric", none, "", .finite 0⟩], []⟩) =
      .ok received ∧
    retrievedColumns received = [("orders", "total")] := by
  obtain ⟨received, accepted, -, columns, -⟩ := round_trip plain
    ⟨[⟨"table", "orders", none, none, some "", "orders (table)", .finite (1 / 3)⟩,
      ⟨"column", "orders", some "total", some "numeric", none, "", .finite 0⟩], []⟩ (by decide)
  exact ⟨received, accepted, columns.trans (by decide)⟩

end WireTrip
