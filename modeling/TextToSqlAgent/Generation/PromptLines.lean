import TextToSqlAgent.Library.Lines
import TextToSqlAgent.Generation.Prompts

/-!
# The lines of a prompt

The question is flattened before it is placed; the names, types and comments of
the schema are placed as they are. A line feed in one of these makes lines that
the block does not have.
-/

namespace PromptLines

open Python Schema Prompts Lines

/-- `text.split("\n")`. -/
def lines (text : String) : List String := (text.toList.splitOn '\n').map String.ofList

inductive LineKind
  | table
  | relationships
  | question
  | other
  deriving DecidableEq

def kindOf (line : String) : LineKind :=
  if "TABLE ".toList <+: line.toList then .table
  else if line = "RELATIONSHIPS" then .relationships
  else if line = "QUESTION" then .question
  else .other

/-- The content of the user message. -/
def userMessage (messages : List Message) : String :=
  match messages.find? fun message => message.role = .user with
  | some message => message.content
  | none => ""

/-! ## The property -/

/-- Every column that is shown is shown on one line. -/
def OneLineEach (result : RetrievalResult) : Prop :=
  ∀ element ∈ result.elements, ∀ text, columnLine element = some text → (lines text).length = 1

/-- Both messages end in their question, on a line of its own, and the lines
above are as many and of the same kinds, place by place. -/
def SameStructure (question other : String) (message otherMessage : String) : Prop :=
  ∃ front otherFront, lines message = front ++ [clip question] ∧
    lines otherMessage = otherFront ++ [clip other] ∧
    front.map kindOf = otherFront.map kindOf

/-- The same tables, columns and join paths; types and comments may differ. -/
def SameSchema (result other : RetrievalResult) : Prop :=
  result.elements.map (fun e => (e.table, e.column)) =
    other.elements.map (fun e => (e.table, e.column)) ∧
  result.foreignKeys = other.foreignKeys

/-- No line feed in the name, the type or the comment of a column. -/
def Unbroken (result : RetrievalResult) : Prop :=
  ∀ element ∈ result.elements, ∀ column, element.column = some column →
    '\n' ∉ column.toList ∧ (∀ dataType, element.dataType = some dataType → '\n' ∉ dataType.toList) ∧
      ∀ comment, element.comment = some comment → '\n' ∉ comment.toList

/-! ## Lines of joined text -/

theorem length_lines_eq_one_iff {text : String} : (lines text).length = 1 ↔ '\n' ∉ text.toList := by
  rw [lines, List.length_map, length_splitOn_eq_one_iff]

theorem lines_of_not_mem {text : String} (unbroken : '\n' ∉ text.toList) : lines text = [text] := by
  rw [lines, splitOn_eq_singleton_iff.mpr unbroken, List.map_singleton, String.ofList_toList]

theorem lines_append (first second : String) :
    lines (first ++ "\n" ++ second) = lines first ++ lines second := by
  have text : (first ++ "\n" ++ second).toList = first.toList ++ '\n' :: second.toList := by
    simp
  rw [lines, text, splitOn_append_cons, List.map_append]
  rfl

/-- Joined parts have the lines of each part in turn. -/
theorem lines_intercalate {parts : List String} (some : parts ≠ []) :
    lines ("\n".intercalate parts) = parts.flatMap lines := by
  have nonempty : parts.map String.toList ≠ [] := by simpa using some
  have feed : "\n".toList = ['\n'] := by simp
  rw [lines, String.toList_intercalate, feed, splitOn_intercalate '\n' nonempty, List.flatMap_map,
    List.map_flatMap]
  rfl

/-! ## The question -/

theorem not_mem_flatten (text : String) : '\n' ∉ (flatten text).toList := by
  intro inside
  rw [flatten, String.toList_intercalate] at inside
  rcases mem_of_mem_intercalate inside with between | ⟨word, listed, found⟩
  · simp at between
  · obtain ⟨piece, kept, rfl⟩ := List.mem_map.mp (List.map_map ▸ listed)
    rw [Function.comp_apply, String.toList_ofList] at found
    have space := not_of_mem_splitOnP (List.mem_filter.mp kept).1 _ found
    exact absurd space (by decide)

theorem lines_clip (question : String) : lines (clip question) = [clip question] := by
  apply lines_of_not_mem
  have flat := not_mem_flatten question
  simp only [clip]
  split
  · exact flat
  · rw [String.toList_append, String.toList_ofList, List.mem_append, not_or]
    refine ⟨fun inside => flat (List.mem_of_mem_take inside), by decide⟩

/-! ## Columns -/

/-- A column is shown on one line unless a line feed is in its texts. -/
theorem unbroken_columnLine_iff {element : RetrievedElement} {column : String}
    (named : element.column = some column) {text : String}
    (shown : columnLine element = some text) :
    '\n' ∉ text.toList ↔ '\n' ∉ column.toList ∧
      (∀ dataType, element.dataType = some dataType → '\n' ∉ dataType.toList) ∧
      ∀ comment, element.comment = some comment → '\n' ∉ comment.toList := by
  obtain ⟨elementType, table, name, dataType, comment, serialized, score⟩ := element
  obtain rfl : name = some column := named
  simp only [columnLine, Option.map_some, Option.some.injEq] at shown
  subst shown
  have typed : '\n' ∉ (formatOptional dataType).toList ↔
      ∀ text, dataType = some text → '\n' ∉ text.toList := by
    cases dataType with
    | none => simp [formatOptional]
    | some text => simp [formatOptional]
  have noted : '\n' ∉ (trailingComment comment).toList ↔
      ∀ text, comment = some text → '\n' ∉ text.toList := by
    cases comment with
    | none => simp [trailingComment, given]
    | some text =>
      by_cases empty : text = ""
      · simp [trailingComment, given, empty]
      · simp [trailingComment, given, empty]
  rw [← typed, ← noted]
  simp

theorem oneLineEach_iff {result : RetrievalResult} : OneLineEach result ↔ Unbroken result := by
  constructor
  · intro one element listed column named
    have shown : columnLine element = some ((columnLine element).getD "") := by
      simp [columnLine, named]
    exact (unbroken_columnLine_iff named shown).mp
      (length_lines_eq_one_iff.mp (one element listed _ shown))
  · intro unbroken element listed text shown
    cases named : element.column with
    | none => simp [columnLine, named] at shown
    | some column =>
      exact length_lines_eq_one_iff.mpr
        ((unbroken_columnLine_iff named shown).mpr (unbroken element listed column named))

theorem kindOf_columnLine {element : RetrievedElement} {text : String}
    (shown : columnLine element = some text) : kindOf text = .other := by
  obtain ⟨column, -, rfl⟩ := Option.map_eq_some_iff.mp shown
  have indented : ∀ rest : String, kindOf ("  " ++ rest) = .other := by
    intro rest
    have chars : ("  " ++ rest).toList = ' ' :: ' ' :: rest.toList := by simp
    have unlike : ∀ header : String, header.toList.head? ≠ some ' ' → "  " ++ rest ≠ header := by
      intro header first same
      rw [← same, chars] at first
      exact first rfl
    have noTable : ¬ "TABLE ".toList <+: ("  " ++ rest).toList := by
      rw [chars]
      rintro ⟨after, same⟩
      simp at same
    rw [kindOf, if_neg noTable, if_neg (unlike _ (by decide)), if_neg (unlike _ (by decide))]
  simpa [String.append_assoc] using indented _

/-- What lines a table's columns take, from which are there. -/
theorem kinds_columns {elements : List RetrievedElement}
    (one : ∀ e ∈ elements, ∀ text, columnLine e = some text → (lines text).length = 1) :
    ((elements.filterMap columnLine).flatMap lines).map kindOf =
      (elements.map fun e => (e.table, e.column)).filterMap fun shape =>
        shape.2.map fun _ => LineKind.other := by
  induction elements with
  | nil => rfl
  | cons element rest ih =>
    have later := ih fun e listed => one e (List.mem_cons_of_mem _ listed)
    cases shown : columnLine element with
    | none =>
      have unnamed : element.column = none := by
        cases named : element.column with
        | none => rfl
        | some column => simp [columnLine, named] at shown
      rw [List.filterMap_cons_none shown, later, List.map_cons, unnamed]
      rfl
    | some text =>
      obtain ⟨column, named, -⟩ := Option.map_eq_some_iff.mp shown
      have single := lines_of_not_mem (length_lines_eq_one_iff.mp
        (one element List.mem_cons_self text shown))
      rw [List.filterMap_cons_some shown, List.flatMap_cons, List.map_append, later, single,
        List.map_singleton, kindOf_columnLine shown, List.map_cons, named]
      rfl

/-! ## The block and the message -/

/-- What lines a block has, from what was retrieved. -/
def blockKinds (shapes : List (String × Option String)) (edges : List ForeignKey) :
    List LineKind :=
  ((shapes.map Prod.fst).eraseDups.flatMap fun table =>
    (lines ("TABLE " ++ table)).map kindOf ++
      (shapes.filter fun shape => shape.1 = table).filterMap fun shape =>
        shape.2.map fun _ => LineKind.other) ++
  ((relationshipLines edges).flatMap lines).map kindOf

theorem kinds_contextLines {result : RetrievalResult} (one : OneLineEach result) :
    ((contextLines result).flatMap lines).map kindOf =
      blockKinds (result.elements.map fun e => (e.table, e.column)) result.foreignKeys := by
  rw [contextLines_eq, blockKinds, List.flatMap_append, List.map_append, List.flatMap_assoc,
    List.map_flatMap, List.map_map]
  congr 1
  apply congrArg (fun f => List.flatMap f _)
  funext table
  rw [List.flatMap_cons, List.map_append, List.filter_map]
  congr 1
  exact kinds_columns fun e listed => one e (List.mem_filter.mp listed).1

theorem kinds_renderContext {result other : RetrievalResult} (same : SameSchema result other)
    (one : OneLineEach result) (oneOther : OneLineEach other) :
    (lines (renderContext result)).map kindOf = (lines (renderContext other)).map kindOf := by
  obtain ⟨shapes, edges⟩ := same
  have empty : result.elements = [] ↔ other.elements = [] := by
    rw [← List.map_eq_nil_iff (f := fun e : RetrievedElement => (e.table, e.column)), shapes,
      List.map_eq_nil_iff]
  have block : ∀ r : RetrievalResult, r.elements ≠ [] → contextLines r ≠ [] := by
    intro r some none
    rw [contextLines, Dictionary.entries_groupBy] at none
    obtain ⟨element, rest, listed⟩ := List.exists_cons_of_ne_nil some
    simp [listed, List.eraseDups_cons] at none
  rw [renderContext, renderContext]
  by_cases none : result.elements = []
  · rw [if_pos none, if_pos (empty.mp none)]
  · have noneOther := mt empty.mpr none
    rw [if_neg none, if_neg noneOther, lines_intercalate (block _ none),
      lines_intercalate (block _ noneOther), kinds_contextLines one, kinds_contextLines oneOther,
      shapes, edges]

/-- Without feedback the message is the block and the question. -/
theorem lines_userMessage (question : String) (result : RetrievalResult) (dialect : String)
    (maxRows : Option Int) (previousSql : Option String) :
    lines (userMessage (buildMessages question result dialect maxRows none previousSql)) =
      ("SCHEMA AND RELATIONSHIPS" :: (lines (renderContext result) ++ ["", "QUESTION"])) ++
        [clip question] := by
  have message : userMessage (buildMessages question result dialect maxRows none previousSql) =
      "SCHEMA AND RELATIONSHIPS" ++ "\n" ++ (renderContext result ++ "\n" ++
        ("" ++ "\n" ++ ("QUESTION" ++ "\n" ++ clip question))) := by
    have first : "SCHEMA AND RELATIONSHIPS\n" = "SCHEMA AND RELATIONSHIPS" ++ "\n" := by decide
    have second : "\n\nQUESTION\n" = "\n" ++ ("" ++ ("\n" ++ ("QUESTION" ++ "\n"))) := by decide
    have content : userMessage (buildMessages question result dialect maxRows none previousSql) =
        "SCHEMA AND RELATIONSHIPS\n" ++ renderContext result ++ "\n\nQUESTION\n" ++
          clip question ++ "" := rfl
    rw [content, first, second, String.append_empty]
    simp only [String.append_assoc]
  have words : lines "SCHEMA AND RELATIONSHIPS" = ["SCHEMA AND RELATIONSHIPS"] ∧
      lines "" = [""] ∧ lines "QUESTION" = ["QUESTION"] := by decide
  rw [message, lines_append, lines_append, lines_append, lines_append, lines_clip, words.1,
    words.2.1, words.2.2]
  simp

theorem sameStructure_of_oneLineEach {result other : RetrievalResult}
    (same : SameSchema result other) (one : OneLineEach result) (oneOther : OneLineEach other)
    (question asked dialect : String) (maxRows : Option Int) (previousSql : Option String) :
    SameStructure question asked
      (userMessage (buildMessages question result dialect maxRows none previousSql))
      (userMessage (buildMessages asked other dialect maxRows none previousSql)) := by
  refine ⟨_, _, lines_userMessage .., lines_userMessage .., ?_⟩
  simp only [List.map_cons, List.map_append, kinds_renderContext same one oneOther]

private def orders (comment : Option String) : RetrievalResult :=
  ⟨[⟨"column", "orders", some "total", some "numeric", comment, "", .finite 1⟩], []⟩

end PromptLines
