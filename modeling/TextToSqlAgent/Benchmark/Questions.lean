import TextToSqlAgent.Benchmark.Load
import TextToSqlAgent.Evals.Verified

/-!
# Which databases are reserved

A benchmark's question file is one JSON array, whatever its layout, and each
benchmark has a reader for it. The databases to keep out of training are read by
a loop over the lines of the same file, each of which it takes for an object. A
line on which an array begins is none.
-/

namespace Questions

open Python JsonText Exceptions Identifiers Runner Gold Verify Load

/-! ## Readers -/

/-- What reading a file raises: an `OSError`, or text that is no UTF-8. -/
inductive ReadFailure
  | os (text : String)
  | undecodable (text : String)
  deriving DecidableEq, Repr

/-- A file with its path, the last part of it, and what `read_text` gives. -/
structure QuestionFile where
  path : String
  name : String
  content : Except ReadFailure String

/-- `path.stem`: the last part without its suffix, if a name is before it. -/
def QuestionFile.stem (file : QuestionFile) : String :=
  let suffix := file.name.toList.reverse.takeWhile (· != '.')
  let rest := file.name.toList.reverse.dropWhile (· != '.')
  match rest with
  | _ :: c :: before => if suffix.isEmpty then file.name else String.ofList (c :: before).reverse
  | _ => file.name

section readers

variable (unicode : Unicode) (other : Json → String) (located : String → String → String)

/-- Load a benchmark question file, which is a single large JSON array. -/
def records (file : QuestionFile) : Except Raised (List (List (String × Json))) :=
  match file.content with
  | .error (.os text) => .error (.domain (benchmarkError s!"cannot read {file.path}: {text}"))
  | .error (.undecodable text) => .error (.unexpected text)
  | .ok text =>
    match loads text with
    | .error (.decode message) =>
      let shown := located text message
      .error (.domain (benchmarkError s!"cannot read {file.path}: {shown}"))
    | .error (.value message) => .error (.unexpected message)
    | .error .surrogate => .error (.unexpected "surrogates not allowed")
    | .ok (.arr items) =>
      .ok (items.filterMap fun
        | .obj members => some members
        | _ => none)
    | .ok _ =>
      .error (.domain (benchmarkError s!"{file.path} should hold a JSON array of questions"))

/-- The text of a field that has to be there. -/
def require (record : List (String × Json)) (key : String) (file : QuestionFile) (index : Nat) :
    Except Raised String :=
  let missing : Except Raised String :=
    let shown := repr unicode key
    .error (.domain (benchmarkError s!"{file.path}[{index}] has no {shown}"))
  match Json.get? record key with
  | none => missing
  | some .null => missing
  | some value => if strip (strOf other value) = "" then missing else .ok (strOf other value)

/-- `f"{index:05d}"`. -/
def padded (index : Nat) : String :=
  let digits := toString index
  String.ofList (List.replicate (5 - digits.length) '0') ++ digits

/-- Spider's records have no id of their own. -/
def spiderQuestion (dataset : String) (file : QuestionFile)
    (entry : List (String × Json) × Nat) : Except Raised Question := do
  let number := padded entry.2
  let question ← require unicode other entry.1 "question" file entry.2
  let goldSql ← require unicode other entry.1 "query" file entry.2
  let dbId ← require unicode other entry.1 "db_id" file entry.2
  return { questionId := s!"{dataset}:{file.stem}:{number}"
           question := question
           goldSql := goldSql
           dataset := dataset
           dbId := dbId }

/-- BIRD's records have an id, but for those that do not. -/
def birdQuestion (dataset : String) (file : QuestionFile)
    (entry : List (String × Json) × Nat) : Except Raised Question := do
  let number := match Json.get? entry.1 "question_id" with
    | none => padded entry.2
    | some .null => padded entry.2
    | some value => strOf other value
  let question ← require unicode other entry.1 "question" file entry.2
  let goldSql ← require unicode other entry.1 "SQL" file entry.2
  let dbId ← require unicode other entry.1 "db_id" file entry.2
  return { questionId := s!"{dataset}:{number}"
           question := question
           goldSql := goldSql
           dataset := dataset
           dbId := dbId }

/-- Read `train_spider.json` or `dev.json`. -/
def readSpider (file : QuestionFile) (dataset : String := "spider") :
    Except Raised (List Question) := do
  let found ← records located file
  found.zipIdx.mapM (spiderQuestion unicode other dataset file)

/-- Read BIRD's `dev.json` or `train.json`. -/
def readBird (file : QuestionFile) (dataset : String := "bird") :
    Except Raised (List Question) := do
  let found ← records located file
  found.zipIdx.mapM (birdQuestion unicode other dataset file)

/-- The keys of `READERS`. -/
inductive Benchmark
  | spider
  | bird
  deriving DecidableEq, Repr

/-- `READERS[benchmark]`. -/
def reader : Benchmark → QuestionFile → Except Raised (List Question)
  | .spider, file => readSpider unicode other located file
  | .bird, file => readBird unicode other located file

end readers

/-! ## Reservation -/

section reserving

variable (unicode : Unicode) (other : Json → String)

/-- `str(json.loads(line)["db_id"])`. -/
def dbIdOfLine (line : String) : Except Raised String :=
  match loads line with
  | .error (.decode message) => .error (.unexpected message)
  | .error (.value message) => .error (.unexpected message)
  | .error .surrogate => .error (.unexpected "surrogates not allowed")
  | .ok (.obj members) =>
    match Json.get? members "db_id" with
    | some value => .ok (strOf other value)
    | none => .error (.unexpected "'db_id'")
  | .ok (.arr _) => .error (.unexpected "list indices must be integers or slices, not str")
  | .ok (.str _) => .error (.unexpected "string indices must be integers, not 'str'")
  | .ok value => .error (.unexpected s!"'{value.typeName}' object is not subscriptable")

/-- The lines that are not blank. -/
def writtenLines (text : String) : List String :=
  (splitlines text).filter fun line => strip line ≠ ""

def namesOfFile (file : QuestionFile) : Except Raised (List String) :=
  match file.content with
  | .error (.os text) => .error (.unexpected text)
  | .error (.undecodable text) => .error (.unexpected text)
  | .ok text => (writtenLines text).mapM (dbIdOfLine other)

/-- The database names appearing in the benchmark's own evaluation files. -/
def reservedDatabases (files : List QuestionFile) : Except Raised (Finset String) :=
  if files.isEmpty then .ok ∅
  else do
    let names ← files.mapM (namesOfFile other)
    if names.flatten.isEmpty then
      let shown := ", ".intercalate (files.map fun file => s!"PosixPath({repr unicode file.path})")
      throw (.domain (benchmarkError
        s!"--reserve named [{shown}] but no db_id was found in them"))
    else return names.flatten.toFinset

end reserving

/-! ## Where an array begins -/

/-- A constant or a number is no array. -/
theorem scanAtom_ne_arr {text : List Char} {items : List Json} {rest : List Char} :
    scanAtom text ≠ .ok (.arr items, rest) := by
  intro scanned
  rw [scanAtom] at scanned
  split at scanned
  case h_1 constant found =>
    have listed := List.mem_of_find?_eq_some found
    have value : constant.2 = .arr items := congrArg Prod.fst (Except.ok.inj scanned)
    simp only [constants, List.mem_cons, List.not_mem_nil, or_false] at listed
    rcases listed with rfl | rfl | rfl | rfl | rfl | rfl <;> cases value
  case h_2 =>
    simp only [scanNumber] at scanned
    split at scanned
    · cases scanned
    · split at scanned
      · cases scanned
      · split at scanned <;> cases scanned

/-- What begins with a bracket is an array or nothing. -/
theorem arr_of_parseValue {fuel : Nat} {text rest : List Char} {value : Json}
    (parsed : parseValue fuel ('[' :: text) = .ok (value, rest)) : ∃ items, value = .arr items := by
  cases fuel with
  | zero => cases parsed
  | succ fuel =>
    rw [parseValue] at parsed
    split at parsed
    · exact ⟨[], (congrArg Prod.fst (Except.ok.inj parsed)).symm⟩
    · obtain ⟨⟨items, more⟩, -, returned⟩ := Fallible.bind_ok_iff.mp parsed
      exact ⟨items, (congrArg Prod.fst (Except.ok.inj returned)).symm⟩

/-- An array begins with a bracket. -/
theorem bracket_of_parseValue {fuel : Nat} {text rest : List Char} {items : List Json}
    (parsed : parseValue fuel text = .ok (.arr items, rest)) : ∃ more, text = '[' :: more := by
  cases fuel with
  | zero => cases parsed
  | succ fuel =>
    unfold parseValue at parsed
    split at parsed
    case h_1 =>
      obtain ⟨_, -, returned⟩ := Fallible.bind_ok_iff.mp parsed
      cases returned
    case h_2 more => exact ⟨more, rfl⟩
    case h_3 =>
      split at parsed
      · cases parsed
      · obtain ⟨_, -, returned⟩ := Fallible.bind_ok_iff.mp parsed
        cases returned
    case h_4 => exact absurd parsed scanAtom_ne_arr

/-- A text that is read is one value, with blanks around it. -/
theorem parsed_of_loads {text : String} {value : Json} (loaded : loads text = .ok value) :
    ∃ fuel rest, parseValue fuel (skipBlanks text.toList) = .ok (value, rest) := by
  rw [loads] at loaded
  by_cases marked : text.toList.head? = some (Char.ofNat 0xFEFF)
  · rw [if_pos marked] at loaded
    cases loaded
  · rw [if_neg marked] at loaded
    obtain ⟨⟨found, rest⟩, parsed, ended⟩ := Fallible.bind_ok_iff.mp loaded
    refine ⟨2 * text.toList.length + 1, rest, ?_⟩
    by_cases complete : (skipBlanks rest).isEmpty = true
    · simp only [complete, if_true, pure, Except.pure, Except.ok.injEq] at ended
      exact ended ▸ parsed
    · simp [complete, throw, throwThe, MonadExceptOf.throw] at ended

theorem bracket_of_loads {text : String} {items : List Json}
    (loaded : loads text = .ok (.arr items)) : ∃ more, skipBlanks text.toList = '[' :: more := by
  obtain ⟨fuel, rest, parsed⟩ := parsed_of_loads loaded
  exact bracket_of_parseValue parsed

theorem arr_of_loads {text : String} {more : List Char} {value : Json}
    (begins : skipBlanks text.toList = '[' :: more) (loaded : loads text = .ok value) :
    ∃ items, value = .arr items := by
  obtain ⟨fuel, rest, parsed⟩ := parsed_of_loads loaded
  rw [begins] at parsed
  exact arr_of_parseValue parsed

/-- What JSON skips is white space for Python too, and only some of it ends a line. -/
theorem isSpace_of_isBlank {c : Char} (blank : isBlank c = true) : isSpace c = true := by
  simp only [isBlank, Bool.or_eq_true, decide_eq_true_eq] at blank
  rcases blank with ((rfl | rfl) | rfl) | rfl <;> decide

/-- The line on which the first character that is not blank stands: it is listed,
and begins with that character after blanks. -/
theorem line_of_skipBlanks {text more : List Char} {c : Char}
    (begins : skipBlanks text = c :: more) (unbroken : isLineBreak c = false)
    (visible : isBlank c = false) :
    ∃ line ∈ splitLines text, ∃ rest, skipBlanks line = c :: rest := by
  induction text using splitLines.induct with
  | case1 => cases begins
  | case2 text hyp =>
    have later : skipBlanks text = c :: more := by
      simpa [skipBlanks, isBlank, List.dropWhile_cons] using begins
    obtain ⟨line, listed, own⟩ := hyp later
    rw [splitLines]
    exact ⟨line, List.mem_cons_of_mem _ listed, own⟩
  | case3 d text single broken hyp =>
    have skipped : isBlank d = true := by
      by_contra kept
      rw [skipBlanks, List.dropWhile_cons, if_neg kept] at begins
      cases begins
      exact absurd broken (by simp [unbroken])
    rw [skipBlanks, List.dropWhile_cons, if_pos skipped] at begins
    obtain ⟨line, listed, own⟩ := hyp begins
    rw [splitLines, if_pos broken]
    · exact ⟨line, List.mem_cons_of_mem _ listed, own⟩
    · exact single
  | case4 d text single open_ none_ hyp =>
    rw [splitLines_cons (by simpa using open_), none_]
    by_cases skipped : isBlank d = true
    · rw [skipBlanks, List.dropWhile_cons, if_pos skipped] at begins
      obtain ⟨line, listed, -⟩ := hyp begins
      rw [none_] at listed
      cases listed
    · rw [skipBlanks, List.dropWhile_cons, if_neg skipped] at begins
      cases begins
      exact ⟨[c], List.mem_cons_self, [], by simp [skipBlanks, visible]⟩
  | case5 d text single open_ line lines some_ hyp =>
    rw [splitLines_cons (by simpa using open_), some_]
    by_cases skipped : isBlank d = true
    · rw [skipBlanks, List.dropWhile_cons, if_pos skipped] at begins
      obtain ⟨own, listed, rest, first⟩ := hyp begins
      rw [some_] at listed
      rcases List.mem_cons.mp listed with rfl | later
      · refine ⟨d :: own, List.mem_cons_self, rest, ?_⟩
        rw [skipBlanks, List.dropWhile_cons, if_pos skipped]
        exact first
      · exact ⟨own, List.mem_cons_of_mem _ later, rest, first⟩
    · rw [skipBlanks, List.dropWhile_cons, if_neg skipped] at begins
      cases begins
      exact ⟨c :: line, List.mem_cons_self, line, by simp [skipBlanks, visible]⟩

/-- A text that begins with a character that is not blank is not blank. -/
theorem strip_ne_empty {text rest : List Char} {c : Char} (begins : skipBlanks text = c :: rest)
    (visible : isSpace c = false) : strip (String.ofList text) ≠ "" := by
  intro blank
  have listed : c ∈ text := by
    have kept : c ∈ skipBlanks text := begins ▸ List.mem_cons_self
    exact (List.dropWhile_suffix _).subset kept
  have space := strip_eq_empty_iff.mp blank c (by rwa [String.toList_ofList])
  rw [visible] at space
  cases space

/-! ## What a reader accepts is not reserved -/

section guarding

variable {unicode : Unicode} {other : Json → String} {located : String → String → String}

/-- What a reader accepts is an array. -/
theorem arr_of_reader {benchmark : Benchmark} {file : QuestionFile} {questions : List Question}
    (accepted : reader unicode other located benchmark file = .ok questions) :
    ∃ text items, file.content = .ok text ∧ loads text = .ok (.arr items) := by
  have found : ∃ read, records located file = .ok read := by
    cases benchmark with
    | spider =>
      obtain ⟨read, loaded, -⟩ := Fallible.bind_ok_iff.mp accepted
      exact ⟨read, loaded⟩
    | bird =>
      obtain ⟨read, loaded, -⟩ := Fallible.bind_ok_iff.mp accepted
      exact ⟨read, loaded⟩
  obtain ⟨read, loaded⟩ := found
  rw [records] at loaded
  split at loaded
  · cases loaded
  · cases loaded
  · rename_i text content
    split at loaded
    case h_4 items parsed => exact ⟨text, items, content, parsed⟩
    all_goals cases loaded

/-- The line on which an array begins is no object, so the loop stops at it. -/
theorem namesOfFile_fails {file : QuestionFile} {text : String} {items : List Json}
    (content : file.content = .ok text) (loaded : loads text = .ok (.arr items))
    (names : List String) : namesOfFile other file ≠ .ok names := by
  intro read
  obtain ⟨more, begins⟩ := bracket_of_loads loaded
  obtain ⟨line, listed, rest, first⟩ := line_of_skipBlanks begins (by decide) (by decide)
  have written : String.ofList line ∈ writtenLines text := by
    refine List.mem_filter.mpr ⟨List.mem_map.mpr ⟨line, listed, rfl⟩, ?_⟩
    exact decide_eq_true (strip_ne_empty first (by decide))
  rw [namesOfFile, content] at read
  obtain ⟨name, named⟩ := Fallible.mapM_isOk_iff.mp ⟨names, read⟩ _ written
  cases parsed : loads (String.ofList line) with
  | error exc => cases exc <;> simp [dbIdOfLine, parsed] at named
  | ok value =>
    obtain ⟨inner, rfl⟩ := arr_of_loads (by rw [String.toList_ofList]; exact first) parsed
    simp [dbIdOfLine, parsed] at named

/-- No list of files is read in which there is one that a reader accepts. -/
theorem reservedDatabases_fails {files : List QuestionFile} {file : QuestionFile}
    {benchmark : Benchmark} {questions : List Question} (listed : file ∈ files)
    (accepted : reader unicode other located benchmark file = .ok questions)
    (names : Finset String) : reservedDatabases unicode other files ≠ .ok names := by
  intro reserved
  obtain ⟨text, items, content, loaded⟩ := arr_of_reader accepted
  rw [reservedDatabases, if_neg (by rintro none_; simp [List.isEmpty_iff.mp none_] at listed)]
    at reserved
  obtain ⟨found, read, -⟩ := Fallible.bind_ok_iff.mp reserved
  obtain ⟨own, named⟩ := Fallible.mapM_isOk_iff.mp ⟨found, read⟩ file listed
  exact namesOfFile_fails content loaded own named

/-- The guard: the file is read, and its names are the databases of its questions. -/
def Guards (unicode : Unicode) (other : Json → String) (file : QuestionFile)
    (questions : List Question) : Prop :=
  ∃ names, reservedDatabases unicode other [file] = .ok names ∧
    ∀ name, name ∈ names ↔ ∃ question ∈ questions, question.dbId = name

/-- No file that a reader accepts is guarded, however it is laid out. -/
theorem not_guards {benchmark : Benchmark} {file : QuestionFile} {questions : List Question}
    (accepted : reader unicode other located benchmark file = .ok questions) :
    ¬Guards unicode other file questions := by
  rintro ⟨names, reserved, -⟩
  exact reservedDatabases_fails List.mem_cons_self accepted names reserved

/-- A file of one question on one line. -/
private def oneQuestion : QuestionFile where
  path := "dev.json"
  name := "dev.json"
  content := .ok "[\x7b\"db_id\": \"a\", \"question\": \"q\", \"query\": \"SELECT 1\"\x7d]"

private def onlyQuestion : Question where
  questionId := "spider:dev:00000"
  question := "q"
  goldSql := "SELECT 1"
  dataset := "spider"
  dbId := "a"

private theorem oneQuestion_accepted :
    reader plainUnicode Json.typeName (fun _ message => message) .spider oneQuestion =
      .ok [onlyQuestion] := by
  decide +kernel

theorem not_guards_oneQuestion :
    ¬Guards plainUnicode Json.typeName oneQuestion [onlyQuestion] :=
  not_guards oneQuestion_accepted

/-- The file is accepted and has a question, and reserving it raises an error that
no caller handles. -/
theorem oneQuestion_raises :
    (∃ questions ≠ [], reader plainUnicode Json.typeName (fun _ message => message) .spider
        oneQuestion = .ok questions) ∧
      reservedDatabases plainUnicode Json.typeName [oneQuestion] =
        .error (.unexpected "list indices must be integers or slices, not str") :=
  ⟨⟨[onlyQuestion], by decide, oneQuestion_accepted⟩, by decide +kernel⟩

end guarding

/-! ## What the loop reads -/

/-- An object is never written as a blank line. -/
theorem writtenLines_writeJsonl {floatText : Rat → String} {rows : List (List (String × Json))}
    (plain : ∀ members ∈ rows, Plain (.obj members)) :
    writtenLines (writeJsonl floatText (rows.map Json.obj)) =
      rows.map fun members => dumps floatText (.obj members) := by
  have listed : ∀ row ∈ rows.map Json.obj, Plain row := by simpa using plain
  rw [writtenLines, splitlines_writeJsonl listed, List.map_map]
  refine List.filter_eq_self.mpr fun line own => ?_
  obtain ⟨members, -, rfl⟩ := List.mem_map.mp own
  exact decide_eq_true (Verified.strip_dumps_obj members)

/-- A file with one object to a line, as this package writes its own question
files, gives the databases of its objects. -/
theorem reservedDatabases_writeJsonl {unicode : Unicode} {other : Json → String}
    {floatText : Rat → String} {path name : String} {rows : List (List (String × Json))}
    {dbIds : List String} (written : rows ≠ [])
    (plain : ∀ members ∈ rows, Plain (.obj members))
    (named : rows.map (fun members => (Json.get? members "db_id").map (strOf other)) =
      dbIds.map some) :
    reservedDatabases unicode other
        [⟨path, name, .ok (writeJsonl floatText (rows.map Json.obj))⟩] = .ok dbIds.toFinset := by
  have lines : (rows.map fun members => dumps floatText (.obj members)).mapM (dbIdOfLine other) =
      .ok dbIds := by
    clear written
    induction rows generalizing dbIds with
    | nil =>
      obtain rfl : dbIds = [] := by simpa using named.symm
      rfl
    | cons members rest hyp =>
      obtain ⟨dbId, others, rfl⟩ : ∃ dbId others, dbIds = dbId :: others := by
        cases dbIds with
        | nil => cases named
        | cons dbId others => exact ⟨dbId, others, rfl⟩
      rw [List.map_cons, List.map_cons, List.cons.injEq] at named
      have later := hyp (fun m listed => plain m (List.mem_cons_of_mem _ listed)) named.2
      obtain ⟨value, stored, shown⟩ := Option.map_eq_some_iff.mp named.1
      refine Fallible.mapM_cons_ok_iff.mpr ⟨dbId, others, ?_, later, rfl⟩
      simp [dbIdOfLine, loads_dumps (plain members List.mem_cons_self), stored, shown]
  have nonempty : dbIds ≠ [] := by
    rintro rfl
    exact written (by simpa using named)
  have read : [QuestionFile.mk path name (.ok (writeJsonl floatText (rows.map Json.obj)))].mapM
      (namesOfFile other) = .ok [dbIds] := by
    refine Fallible.mapM_cons_ok_iff.mpr ⟨dbIds, [], ?_, rfl, rfl⟩
    rw [namesOfFile]
    exact (congrArg (·.mapM (dbIdOfLine other)) (writtenLines_writeJsonl plain)).trans lines
  rw [reservedDatabases, if_neg (by simp), read]
  simp [bind, Except.bind, nonempty, pure, Except.pure]

end Questions
