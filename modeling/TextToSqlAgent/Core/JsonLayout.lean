import TextToSqlAgent.Core.JsonText
import TextToSqlAgent.Core.Numbers

/-!
# JSON laid out on lines

`json.dumps` with an indent, and with none: between the parts of a value stand
blanks. Whatever blanks they are, the value is read as it was written, its numbers
included.
-/

namespace JsonLayout

open Python JsonText FloatText Numbers

/-- What stands in front of the first part of a value, between its parts and behind
the last one, by how deep the value is. -/
structure Layout where
  opening : Nat → List Char
  between : Nat → List Char
  closing : Nat → List Char

namespace Layout

/-- `json.dumps` without an indent. -/
def inline : Layout := ⟨fun _ => [], fun _ => [' '], fun _ => []⟩

def line (indent depth : Nat) : List Char := '\n' :: List.replicate (indent * depth) ' '

/-- `json.dumps` with an indent. -/
def indented (indent : Nat) : Layout :=
  ⟨fun depth => line indent (depth + 1), fun depth => line indent (depth + 1), line indent⟩

structure Blank (l : Layout) : Prop where
  opening : ∀ depth, ∀ c ∈ l.opening depth, isBlank c = true
  between : ∀ depth, ∀ c ∈ l.between depth, isBlank c = true
  closing : ∀ depth, ∀ c ∈ l.closing depth, isBlank c = true

theorem blank_line {indent depth : Nat} : ∀ c ∈ line indent depth, isBlank c = true := by
  intro c listed
  rcases List.mem_cons.mp listed with rfl | space
  · decide
  · obtain rfl := List.eq_of_mem_replicate space
    decide

theorem blank_inline : inline.Blank := by
  refine ⟨fun depth => nofun, fun depth c listed => ?_, fun depth => nofun⟩
  obtain rfl := List.mem_singleton.mp listed
  decide

theorem blank_indented (indent : Nat) : (indented indent).Blank :=
  ⟨fun _ => blank_line, fun _ => blank_line, fun _ => blank_line⟩

end Layout

section Layouts

variable (l : Layout)

mutual

def layoutChars (depth : Nat) : Json → List Char
  | .null => "null".toList
  | .bool b => (if b then "true" else "false").toList
  | .int n => (toString n).toList
  | .float (.finite q) => FloatText.floatText q
  | .float (.inf negative) => (if negative then "-Infinity" else "Infinity").toList
  | .float .nan => "NaN".toList
  | .str s => quoted s
  | .arr [] => ['[', ']']
  | .arr (item :: items) =>
    '[' :: (l.opening depth ++ (layoutChars (depth + 1) item ++ layoutItems depth items))
  | .obj [] => ['{', '}']
  | .obj ((key, value) :: members) =>
    '{' :: (l.opening depth ++ (quoted key ++ ':' :: ' ' ::
      (layoutChars (depth + 1) value ++ layoutMembers depth members)))

/-- What follows an item of a list. -/
def layoutItems (depth : Nat) : List Json → List Char
  | [] => l.closing depth ++ [']']
  | item :: items =>
    ',' :: (l.between depth ++ (layoutChars (depth + 1) item ++ layoutItems depth items))

/-- What follows a member of an object. -/
def layoutMembers (depth : Nat) : List (String × Json) → List Char
  | [] => l.closing depth ++ ['}']
  | (key, value) :: members =>
    ',' :: (l.between depth ++ (quoted key ++ ':' :: ' ' ::
      (layoutChars (depth + 1) value ++ layoutMembers depth members)))

end

/-- `json.dumps(value)` in a layout. -/
def layout (value : Json) : String := String.ofList (layoutChars l 0 value)

end Layouts

/-- `json.dumps(value, indent=2)`. -/
def dumpsIndented (value : Json) : String := layout (.indented 2) value

example : dumpsIndented (.obj [("a", .arr [.int 1, .obj []]), ("b", .float .nan)]) =
    "\x7b\n  \"a\": [\n    1,\n    \x7b\x7d\n  ],\n  \"b\": NaN\n\x7d" := by decide +kernel

/-! ## Values that come back -/

/-- A value that Python can hold and read again: its floats are floats, its ints have
no more digits than are read, and no key is twice in an object. -/
inductive Lasting : Json → Prop
  | null : Lasting .null
  | bool (b : Bool) : Lasting (.bool b)
  | int {n : Int} (readable : Readable n) : Lasting (.int n)
  | finite {q : Rat} (float : IsFloat q) : Lasting (.float (.finite q))
  | inf (negative : Bool) : Lasting (.float (.inf negative))
  | nan : Lasting (.float .nan)
  | str (s : String) : Lasting (.str s)
  | arr (items : List Json) (each : ∀ item ∈ items, Lasting item) : Lasting (.arr items)
  | obj (members : List (String × Json)) (distinct : (members.map Prod.fst).Nodup)
      (each : ∀ m ∈ members, Lasting m.2) : Lasting (.obj members)

theorem lasting_of_plain {value : Json} (plain : Plain value) : Lasting value := by
  induction plain with
  | null => exact .null
  | bool b => exact .bool b
  | str s => exact .str s
  | arr items _ ih => exact .arr items ih
  | obj members distinct _ ih => exact .obj members distinct ih

/-! ## Blanks are skipped -/

theorem skipBlanks_append {blanks : List Char} (blank : ∀ c ∈ blanks, isBlank c = true)
    (rest : List Char) : skipBlanks (blanks ++ rest) = skipBlanks rest := by
  rw [skipBlanks, List.dropWhile_append_of_pos blank]
  rfl

theorem skipBlanks_cons {c : Char} (visible : isBlank c = false) (rest : List Char) :
    skipBlanks (c :: rest) = c :: rest := by
  rw [skipBlanks, List.dropWhile_cons_of_neg (by simp [visible])]

/-! ## Numbers are no constants -/

theorem begins_isNumber {text : List Char} (number : IsNumber text) :
    (∃ c rest, text = c :: rest ∧ isDigit c = true) ∨
      ∃ c rest, text = '-' :: c :: rest ∧ isDigit c = true := by
  have unsigned {text : List Char} (own : Unsigned text) :
      ∃ c rest, text = c :: rest ∧ isDigit c = true := by
    obtain ⟨whole, fraction, exponent, digits, -, -, rfl⟩ := own
    obtain ⟨c, rest, rfl⟩ := List.exists_cons_of_ne_nil digits.1.1
    exact ⟨c, rest ++ (fraction ++ exponent), rfl, digits.1.2 c List.mem_cons_self⟩
  rcases number with own | ⟨rest, own, rfl⟩
  · exact Or.inl (unsigned own)
  · obtain ⟨c, rest, rfl, digit⟩ := unsigned own
    exact Or.inr ⟨c, rest, rfl, digit⟩

theorem constants_letters : ∀ constant ∈ constants, ∃ c d more,
    constant.1.toList = c :: d :: more ∧ isDigit c = false ∧ isDigit d = false := by
  intro constant listed
  simp only [constants, List.mem_cons, List.not_mem_nil, or_false] at listed
  rcases listed with rfl | rfl | rfl | rfl | rfl | rfl
  all_goals exact ⟨_, _, _, rfl, by decide, by decide⟩

theorem scanAtom_number {text rest : List Char} {read : Except JsonError (Json × List Char)}
    (number : IsNumber text) (scanned : scanNumber (text ++ rest) = some read) :
    scanAtom (text ++ rest) = read := by
  have apart {c d : Char} (letter : isDigit c = false) (digit : isDigit d = true) :
      (c == d) = false := by
    rw [beq_eq_false_iff_ne]
    rintro rfl
    rw [letter] at digit
    cases digit
  have none : (constants.find? fun constant =>
      constant.1.toList.isPrefixOf (text ++ rest)) = none := by
    rw [List.find?_eq_none]
    intro constant listed
    obtain ⟨c, d, more, letters, first, second⟩ := constants_letters constant listed
    rw [letters, Bool.not_eq_true]
    rcases begins_isNumber number with ⟨x, tail, rfl, digit⟩ | ⟨x, tail, rfl, digit⟩
    · simp [List.isPrefixOf, apart first digit]
    · simp [List.isPrefixOf, apart second digit]
  rw [scanAtom, none, scanned]
  rfl

theorem parseValue_number {text rest : List Char} {value : Json} (number : IsNumber text)
    (scanned : scanNumber (text ++ rest) = some (.ok (value, rest))) (fuel : Nat) :
    parseValue (fuel + 1) (text ++ rest) = .ok (value, rest) := by
  have atom := scanAtom_number number scanned
  rcases begins_isNumber number with ⟨c, tail, rfl, digit⟩ | ⟨c, tail, rfl, -⟩
  · rw [List.cons_append] at atom ⊢
    rw [parseValue]
    · exact atom
    all_goals
      rintro later same
      obtain rfl := (List.cons.inj same).1
      cases digit
  · exact atom

/-! ## A value is read as it was laid out -/

variable {l : Layout}

/-- What a value may begin with. -/
def First (c : Char) : Prop := isBlank c = false ∧ c ≠ ']' ∧ c ≠ '}' ∧ c.toNat < 128

instance : DecidablePred First := fun c =>
  inferInstanceAs (Decidable (isBlank c = false ∧ c ≠ ']' ∧ c ≠ '}' ∧ c.toNat < 128))

theorem first_digit {c : Char} (digit : isDigit c = true) : First c := by
  refine ⟨?_, ?_, ?_, ?_⟩
  · by_contra blank
    simp only [Bool.not_eq_false, isBlank, Bool.or_eq_true, decide_eq_true_eq] at blank
    rcases blank with ((rfl | rfl) | rfl) | rfl <;> cases digit
  · rintro rfl
    cases digit
  · rintro rfl
    cases digit
  · simp only [isDigit, Bool.and_eq_true, decide_eq_true_eq] at digit
    omega

theorem first_number {text : List Char} (number : IsNumber text) :
    ∃ c rest, text = c :: rest ∧ First c := by
  rcases begins_isNumber number with ⟨c, rest, rfl, digit⟩ | ⟨c, rest, rfl, -⟩
  · exact ⟨c, rest, rfl, first_digit digit⟩
  · exact ⟨'-', c :: rest, rfl, by decide⟩

theorem first_layoutChars (value : Json) (depth : Nat) :
    ∃ c rest, layoutChars l depth value = c :: rest ∧ First c := by
  cases value with
  | null => exact ⟨_, _, rfl, by decide⟩
  | bool b => cases b <;> exact ⟨_, _, rfl, by decide⟩
  | int n =>
    rw [layoutChars]
    exact first_number (isNumber_intText n)
  | float x =>
    match x with
    | .finite q =>
      rw [layoutChars]
      exact first_number (isNumber_floatText q)
    | .inf true => exact ⟨_, _, rfl, by decide⟩
    | .inf false => exact ⟨_, _, rfl, by decide⟩
    | .nan => exact ⟨_, _, rfl, by decide⟩
  | str s => exact ⟨_, _, rfl, by decide⟩
  | arr items => cases items <;> exact ⟨_, _, rfl, by decide⟩
  | obj members => cases members <;> exact ⟨_, _, rfl, by decide⟩

theorem begins_layoutChars (value : Json) (depth : Nat) : Begins (layoutChars l depth value) := by
  obtain ⟨c, rest, written, visible, noBracket, noBrace, -⟩ := first_layoutChars value depth
  exact ⟨c, rest, written, visible, noBracket, noBrace⟩

variable (l) in
/-- With fuel for its length, a value is read as it was laid out, whatever follows it
that does not go on with a number. -/
def Returns (value : Json) : Prop :=
  ∀ depth fuel rest, Stops rest → 2 * (layoutChars l depth value).length ≤ fuel →
    parseValue fuel (layoutChars l depth value ++ rest) = .ok (value, rest)

theorem stops_of_first {c : Char} {rest : List Char}
    (first : isDigit c = false ∧ c ≠ '.' ∧ c ≠ 'e' ∧ c ≠ 'E') : Stops (c :: rest) := by
  rintro d ⟨⟩
  exact first

theorem stops_blank {blanks rest : List Char} (blank : ∀ c ∈ blanks, isBlank c = true)
    (stops : Stops rest) : Stops (blanks ++ rest) := by
  cases blanks with
  | nil => exact stops
  | cons c blanks =>
    have own := blank c List.mem_cons_self
    simp only [isBlank, Bool.or_eq_true, decide_eq_true_eq] at own
    refine stops_of_first ?_
    rcases own with ((rfl | rfl) | rfl) | rfl <;> decide

theorem parseItems_layout (blank : l.Blank) (depth : Nat) (item : Json) (items : List Json)
    (each : ∀ value ∈ item :: items, Returns l value) (fuel : Nat) (rest : List Char)
    (enough : 2 * (layoutChars l (depth + 1) item ++ layoutItems l depth items).length ≤ fuel) :
    parseItems fuel (layoutChars l (depth + 1) item ++ (layoutItems l depth items ++ rest)) =
      .ok (item :: items, rest) := by
  induction items generalizing item fuel with
  | nil =>
    simp only [layoutItems, List.length_append, List.length_cons, List.length_nil] at enough
    obtain ⟨fuel, rfl⟩ : ∃ less, fuel = less + 1 := ⟨fuel - 1, by omega⟩
    have stops : Stops (l.closing depth ++ ']' :: rest) :=
      stops_blank (blank.closing depth) (stops_of_first (by decide))
    have first := each item List.mem_cons_self (depth + 1) fuel _ stops (by omega)
    simp only [layoutItems, List.append_assoc, List.cons_append, List.nil_append]
    rw [parseItems, first]
    simp only [bind, Except.bind, skipBlanks_append (blank.closing depth)]
    rw [skipBlanks_cons (by decide)]
    rfl
  | cons next items ih =>
    simp only [layoutItems, List.length_append, List.length_cons] at enough
    obtain ⟨fuel, rfl⟩ : ∃ less, fuel = less + 1 := ⟨fuel - 1, by omega⟩
    have first := each item List.mem_cons_self (depth + 1) fuel
      (',' :: (l.between depth ++ (layoutChars l (depth + 1) next ++
        (layoutItems l depth items ++ rest)))) (stops_of_first (by decide)) (by omega)
    have later := ih next (fun value listed => each value (List.mem_cons_of_mem _ listed)) fuel
      (by rw [List.length_append]; omega)
    simp only [layoutItems, List.cons_append, List.append_assoc]
    rw [parseItems, first]
    change (parseItems fuel (skipBlanks (l.between depth ++ (layoutChars l (depth + 1) next ++
      (layoutItems l depth items ++ rest)))) >>= fun found =>
        Except.ok (item :: found.1, found.2)) = _
    rw [skipBlanks_append (blank.between depth), skipBlanks_of_begins (begins_layoutChars _ _),
      later]
    rfl

theorem parseMembers_layout (blank : l.Blank) (depth : Nat) (key : String) (value : Json)
    (members : List (String × Json))
    (each : ∀ m ∈ (key, value) :: members, Returns l m.2) (fuel : Nat) (rest : List Char)
    (enough : 2 * (quoted key ++ ':' :: ' ' ::
      (layoutChars l (depth + 1) value ++ layoutMembers l depth members)).length ≤ fuel) :
    parseMembers fuel (quoted key ++ ':' :: ' ' ::
        (layoutChars l (depth + 1) value ++ (layoutMembers l depth members ++ rest))) =
      .ok ((key, value) :: members, rest) := by
  have skipped (value : Json) (rest : List Char) :
      skipBlanks (' ' :: (layoutChars l (depth + 1) value ++ rest)) =
        layoutChars l (depth + 1) value ++ rest :=
    skipBlanks_of_begins (begins_layoutChars value (depth + 1)) rest
  induction members generalizing key value fuel with
  | nil =>
    simp only [layoutMembers, List.length_append, List.length_cons, List.length_nil] at enough
    obtain ⟨fuel, rfl⟩ : ∃ less, fuel = less + 1 := ⟨fuel - 1, by omega⟩
    have stops : Stops (l.closing depth ++ '}' :: rest) :=
      stops_blank (blank.closing depth) (stops_of_first (by decide))
    have own : Returns l value := each (key, value) List.mem_cons_self
    have first := own (depth + 1) fuel _ stops (by omega)
    rw [← skipped] at first
    simp only [layoutMembers, List.append_assoc, List.cons_append, List.nil_append]
    rw [parseMembers_step (' ' :: _) first, skipBlanks_append (blank.closing depth),
      skipBlanks_cons (by decide)]
    rfl
  | cons next members ih =>
    obtain ⟨name, other⟩ := next
    simp only [layoutMembers, List.length_append, List.length_cons] at enough
    obtain ⟨fuel, rfl⟩ : ∃ less, fuel = less + 1 := ⟨fuel - 1, by omega⟩
    have own : Returns l value := each (key, value) List.mem_cons_self
    have first := own (depth + 1) fuel
      (',' :: (l.between depth ++ (quoted name ++ ':' :: ' ' ::
        (layoutChars l (depth + 1) other ++ (layoutMembers l depth members ++ rest)))))
      (stops_of_first (by decide)) (by omega)
    have later := ih name other (fun m listed => each m (List.mem_cons_of_mem _ listed)) fuel
      (by simp only [List.length_append, List.length_cons]; omega)
    have quote : skipBlanks (quoted name ++ ':' :: ' ' ::
        (layoutChars l (depth + 1) other ++ (layoutMembers l depth members ++ rest))) =
          quoted name ++ ':' :: ' ' ::
            (layoutChars l (depth + 1) other ++ (layoutMembers l depth members ++ rest)) :=
      skipBlanks_cons (by decide) _
    rw [← skipped] at first
    simp only [layoutMembers, List.cons_append, List.append_assoc]
    refine (parseMembers_step (' ' :: _) first).trans ?_
    rw [skipBlanks_cons (by decide)]
    change (parseMembers fuel (skipBlanks (l.between depth ++ (quoted name ++ ':' :: ' ' ::
      (layoutChars l (depth + 1) other ++ (layoutMembers l depth members ++ rest))))) >>=
        fun found => Except.ok ((key, value) :: found.1, found.2)) = _
    rw [skipBlanks_append (blank.between depth), quote, later]
    rfl

/-- A text that is not empty leaves fuel to begin with. -/
theorem returns_of_succ {value : Json}
    (reads : ∀ depth fuel rest, Stops rest →
      2 * (layoutChars l depth value).length ≤ fuel + 1 →
      parseValue (fuel + 1) (layoutChars l depth value ++ rest) = .ok (value, rest)) :
    Returns l value := by
  intro depth fuel rest stops enough
  obtain ⟨c, tail, written, -⟩ : Begins (layoutChars l depth value) := begins_layoutChars _ _
  have positive : 0 < (layoutChars l depth value).length := by
    rw [written]
    exact Nat.succ_pos _
  obtain ⟨fuel, rfl⟩ : ∃ less, fuel = less + 1 := ⟨fuel - 1, by omega⟩
  exact reads depth fuel rest stops enough

/-- Every lasting value is read as it was laid out. -/
theorem returns (blank : l.Blank) {value : Json} (lasting : Lasting value) : Returns l value := by
  induction lasting with
  | null => exact returns_of_succ fun depth fuel rest _ _ => rfl
  | bool b =>
    refine returns_of_succ fun depth fuel rest _ _ => ?_
    cases b <;> rfl
  | int readable =>
    refine returns_of_succ fun depth fuel rest stops _ => ?_
    rw [layoutChars]
    exact parseValue_number (isNumber_intText _) (scanNumber_intText readable stops) fuel
  | finite float =>
    refine returns_of_succ fun depth fuel rest stops _ => ?_
    rw [layoutChars]
    exact parseValue_number (isNumber_floatText _) (scanNumber_floatText float stops) fuel
  | inf negative =>
    refine returns_of_succ fun depth fuel rest _ _ => ?_
    cases negative <;> rfl
  | nan => exact returns_of_succ fun depth fuel rest _ _ => rfl
  | str s =>
    refine returns_of_succ fun depth fuel rest _ _ => ?_
    rw [layoutChars, quoted, List.cons_append, parseValue, scanString_escape]
    change Except.ok (Json.str (String.ofList s.toList), rest) = _
    rw [String.ofList_toList]
  | arr items each ih =>
    refine returns_of_succ fun depth fuel rest _ enough => ?_
    cases items with
    | nil => rfl
    | cons item items =>
      simp only [layoutChars, List.length_cons, List.length_append] at enough
      have read := parseItems_layout blank depth item items ih fuel rest
        (by rw [List.length_append]; omega)
      have begins : Begins (layoutChars l (depth + 1) item) := begins_layoutChars _ _
      have skipped := skipBlanks_of_begins begins (layoutItems l depth items ++ rest)
      obtain ⟨c, tail, written, -, noBracket, -⟩ := begins
      simp only [layoutChars, List.cons_append, List.append_assoc]
      rw [parseValue, skipBlanks_append (blank.opening depth), skipped]
      split
      · rename_i same
        rw [written] at same
        exact absurd (List.cons.inj same).1 noBracket
      · rw [read]
        rfl
  | obj members distinct each ih =>
    refine returns_of_succ fun depth fuel rest _ enough => ?_
    cases members with
    | nil => rfl
    | cons first members =>
      obtain ⟨key, value⟩ := first
      simp only [layoutChars, List.length_cons, List.length_append] at enough
      have read := parseMembers_layout blank depth key value members ih fuel rest
        (by simp only [List.length_append, List.length_cons]; omega)
      simp only [layoutChars, List.cons_append, List.append_assoc]
      rw [parseValue, skipBlanks_append (blank.opening depth), quoted, List.cons_append,
        skipBlanks_cons (by decide)]
      rw [quoted, List.cons_append] at read
      change (parseMembers fuel _ >>= fun found =>
        Except.ok (Json.obj (Dictionary.ofList found.1).entries, found.2)) = _
      rw [read]
      change Except.ok (Json.obj (Dictionary.ofList ((key, value) :: members)).entries, rest) = _
      rw [Dictionary.entries_ofList distinct]

/-- `json.loads` of what was laid out, and of the blanks after it. -/
theorem loads_layout (blank : l.Blank) {value : Json} (lasting : Lasting value)
    (after : List Char) (blanks : ∀ c ∈ after, isBlank c = true) :
    loads (layout l value ++ String.ofList after) = .ok value := by
  obtain ⟨c, rest, written, first⟩ : ∃ c rest, layoutChars l 0 value = c :: rest ∧ First c :=
    first_layoutChars _ _
  have chars : (layout l value ++ String.ofList after).toList = layoutChars l 0 value ++ after := by
    rw [layout, String.toList_append, String.toList_ofList, String.toList_ofList]
  have noMark : (layoutChars l 0 value ++ after).head? ≠ some (Char.ofNat 0xFEFF) := by
    rw [written, List.cons_append, List.head?_cons, ne_eq, Option.some.injEq]
    rintro rfl
    exact absurd first.2.2.2 (by decide)
  have begins : Begins (layoutChars l 0 value) := begins_layoutChars _ _
  have begin := skipBlanks_of_begins begins after
  have stops : Stops after := by
    have all := stops_blank blanks stops_nil
    rwa [List.append_nil] at all
  have back : Returns l value := returns blank lasting
  have read := back 0 (2 * (layoutChars l 0 value ++ after).length + 1) after stops
    (by rw [List.length_append]; omega)
  have nothing : skipBlanks after = [] := List.dropWhile_eq_nil_iff.mpr blanks
  simp only [loads, chars]
  rw [if_neg noMark, begin, read]
  change (if (skipBlanks after).isEmpty then Except.ok value else .error (JsonError.decode "Extra data")) = _
  rw [nothing]
  rfl

/-- `json.loads(json.dumps(value, indent=2) + "\n") == value`. -/
theorem loads_dumpsIndented {value : Json} (lasting : Lasting value) :
    loads (dumpsIndented value ++ "\n") = .ok value := by
  refine loads_layout (Layout.blank_indented 2) lasting ['\n'] fun c listed => ?_
  obtain rfl := List.mem_singleton.mp listed
  decide

end JsonLayout
