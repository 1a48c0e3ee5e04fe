import TextToSqlAgent.Profiling.Withheld

/-!
# Which types have extremes

The names that `format_type` reports of types, those among them that the profiler
lists, and those that only begin like a listed one.
-/

namespace TypeNames

open Python Exceptions Settings Catalog Schema Profiler Withheld

/-! ## The names of types -/

/-- What a quoted identifier need not be quoted for. -/
def isBareStart (c : Char) : Bool := (97 ≤ c.toNat && c.toNat ≤ 122) || c.toNat == 95
def isBareChar (c : Char) : Bool := isBareStart c || (48 ≤ c.toNat && c.toNat ≤ 57)

def isBare (keyword : String → Bool) (name : String) : Bool :=
  match name.toList with
  | [] => false
  | first :: rest => isBareStart first && rest.all isBareChar && !keyword name

/-- `quote_identifier`; `keyword` are the words that it does not leave bare. -/
def quoteIdentifier (keyword : String → Bool) (name : String) : String :=
  if isBare keyword name then name
  else "\"" ++ String.ofList (name.toList.flatMap fun c => if c = '"' then [c, c] else [c]) ++ "\""

/-- What an interval may be kept to. -/
inductive Field
  | year
  | month
  | day
  | hour
  | minute
  | second
  deriving DecidableEq, Repr

def Field.text : Field → String
  | .year => "year"
  | .month => "month"
  | .day => "day"
  | .hour => "hour"
  | .minute => "minute"
  | .second => "second"

/-- The types that have a name in the standard, and any other one: a range, an enum, a
domain, a composite, with its schema where that is shown. -/
inductive BaseType
  | smallint
  | integer
  | bigint
  | numeric
  | real
  | doublePrecision
  | interval (fields : Option (Field × Option Field))
  | time (zone : Bool)
  | timestamp (zone : Bool)
  | boolean
  | bit
  | bitVarying
  | character
  | characterVarying
  | named (schema : Option String) (name : String)
  deriving DecidableEq, Repr

/-- A type with its modifier, which stands between brackets, or the array of it. -/
structure TypeName where
  base : BaseType
  modifier : Option String := none
  isArray : Bool := false
  deriving DecidableEq, Repr

variable (keyword : String → Bool)

/-- The first name of a type. -/
def BaseType.lead : BaseType → String
  | .smallint => "smallint"
  | .integer => "integer"
  | .bigint => "bigint"
  | .numeric => "numeric"
  | .real => "real"
  | .doublePrecision => "double precision"
  | .interval _ => "interval"
  | .time _ => "time"
  | .timestamp _ => "timestamp"
  | .boolean => "boolean"
  | .bit => "bit"
  | .bitVarying => "bit varying"
  | .character => "character"
  | .characterVarying => "character varying"
  | .named none name => quoteIdentifier keyword name
  | .named (some schema) _ => quoteIdentifier keyword schema

/-- What stands between the first name and the modifier. -/
def BaseType.rest : BaseType → String
  | .interval (some (first, none)) => " " ++ first.text
  | .interval (some (first, some last)) => " " ++ first.text ++ " to " ++ last.text
  | .named (some _) name => "." ++ quoteIdentifier keyword name
  | _ => ""

def BaseType.zone : BaseType → String
  | .time true => " with time zone"
  | .time false => " without time zone"
  | .timestamp true => " with time zone"
  | .timestamp false => " without time zone"
  | _ => ""

def TypeName.brackets (t : TypeName) : String :=
  match t.modifier with
  | some modifier => "(" ++ modifier ++ ")"
  | none => ""

/-- `format_type`. -/
def TypeName.text (t : TypeName) : String :=
  t.base.lead keyword ++
    (t.base.rest keyword ++ (t.brackets ++ (t.base.zone ++ if t.isArray then "[]" else "")))

/-! ## Listed types -/

/-- Whether a type is one of those listed: with a schema it is another type of that name. -/
def BaseType.isListed : BaseType → Bool
  | .boolean => false
  | .bit => false
  | .bitVarying => false
  | .character => false
  | .characterVarying => false
  | .named none name => isBare keyword name && orderedTypePrefixes.contains name
  | .named (some _) _ => false
  | _ => true

def TypeName.isListed (t : TypeName) : Bool := !t.isArray && t.base.isListed keyword

/-- Whether a name begins like a listed type. -/
def beginsListed (name : String) : Bool :=
  isBare keyword name && orderedTypePrefixes.any fun start => start.toList <+: name.toList

/-- Whether a type is not listed, but its name, or that of the schema before it, begins
like one that is. -/
def BaseType.isMisnamed (base : BaseType) : Bool :=
  !base.isListed keyword &&
    match base with
    | .named (some schema) _ => beginsListed keyword schema
    | .named none name => beginsListed keyword name
    | _ => false

def TypeName.isMisnamed (t : TypeName) : Bool := !t.isArray && t.base.isMisnamed keyword

/-! ## How names are put together -/

theorem quoteIdentifier_cases (keyword : String → Bool) (name : String) :
    (isBare keyword name = true ∧ quoteIdentifier keyword name = name) ∨
      (isBare keyword name = false ∧
        ∃ body, quoteIdentifier keyword name = "\"" ++ (body ++ "\"")) := by
  unfold quoteIdentifier
  split
  · rename_i bare
    exact Or.inl ⟨bare, rfl⟩
  · rename_i other
    exact Or.inr ⟨Bool.eq_false_iff.mpr other, _, String.append_assoc⟩

theorem brackets_cases (t : TypeName) :
    t.brackets = "" ∨ ∃ modifier, t.brackets = "(" ++ (modifier ++ ")") := by
  unfold TypeName.brackets
  split
  · exact Or.inr ⟨_, String.append_assoc⟩
  · exact Or.inl rfl

theorem text_single (keyword : String → Bool) {t : TypeName} (single : t.isArray = false) :
    t.text keyword = t.base.lead keyword ++ t.base.rest keyword ++ t.brackets ++ t.base.zone := by
  rw [TypeName.text, single, if_neg Bool.false_ne_true, String.append_empty]
  simp only [String.append_assoc]

theorem text_array (keyword : String → Bool) {t : TypeName} (array : t.isArray = true) :
    ∃ element, t.text keyword = element ++ "[]" := by
  refine ⟨t.base.lead keyword ++ (t.base.rest keyword ++ (t.brackets ++ t.base.zone)), ?_⟩
  rw [TypeName.text, array, if_pos rfl]
  simp only [String.append_assoc]

theorem exists_text (keyword : String → Bool) (t : TypeName) :
    ∃ more, t.text keyword = t.base.lead keyword ++ more :=
  ⟨_, rfl⟩

/-- The first words of the standard's types: of those listed, and of the others. -/
def listedWords : List String :=
  ["smallint", "integer", "bigint", "numeric", "real", "double precision", "interval", "time",
    "timestamp"]

def otherWords : List String := ["boolean", "bit", "bit varying", "character", "character varying"]

/-- A type has a name of its own, or begins with a word of the standard. -/
theorem lead_cases (keyword : String → Bool) (base : BaseType) :
    (∃ schema name, base = .named schema name ∧
        base.lead keyword = quoteIdentifier keyword (schema.getD name)) ∨
      ((∀ schema name, base ≠ .named schema name) ∧
        ((base.isListed keyword = true ∧ base.lead keyword ∈ listedWords) ∨
          (base.isListed keyword = false ∧ base.lead keyword ∈ otherWords))) := by
  cases base with
  | named schema name => cases schema <;> exact Or.inl ⟨_, _, rfl, rfl⟩
  | _ =>
    refine Or.inr ⟨fun schema name => BaseType.noConfusion, ?_⟩
    simp [BaseType.isListed, BaseType.lead, listedWords, otherWords]

/-! ## Folding -/

/-- `str.casefold` folds each character for itself, the letters of ASCII to small ones. -/
structure FoldsByChar (names : Names) : Prop where
  append : ∀ a b : String, names.casefold (a ++ b) = names.casefold a ++ names.casefold b
  ascii : ∀ s : String, (∀ c ∈ s.toList, c.toNat < 128) →
    names.casefold s = String.ofList (s.toList.map Char.toLower)

variable {keyword} {names : Names}

theorem bareChar_cases {c : Char} (bare : isBareChar c = true) :
    c.toNat < 128 ∧ c.toLower = c ∧ isSpace c = false ∧ c ≠ ']' := by
  have ascii : c.toNat < 128 := by
    simp only [isBareChar, isBareStart, Bool.or_eq_true, Bool.and_eq_true, decide_eq_true_eq,
      beq_iff_eq] at bare
    omega
  exact ⟨ascii, ascii_cases (fun c => isBareChar c = true →
    c.toLower = c ∧ isSpace c = false ∧ c ≠ ']') (by decide) ascii bare⟩

theorem isBareChar_of_isBare {name : String} (bare : isBare keyword name = true) :
    name ≠ "" ∧ ∀ c ∈ name.toList, isBareChar c = true := by
  unfold isBare at bare
  split at bare
  · cases bare
  · rename_i first rest spelled
    simp only [Bool.and_eq_true, List.all_eq_true] at bare
    refine ⟨fun empty => ?_, fun c listed => ?_⟩
    · rw [empty] at spelled
      cases spelled
    · rw [spelled] at listed
      rcases List.mem_cons.mp listed with rfl | later
      · exact Bool.or_eq_true_iff.mpr (Or.inl bare.1.1)
      · exact bare.1.2 c later

/-- Small letters and what is no letter, all of ASCII. -/
def isPlain (s : String) : Bool :=
  s.toList.all fun c => decide (c.toNat < 128) && c.toLower == c

theorem isPlain_iff {s : String} :
    isPlain s = true ↔ ∀ c ∈ s.toList, c.toNat < 128 ∧ c.toLower = c := by
  simp [isPlain]

theorem FoldsByChar.plain (folds : FoldsByChar names) {s : String} (plain : isPlain s = true) :
    names.casefold s = s := by
  have plain := isPlain_iff.mp plain
  rw [folds.ascii s fun c listed => (plain c listed).1]
  have same : s.toList.map Char.toLower = s.toList :=
    (List.map_congr_left fun c listed => (plain c listed).2).trans (List.map_id' _)
  rw [same, String.ofList_toList]

theorem FoldsByChar.bare (folds : FoldsByChar names) {name : String}
    (bare : isBare keyword name = true) : names.casefold name = name :=
  folds.plain (isPlain_iff.mpr fun c listed =>
    have chars := bareChar_cases ((isBareChar_of_isBare bare).2 c listed)
    ⟨chars.1, chars.2.1⟩)

theorem prefix_append_iff {α : Type} {start lead rest : List α}
    (apart : ∀ c ∈ rest.head?, c ∉ start) : start <+: lead ++ rest ↔ start <+: lead := by
  constructor
  · intro begins
    by_cases short : start.length ≤ lead.length
    · exact (List.isPrefix_append_of_length short).mp begins
    · have inside : lead <+: start :=
        List.prefix_of_prefix_length_le (List.prefix_append lead rest) begins (by omega)
      obtain ⟨more, rfl⟩ := inside
      have begins := (List.prefix_append_right_inj lead).mp begins
      cases more with
      | nil => simp at short
      | cons c more =>
        cases rest with
        | nil => exact absurd (List.prefix_nil.mp begins) (by simp)
        | cons d rest =>
          obtain ⟨rfl, -⟩ := List.cons_prefix_cons.mp begins
          exact absurd (List.mem_append_right lead List.mem_cons_self) (apart c rfl)
  · intro begins
    exact begins.trans (List.prefix_append lead rest)

/-! ## Where a name begins and ends -/

theorem strip_eq_self {s : String} (first : ∀ c ∈ s.toList.head?, isSpace c = false)
    (last : ∀ c ∈ s.toList.getLast?, isSpace c = false) : strip s = s := by
  have begins : s.toList.dropWhile isSpace = s.toList := by
    cases spelled : s.toList with
    | nil => rfl
    | cons c rest =>
      rw [List.dropWhile_cons, if_neg (by simp [first c (by rw [spelled]; rfl)])]
  have ends : s.toList.rdropWhile isSpace = s.toList := by
    rw [List.rdropWhile_eq_self_iff]
    intro filled
    simp [last _ (List.getLast?_eq_getLast_of_ne_nil filled)]
  rw [strip, begins, ends, String.ofList_toList]

/-- What a name may end in: folding keeps it, and it is no bracket of an array. -/
def closes (c : Char) : Bool :=
  decide (c.toNat < 128) && c.toLower == c && !isSpace c && c != ']'

def EndsName (s : String) : Prop := s.toList.getLast?.any closes = true

instance (s : String) : Decidable (EndsName s) :=
  inferInstanceAs (Decidable (s.toList.getLast?.any closes = true))

theorem EndsName.append_left {b : String} (ends : EndsName b) (a : String) : EndsName (a ++ b) := by
  unfold EndsName at *
  rw [String.toList_append, List.getLast?_append]
  cases last : b.toList.getLast? with
  | none =>
    rw [last] at ends
    cases ends
  | some c => rwa [last] at ends

theorem endsName_quoteIdentifier (name : String) : EndsName (quoteIdentifier keyword name) := by
  rcases quoteIdentifier_cases keyword name with ⟨bare, kept⟩ | ⟨-, body, quoted⟩
  · obtain ⟨filled, chars⟩ := isBareChar_of_isBare bare
    rw [kept]
    unfold EndsName
    cases last : name.toList.getLast? with
    | none => exact absurd (String.toList_eq_nil_iff.mp (List.getLast?_eq_none_iff.mp last)) filled
    | some c =>
      obtain ⟨ascii, small, shown, apart⟩ :=
        bareChar_cases (chars c (List.mem_of_getLast? last))
      simp [closes, ascii, small, shown, apart]
  · rw [quoted]
    exact (EndsName.append_left (by decide) body).append_left _

theorem endsName_lead (base : BaseType) : EndsName (base.lead keyword) := by
  have words : ∀ word ∈ listedWords ++ otherWords, EndsName word := by decide
  rcases lead_cases keyword base with ⟨_, _, -, quoted⟩ | ⟨-, ⟨-, word⟩ | ⟨-, word⟩⟩
  · rw [quoted]
    exact endsName_quoteIdentifier _
  · exact words _ (List.mem_append_left _ word)
  · exact words _ (List.mem_append_right _ word)

theorem endsName_or_rest (base : BaseType) :
    base.rest keyword = "" ∨ EndsName (base.rest keyword) := by
  cases base with
  | interval fields =>
    rcases fields with _ | ⟨first, _ | last⟩
    · exact Or.inl rfl
    · refine Or.inr (EndsName.append_left ?_ _)
      cases first <;> exact by decide
    · refine Or.inr (EndsName.append_left ?_ _)
      cases last <;> exact by decide
  | named schema name =>
    cases schema with
    | none => exact Or.inl rfl
    | some schema => exact Or.inr ((endsName_quoteIdentifier name).append_left _)
  | _ => exact Or.inl rfl

theorem endsName_or_zone (base : BaseType) : base.zone = "" ∨ EndsName base.zone := by
  cases base with
  | time zone => cases zone <;> exact Or.inr (by decide)
  | timestamp zone => cases zone <;> exact Or.inr (by decide)
  | _ => exact Or.inl rfl

theorem endsName_or_brackets (t : TypeName) : t.brackets = "" ∨ EndsName t.brackets := by
  rcases brackets_cases t with none_ | ⟨modifier, shown⟩
  · exact Or.inl none_
  · rw [shown]
    exact Or.inr ((EndsName.append_left (by decide) modifier).append_left _)

/-- What follows the first name of a type that is no array. -/
theorem endsName_append {a b : String} (ends : EndsName a) (more : b = "" ∨ EndsName b) :
    EndsName (a ++ b) := by
  rcases more with rfl | more
  · rwa [String.append_empty]
  · exact more.append_left a

theorem endsName_text {t : TypeName} (single : t.isArray = false) : EndsName (t.text keyword) := by
  rw [text_single keyword single]
  refine endsName_append (endsName_append (endsName_append (endsName_lead _) ?_) ?_) ?_
  · exact endsName_or_rest _
  · exact endsName_or_brackets t
  · exact endsName_or_zone _

theorem exists_of_endsName {s : String} (ends : EndsName s) :
    ∃ start c, s = start ++ String.singleton c ∧ closes c = true := by
  unfold EndsName at ends
  cases last : s.toList.getLast? with
  | none =>
    rw [last] at ends
    cases ends
  | some c =>
    rw [last] at ends
    obtain ⟨start, spelled⟩ := List.getLast?_eq_some_iff.mp last
    refine ⟨String.ofList start, c, ?_, ends⟩
    rw [← String.toList_inj, String.toList_append, String.toList_ofList, String.toList_singleton,
      spelled]

theorem closes_iff {c : Char} :
    closes c = true ↔ c.toNat < 128 ∧ c.toLower = c ∧ isSpace c = false ∧ c ≠ ']' := by
  simp [closes, and_assoc]

/-- Nothing that ends like a name is the name of an array. -/
theorem not_array_of_endsName (folds : FoldsByChar names) {s : String} (ends : EndsName s) :
    ¬"[]".toList <:+ (names.casefold s).toList := by
  obtain ⟨start, c, rfl, close⟩ := exists_of_endsName ends
  obtain ⟨ascii, small, -, apart⟩ := closes_iff.mp close
  have kept : names.casefold (String.singleton c) = String.singleton c :=
    folds.plain (isPlain_iff.mpr fun d listed => by
      rw [String.toList_singleton] at listed
      rw [List.mem_singleton.mp listed]
      exact ⟨ascii, small⟩)
  rw [folds.append, kept, String.toList_append, String.toList_singleton]
  rintro ⟨front, whole⟩
  have lasts := congrArg List.getLast? whole
  rw [List.getLast?_append, List.getLast?_append] at lasts
  exact apart (Option.some.inj lasts).symm

/-- The first character is no white space. -/
def BeginsName (s : String) : Prop := s.toList.head?.any (fun c => !isSpace c) = true

instance (s : String) : Decidable (BeginsName s) :=
  inferInstanceAs (Decidable (s.toList.head?.any (fun c => !isSpace c) = true))

theorem BeginsName.append_right {a : String} (begins : BeginsName a) (b : String) :
    BeginsName (a ++ b) := by
  unfold BeginsName at *
  rw [String.toList_append, List.head?_append]
  cases first : a.toList.head? with
  | none =>
    rw [first] at begins
    cases begins
  | some c => rwa [first] at begins

theorem beginsName_quoteIdentifier (name : String) :
    BeginsName (quoteIdentifier keyword name) := by
  rcases quoteIdentifier_cases keyword name with ⟨bare, kept⟩ | ⟨-, body, quoted⟩
  · obtain ⟨filled, chars⟩ := isBareChar_of_isBare bare
    rw [kept]
    unfold BeginsName
    cases spelled : name.toList with
    | nil => exact absurd (String.toList_eq_nil_iff.mp spelled) filled
    | cons c rest =>
      have shown := (bareChar_cases (chars c (spelled ▸ List.mem_cons_self))).2.2.1
      simp [shown]
  · rw [quoted]
    exact BeginsName.append_right (by decide) _

theorem beginsName_lead (base : BaseType) : BeginsName (base.lead keyword) := by
  have words : ∀ word ∈ listedWords ++ otherWords, BeginsName word := by decide
  rcases lead_cases keyword base with ⟨_, _, -, quoted⟩ | ⟨-, ⟨-, word⟩ | ⟨-, word⟩⟩
  · rw [quoted]
    exact beginsName_quoteIdentifier _
  · exact words _ (List.mem_append_left _ word)
  · exact words _ (List.mem_append_right _ word)

theorem strip_text (t : TypeName) : strip (t.text keyword) = t.text keyword := by
  refine strip_eq_self (fun c first => ?_) fun c last => ?_
  · obtain ⟨more, whole⟩ := exists_text keyword t
    have begins : BeginsName (t.text keyword) := whole ▸ (beginsName_lead t.base).append_right more
    unfold BeginsName at begins
    rw [first] at begins
    simpa using begins
  · cases single : t.isArray with
    | false =>
      obtain ⟨start, d, whole, close⟩ := exists_of_endsName (endsName_text single)
      rw [whole, String.toList_append, String.toList_singleton, List.getLast?_concat] at last
      rw [← Option.some.inj last]
      exact (closes_iff.mp close).2.2.1
    | true =>
      obtain ⟨element, whole⟩ := text_array keyword single
      rw [whole, String.toList_append, List.getLast?_append] at last
      rw [← Option.some.inj last]
      decide

/-! ## What a name begins with -/

theorem begins_append {lead rest : String}
    (begins : orderedTypePrefixes.any (fun start => start.toList <+: lead.toList) = true) :
    orderedTypePrefixes.any (fun start => start.toList <+: (lead ++ rest).toList) = true := by
  obtain ⟨start, listed, begins⟩ := List.any_eq_true.mp begins
  refine List.any_eq_true.mpr ⟨start, listed, decide_eq_true ?_⟩
  rw [String.toList_append]
  exact (of_decide_eq_true begins).trans (List.prefix_append _ _)

theorem not_begins_append {lead rest : String}
    (apart : ∀ start ∈ orderedTypePrefixes,
      ¬start.toList <+: lead.toList ∧ ¬lead.toList <+: start.toList) :
    orderedTypePrefixes.any (fun start => start.toList <+: (lead ++ rest).toList) = false := by
  refine List.any_eq_false.mpr fun start listed => ?_
  rw [decide_eq_true_eq, String.toList_append]
  intro begins
  rcases List.prefix_or_prefix_of_prefix begins (List.prefix_append _ _) with inside | inside
  · exact (apart start listed).1 inside
  · exact (apart start listed).2 inside

/-- What a name is closed by where more follows. -/
def separators : List Char := ['.', '(', '[']

/-- Where a name is followed by what is in no listed type, it alone decides. -/
theorem begins_append_of_apart {lead rest : String}
    (apart : ∀ c ∈ rest.toList.head?, c ∈ separators) :
    orderedTypePrefixes.any (fun start => start.toList <+: (lead ++ rest).toList) =
      orderedTypePrefixes.any fun start => start.toList <+: lead.toList := by
  have unlisted : ∀ start ∈ orderedTypePrefixes,
      start.toList.all (fun c => !separators.contains c) = true := by
    decide
  rw [Bool.eq_iff_iff, List.any_eq_true, List.any_eq_true]
  refine exists_congr fun start => and_congr_right fun listed => ?_
  rw [decide_eq_true_eq, decide_eq_true_eq, String.toList_append]
  refine prefix_append_iff fun c first inside => ?_
  have other := List.all_eq_true.mp (unlisted start listed) c inside
  rw [List.contains_iff_mem.mpr (apart c first)] at other
  cases other

/-- What may follow the name of a type that is not of the standard. -/
def Follows (more : String) : Prop :=
  more = "" ∨ ∃ c ∈ separators, ∃ rest, more = String.singleton c ++ rest

theorem Follows.folded (folds : FoldsByChar names) {more : String} (follows : Follows more) :
    ∀ c ∈ (names.casefold more).toList.head?, c ∈ separators := by
  rcases follows with rfl | ⟨d, listed, rest, rfl⟩
  · have empty : names.casefold "" = "" := folds.plain rfl
    rw [empty]
    simp
  · have kept : names.casefold (String.singleton d) = String.singleton d :=
      folds.plain (by
        rcases List.mem_cons.mp listed with rfl | listed
        · decide
        · rcases List.mem_pair.mp listed with rfl | rfl <;> decide)
    intro c first
    rw [folds.append, kept, String.toList_append, String.toList_singleton] at first
    rw [← Option.some.inj first]
    exact listed

theorem begins_quoted (folds : FoldsByChar names) (name : String) {more : String}
    (follows : Follows more) :
    orderedTypePrefixes.any (fun start => start.toList <+:
      (names.casefold (quoteIdentifier keyword name ++ more)).toList) =
        beginsListed keyword name := by
  rw [folds.append, beginsListed]
  rcases quoteIdentifier_cases keyword name with ⟨bare, kept⟩ | ⟨other, body, quoted⟩
  · rw [kept, bare, folds.bare bare, begins_append_of_apart (follows.folded folds), Bool.true_and]
  · have mark : names.casefold "\"" = "\"" := folds.plain (by decide)
    rw [quoted, other, folds.append, mark, String.append_assoc]
    exact not_begins_append (by decide)

theorem beginsListed_of_mem {name : String} (bare : isBare keyword name = true)
    (listed : name ∈ orderedTypePrefixes) : beginsListed keyword name = true := by
  rw [beginsListed, bare, Bool.true_and]
  exact List.any_eq_true.mpr ⟨name, listed, decide_eq_true List.prefix_rfl⟩

theorem follows_brackets (t : TypeName) :
    Follows (t.brackets ++ ("" ++ if t.isArray then "[]" else "")) := by
  rw [String.empty_append]
  rcases brackets_cases t with none_ | ⟨modifier, shown⟩
  · rw [none_, String.empty_append]
    split
    · exact Or.inr ⟨'[', by decide, "]", rfl⟩
    · exact Or.inl rfl
  · rw [shown, String.append_assoc]
    exact Or.inr ⟨'(', by decide, _, rfl⟩

theorem begins_named (folds : FoldsByChar names) {t : TypeName} {schema : Option String}
    {name : String} (kind : t.base = .named schema name) :
    orderedTypePrefixes.any (fun start =>
      start.toList <+: (names.casefold (t.text keyword)).toList) =
        beginsListed keyword (schema.getD name) := by
  have follows := follows_brackets t
  cases schema with
  | none =>
    have whole : t.text keyword = quoteIdentifier keyword name ++
        (t.brackets ++ ("" ++ if t.isArray then "[]" else "")) := by
      rw [TypeName.text, kind]
      exact congrArg _ String.empty_append
    rw [whole]
    exact begins_quoted folds name follows
  | some schema =>
    have whole : t.text keyword = quoteIdentifier keyword schema ++
        ("." ++ (quoteIdentifier keyword name ++
          (t.brackets ++ ("" ++ if t.isArray then "[]" else "")))) := by
      rw [TypeName.text, kind]
      exact congrArg _ String.append_assoc
    rw [whole]
    exact begins_quoted folds schema (Or.inr ⟨'.', by decide, _, rfl⟩)

/-- A word of the standard is folded to itself, and tells by itself whether it is listed. -/
theorem begins_standard (folds : FoldsByChar names) {t : TypeName}
    (standard : (t.base.isListed keyword = true ∧ t.base.lead keyword ∈ listedWords) ∨
      (t.base.isListed keyword = false ∧ t.base.lead keyword ∈ otherWords)) :
    orderedTypePrefixes.any (fun start =>
      start.toList <+: (names.casefold (t.text keyword)).toList) = t.base.isListed keyword := by
  have plain : ∀ word ∈ listedWords ++ otherWords, isPlain word = true := by decide
  have listed : ∀ word ∈ listedWords,
      orderedTypePrefixes.any (fun start => start.toList <+: word.toList) = true := by
    decide
  have unlisted : ∀ word ∈ otherWords, ∀ start ∈ orderedTypePrefixes,
      ¬start.toList <+: word.toList ∧ ¬word.toList <+: start.toList := by
    decide
  obtain ⟨more, whole⟩ := exists_text keyword t
  rw [whole, folds.append]
  rcases standard with ⟨own, word⟩ | ⟨own, word⟩
  · rw [own, folds.plain (plain _ (List.mem_append_left _ word))]
    exact begins_append (listed _ word)
  · rw [own, folds.plain (plain _ (List.mem_append_right _ word))]
    exact not_begins_append (unlisted _ word)

/-- The folded name of a type begins with a listed one if the type is listed, or
named like one that is. -/
theorem begins_text (folds : FoldsByChar names) (t : TypeName) :
    orderedTypePrefixes.any (fun start =>
      start.toList <+: (names.casefold (t.text keyword)).toList) =
        (t.base.isListed keyword || t.base.isMisnamed keyword) := by
  rcases lead_cases keyword t.base with ⟨schema, name, kind, -⟩ | ⟨apart, standard⟩
  · rw [begins_named folds kind, kind]
    cases schema with
    | none =>
      change _ = (isBare keyword name && orderedTypePrefixes.contains name ||
        !(isBare keyword name && orderedTypePrefixes.contains name) && beginsListed keyword name)
      cases listed : isBare keyword name && orderedTypePrefixes.contains name with
      | false => rfl
      | true =>
        obtain ⟨bare, member⟩ := Bool.and_eq_true_iff.mp listed
        exact beginsListed_of_mem bare (List.contains_iff_mem.mp member)
    | some schema => rfl
  · rw [begins_standard folds standard]
    cases kind : t.base with
    | named schema name => exact absurd kind (apart schema name)
    | _ => rfl

/-- The types whose extremes the profiler supports, of all that are reported. -/
theorem supportsExtremes_text (folds : FoldsByChar names) (t : TypeName) :
    supportsExtremes names (t.text keyword) = (t.isListed keyword || t.isMisnamed keyword) := by
  unfold supportsExtremes
  dsimp only
  rw [strip_text, begins_text folds, TypeName.isListed, TypeName.isMisnamed]
  cases single : t.isArray with
  | false =>
    have ends : EndsName (t.text keyword) := endsName_text single
    rw [decide_eq_false (not_array_of_endsName folds ends)]
    rfl
  | true =>
    obtain ⟨element, whole⟩ := text_array keyword single
    have array : "[]".toList <:+ (names.casefold (t.text keyword)).toList := by
      rw [whole, folds.append, folds.plain (s := "[]") (by decide), String.toList_append]
      exact List.suffix_append _ _
    rw [decide_eq_true array]
    rfl

theorem not_listed_of_misnamed {t : TypeName} (misnamed : t.isMisnamed keyword = true) :
    t.isListed keyword = false := by
  simp only [TypeName.isMisnamed, BaseType.isMisnamed, Bool.and_eq_true,
    Bool.not_eq_true'] at misnamed
  rw [TypeName.isListed, misnamed.2.1, Bool.and_false]

/-! ## What is computed and reported -/

section Columns

variable {V K : Type} [DecidableEq K] (profiler : TableProfiler V K)

/-- Whether the least and the greatest value of a column are computed. -/
def Computes (c : ColumnProfile) : Prop :=
  isSensitive profiler.names c.column profiler.sensitivePatterns = false ∧
    supportsExtremes profiler.names c.dataType = true

def Reports (c : ColumnProfile) : Prop := c.minimum ≠ none ∨ c.maximum ≠ none

/-- No statistics of a column are read that have an extreme. -/
def NoExtremes (table column : String) : Prop :=
  ∀ rows, profiler.db.rows .statistics table column = .ok rows →
    profiler.db.least ((scan profiler.settings rows).filterMap id) = none ∧
      profiler.db.greatest ((scan profiler.settings rows).filterMap id) = none

variable {profiler}

theorem reports_iff {table column dataType : String} {sampleRows : Int} {c : ColumnProfile}
    (made : profiler.profileColumn table column dataType sampleRows = .ok c) :
    Reports c ↔ Computes profiler c ∧ ¬NoExtremes profiler table c.column := by
  obtain ⟨rfl, rfl, outcome⟩ := profileColumn_cases made
  unfold Reports Computes NoExtremes
  rcases outcome with ⟨sensitive, silent, -⟩ | ⟨-, ⟨e, met⟩, silent, -⟩ |
    ⟨plain, rows, met, computed⟩
  · have low : c.minimum = none := silent .minimum
    have high : c.maximum = none := silent .maximum
    simp [low, high, sensitive]
  · have low : c.minimum = none := silent .minimum
    have high : c.maximum = none := silent .maximum
    simp [low, high, met]
  · rw [computed.minimum, computed.maximum, met]
    simp only [ne_eq, extremeText_eq_none_iff, Except.ok.injEq, forall_eq', plain, true_and]
    tauto

/-- A column's extremes are computed and reported for listed types only, if and only if
the column is sensitive or its type is not misnamed; or, as for what is reported, if there
are none. -/
theorem extremes_listed_iff (keyword : String → Bool) (profiler : TableProfiler V K)
    (folds : FoldsByChar profiler.names) (table : String) (columns : Option (List String))
    (sampleRows : Option Int) {report : TableProfile}
    (returned : profiler.profile table columns sampleRows = .ok report) :
    ∀ c ∈ report.columns, ∀ t : TypeName, c.dataType = t.text keyword →
      ((Computes profiler c ∨ Reports c → t.isListed keyword = true) ↔
        isSensitive profiler.names c.column profiler.sensitivePatterns = true ∨
          t.isMisnamed keyword = false) ∧
      ((Reports c → t.isListed keyword = true) ↔
        isSensitive profiler.names c.column profiler.sensitivePatterns = true ∨
          t.isMisnamed keyword = false ∨ NoExtremes profiler report.table c.column) := by
  intro c listed t typed
  obtain ⟨selected, omitted, -, made⟩ := columns_of_profile returned
  obtain ⟨entry, -, profiled⟩ := (Fallible.mem_of_mapM made).mp listed
  have reports := reports_iff profiled
  have supports : supportsExtremes profiler.names c.dataType =
      (t.isListed keyword || t.isMisnamed keyword) :=
    typed ▸ supportsExtremes_text folds t
  have computes : Computes profiler c ↔
      isSensitive profiler.names c.column profiler.sensitivePatterns = false ∧
        (t.isListed keyword = true ∨ t.isMisnamed keyword = true) := by
    rw [Computes, supports, Bool.or_eq_true_iff]
  have keeps (P : Prop) : (Computes profiler c ∧ P → t.isListed keyword = true) ↔
      isSensitive profiler.names c.column profiler.sensitivePatterns = true ∨
        t.isMisnamed keyword = false ∨ ¬P := by
    rw [computes]
    cases misnamed : t.isMisnamed keyword with
    | false => simp +contextual
    | true =>
      rw [not_listed_of_misnamed misnamed]
      cases isSensitive profiler.names c.column profiler.sensitivePatterns <;> simp
  constructor
  · have asked : Computes profiler c ∨ Reports c ↔ Computes profiler c ∧ True := by
      rw [reports]
      tauto
    rw [asked, keeps]
    simp
  · rw [reports, keeps, not_not]

/-! ## Real names -/

private def people (dataType : String) : TableProfiler String String where
  names := ⟨fun text => String.ofList (text.toList.map Char.toLower), fun _ _ => none⟩
  quote text := text
  catalog := ⟨[("people", ["known_as"])]⟩
  settings := ProfilingSettings.default
  sensitivePatterns := []
  db :=
    { columnTypes := fun _ => .ok [("known_as", dataType)]
      rowEstimate := fun _ => .ok none
      rows := fun _ _ _ => .ok [some "Ada Lovelace"]
      key := fun name => name
      text := fun name => name
      least := fun names => (names.insertionSort (· ≤ ·)).head?
      greatest := fun names => (names.insertionSort (· ≤ ·)).getLast?
      collates := fun _ _ => true }

private theorem folds_people (dataType : String) : FoldsByChar (people dataType).names where
  append a b := by simp [people, String.toList_append]
  ascii s _ := rfl

/-- The words that are quoted where they are names. -/
private def reserved (word : String) : Bool :=
  ["smallint", "integer", "bigint", "decimal", "numeric", "real", "time", "timestamp",
    "interval"].contains word

/-- Of a domain over texts, neither extreme is reported. -/
theorem extremes_listed_person : ∃ report,
    (people "person").profile "people" none none = .ok report ∧
      report.columns.map (fun c => c.dataType) = ["person"] ∧
      ∀ c ∈ report.columns, ¬Reports c := by
  have shown : ((people "person").profile "people" none none).toOption.map
      (fun report => report.columns.map fun c => c.dataType) = some ["person"] := by
    decide
  cases made : (people "person").profile "people" none none with
  | error e =>
    rw [made] at shown
    cases shown
  | ok report =>
    rw [made] at shown
    have types : report.columns.map (fun c => c.dataType) = ["person"] := Option.some.inj shown
    refine ⟨report, rfl, types, fun c listed reported => ?_⟩
    have typed : c.dataType = "person" := by
      have member : c.dataType ∈ report.columns.map (fun c => c.dataType) :=
        List.mem_map_of_mem listed
      rw [types] at member
      exact List.mem_singleton.mp member
    have settled := extremes_listed_iff reserved (people "person") (folds_people "person") "people"
      none none made c listed ⟨.named none "person", none, false⟩ (typed.trans (by decide))
    have unlisted := settled.2.mpr (Or.inr (Or.inl (by decide))) reported
    exact absurd unlisted (by decide)

/-- A domain over texts whose name begins with `real`: a name is reported. -/
theorem extremes_not_listed_realname :
    TypeName.text reserved ⟨.named none "realname", none, false⟩ = "realname" ∧
      TypeName.isListed reserved ⟨.named none "realname", none, false⟩ = false ∧
      ((people "realname").profile "people" none none).toOption.map (fun report =>
        report.columns.map fun c => (c.dataType, c.minimum)) =
          some [("realname", some "Ada Lovelace")] := by
  refine ⟨?_, ?_, ?_⟩ <;> decide

end Columns

end TypeNames
