import TextToSqlAgent.Core.Patterns

/-!
# Connection strings in messages

A driver quotes a connection string in its errors, the password included. Before
a message is shown two patterns take the password out, one for each form.
-/

namespace Dsn

open Python Regex Patterns

def isSchemeChar (c : Char) : Bool :=
  ('a' ≤ c && c ≤ 'z') || ('A' ≤ c && c ≤ 'Z') || ('0' ≤ c && c ≤ '9') || c = '+'

/-- `[^:/@\s]` -/
def isUserChar (c : Char) : Bool := !(c = ':' || c = '/' || c = '@' || isSpace c)

/-- `[^@\s]` -/
def isPasswordChar (c : Char) : Bool := !(c = '@' || isSpace c)

/-- `[^\s'"]` -/
def isBareChar (c : Char) : Bool := !(isSpace c || c = '\'' || c = '"')

def credentials : Pattern :=
  concat [.group "scheme" (concat [.many true isSchemeChar, .chars (exactly "://")]),
    .group "user" (concat [.chars [isUserChar], .many true isUserChar]), .chars (exactly ":"),
    .group "pw" (.many true isPasswordChar), .chars (exactly "@")]

def keywordPassword : Pattern :=
  concat [.boundary, .chars (exactly "password"), .many true isSpace, .chars (exactly "="),
    .many true isSpace, .group "pw" (concat [.chars [isBareChar], .many true isBareChar])]

/-- A match of `credentials` without its password. -/
def withoutPassword (m : Cursor) : List Char :=
  (m.group? "scheme").getD [] ++ (m.group? "user").getD [] ++ ":[REDACTED]@".toList

def keywordRedacted (_ : Cursor) : List Char := "password=[REDACTED]".toList

/-- Remove credentials from anything about to be logged or shown. -/
def redactDsn (words : Words) (text : String) : String :=
  let text := credentials.sub words.isWord withoutPassword none 0 text.toList
  String.ofList (keywordPassword.sub words.isWord keywordRedacted none 0 text)

def isDriverChar (c : Char) : Bool :=
  ('A' ≤ c && c ≤ 'Z') || ('a' ≤ c && c ≤ 'z') || ('0' ≤ c && c ≤ '9') || c = '_'

/-- A scheme with the driver that SQLAlchemy has in it. -/
def driver : Pattern :=
  concat [.begins, .group "1" (concat [.chars (exactly "postgres"),
    .alt (.chars (exactly "ql")) (.chars [])]), .chars (exactly "+"), .chars [isDriverChar],
    .many true isDriverChar, .chars (exactly "://")]

/-- A URL for SQLAlchemy as psycopg reads it; any other string as it is. -/
def libpqDsn (words : Words) (raw : String) : String :=
  String.ofList (driver.sub words.isWord
    (fun m => (m.group? "1").getD [] ++ "://".toList) none 0 raw.toList)

example : libpqDsn plainWords "postgresql+psycopg://reader@db/shop" =
    "postgresql://reader@db/shop" := by decide +kernel

/-! ## What `libpq` accepts -/

def isUnreserved (c : Char) : Bool := c.isAlphanum || "-._~".toList.contains c

/-- The characters of a URL's parts that delimit none of them. -/
def isUrlChar (c : Char) : Bool := isUnreserved c || "!$&'()*+,;=".toList.contains c

def isHexDigit (c : Char) : Bool := "0123456789abcdefABCDEF".toList.contains c

/-- Characters as they are, and any byte but zero in hexadecimal behind a percent sign. -/
inductive Encoded (raw : Char → Bool) : List Char → Prop
  | nil : Encoded raw []
  | raw {c : Char} {rest : List Char} (is : raw c = true) (other : c ≠ '%')
      (tail : Encoded raw rest) : Encoded raw (c :: rest)
  | percent {a b : Char} {rest : List Char} (high : isHexDigit a = true)
      (low : isHexDigit b = true) (some_ : ¬(a = '0' ∧ b = '0')) (tail : Encoded raw rest) :
      Encoded raw ('%' :: a :: b :: rest)

/-- Plain characters, and any character behind a backslash where this is plain. -/
inductive Escaped (plain : Char → Bool) : List Char → Prop
  | nil : Escaped plain []
  | plain {c : Char} {rest : List Char} (is : plain c = true) (other : c ≠ '\\')
      (tail : Escaped plain rest) : Escaped plain (c :: rest)
  | escape {c : Char} {rest : List Char} (is : plain '\\' = true) (tail : Escaped plain rest) :
      Escaped plain ('\\' :: c :: rest)

/-- The white space between settings, as C has it. -/
def isBlank (c : Char) : Bool := "\t\n\x0b\x0c\r ".toList.contains c

def IsScheme (scheme : List Char) : Prop :=
  scheme = "postgresql".toList ∨ scheme = "postgres".toList

/-- A connection string around its password. What follows is part of the message;
so is what stands before a keyword. -/
inductive Form
  /-- `scheme://user:password@` -/
  | userinfo (scheme user : List Char)
  /-- `?password=` or `&password=` behind a URL, of the characters that the URL's author
  does not encode. -/
  | parameter (mark : Char) (raw : Char → Bool)
  /-- `password = ` and a value of these characters, without quotes. -/
  | bare (gap gap' : List Char) (plain : Char → Bool)
  /-- `password = ` and a value in single quotes. -/
  | quoted (gap gap' : List Char)

namespace Form

/-- What `libpq` asks of the form. -/
def Accepted : Form → Prop
  | .userinfo scheme user => IsScheme scheme ∧ ∀ c ∈ user, c ≠ ':' ∧ c ≠ '/' ∧ c ≠ '@'
  | .parameter mark raw => (mark = '?' ∨ mark = '&') ∧
      (∀ c, isUnreserved c = true → raw c = true) ∧ ∀ c, raw c = true → c ≠ '&' ∧ c ≠ '='
  | .bare gap gap' plain => (∀ c ∈ gap ++ gap', isBlank c = true) ∧
      (∀ c, isUnreserved c = true → plain c = true) ∧ ∀ c, plain c = true → isBlank c = false
  | .quoted gap gap' => ∀ c ∈ gap ++ gap', isBlank c = true

/-- What stands before the form: for a parameter, the URL it is one of. -/
def Follows : Form → List Char → Prop
  | .parameter mark _, before => ∃ message scheme rest : List Char, IsScheme scheme ∧
      before = message ++ (scheme ++ ("://".toList ++ rest)) ∧ ('?' ∈ rest ↔ mark = '&')
  | _, _ => True

/-- How a password is written in the form. -/
def Writes : Form → List Char → Prop
  | .userinfo _ _, p => Encoded (fun c => isUrlChar c || c = ':') p
  | .parameter _ raw, p => p ≠ [] ∧ Encoded raw p
  | .bare _ _ plain, p => p ≠ [] ∧ p.head? ≠ some '\'' ∧ Escaped plain p
  | .quoted _ _, p => ∃ value, Escaped (fun c => c ≠ '\'') value ∧ p = '\'' :: value ++ ['\'']

def fill : Form → List Char → List Char
  | .userinfo scheme user, p => scheme ++ ("://".toList ++ (user ++ ':' :: (p ++ ['@'])))
  | .parameter mark _, p => mark :: ("password=".toList ++ p)
  | .bare gap gap' _, p => "password".toList ++ (gap ++ '=' :: (gap' ++ p))
  | .quoted gap gap', p => "password".toList ++ (gap ++ '=' :: (gap' ++ p))

@[simp] theorem fill_userinfo (scheme user p : List Char) : (userinfo scheme user).fill p =
    scheme ++ ("://".toList ++ (user ++ ':' :: (p ++ ['@']))) := rfl

@[simp] theorem fill_parameter (mark : Char) (raw : Char → Bool) (p : List Char) :
    (parameter mark raw).fill p = mark :: ("password=".toList ++ p) := rfl

@[simp] theorem fill_bare (gap gap' : List Char) (plain : Char → Bool) (p : List Char) :
    (bare gap gap' plain).fill p = "password".toList ++ (gap ++ '=' :: (gap' ++ p)) := rfl

@[simp] theorem fill_quoted (gap gap' p : List Char) :
    (quoted gap gap').fill p = "password".toList ++ (gap ++ '=' :: (gap' ++ p)) := rfl

end Form

/-- Where a connection string stands in a message: anywhere, or not directly behind
a character of a word. -/
inductive Place
  | anywhere
  | apart
  deriving DecidableEq

def Place.Allows (words : Words) : Place → List Char → Prop
  | .anywhere, _ => True
  | .apart, before => ∀ c ∈ before.getLast?, words.isWord c = false

/-- No message around the form tells one password from another. -/
def Silent (words : Words) (place : Place) (form : Form) : Prop :=
  ∀ before after p q, place.Allows words before → form.Follows before → form.Writes p →
    form.Writes q → redactDsn words (String.ofList (before ++ (form.fill p ++ after))) =
      redactDsn words (String.ofList (before ++ (form.fill q ++ after)))

/-- The characters that one of the patterns ends at. -/
def isStop (c : Char) : Bool := isSpace c || ":/@'\"".toList.contains c

/-- A user without white space; a parameter of which what ends a pattern is encoded; a
keyword apart from other words, without spaces around the sign, and a value without
what ends a pattern and without backslashes. -/
def Covered (place : Place) : Form → Prop
  | .userinfo _ user => user ≠ [] ∧ ∀ c ∈ user, isSpace c = false
  | .parameter _ raw => ∀ c, isStop c = true → raw c = false
  | .bare gap gap' plain => place = .apart ∧ gap = [] ∧ gap' = [] ∧ plain '\\' = false ∧
      ∀ c, isStop c = true → plain c = false
  | .quoted _ _ => False

/-! ## The first pattern -/

variable {words : Words}

/-- What stands behind a colon is the rest of a user's credentials. -/
structure Userinfo (text user pw rest : List Char) : Prop where
  whole : text = "//".toList ++ (user ++ ':' :: (pw ++ '@' :: rest))
  named : user ≠ []
  users : ∀ c ∈ user, isUserChar c = true
  passwords : ∀ c ∈ pw, isPasswordChar c = true

theorem Userinfo.unique {text user pw rest user' pw' rest' : List Char}
    (one : Userinfo text user pw rest) (other : Userinfo text user' pw' rest') :
    user = user' ∧ pw = pw' ∧ rest = rest' := by
  have same := List.append_cancel_left (one.whole.symm.trans other.whole)
  obtain ⟨rfl, -, same⟩ := cut_unique (p := fun c => isUserChar c = true) one.users other.users
    (by decide) (by decide) same
  obtain ⟨rfl, -, rfl⟩ := cut_unique (p := fun c => isPasswordChar c = true) one.passwords
    other.passwords (by decide) (by decide) same
  exact ⟨rfl, rfl, rfl⟩

theorem credentials_results_iff {last : Option Char} {text : List Char} {r : Cursor} :
    r ∈ credentials.results words.isWord ⟨last, text, []⟩ ↔
      ∃ scheme tail user pw rest, text = scheme ++ ':' :: tail ∧
        (∀ c ∈ scheme, isSchemeChar c = true) ∧ Userinfo tail user pw rest ∧ r = ⟨some '@', rest,
          [("scheme", scheme ++ "://".toList), ("user", user), ("pw", pw)]⟩ := by
  constructor
  · intro found
    obtain ⟨m, grouped, found⟩ := mem_results_concat_cons.mp found
    obtain ⟨m, schemes, taken, whole, rfl⟩ := mem_results_group_iff.mp grouped
    obtain ⟨m, many, schemes⟩ := mem_results_concat_cons.mp schemes
    obtain ⟨scheme, rest, rfl, each, rfl⟩ := mem_results_many.mp many
    obtain ⟨m, signs, schemes⟩ := mem_results_concat_cons.mp schemes
    obtain ⟨sign, rest, rfl, own, rfl⟩ := mem_results_chars.mp signs
    obtain rfl := forall₂_exactly_iff.mp own
    obtain rfl := mem_results_concat_nil.mp schemes
    obtain ⟨m, grouped, found⟩ := mem_results_concat_cons.mp found
    obtain ⟨m, names, name, whole', rfl⟩ := mem_results_group_iff.mp grouped
    obtain ⟨user, rest, split, some_, each', rfl⟩ := mem_results_plus.mp names
    obtain ⟨m, colons, found⟩ := mem_results_concat_cons.mp found
    obtain ⟨colon, rest, split', own, rfl⟩ := mem_results_chars.mp colons
    obtain rfl := forall₂_exactly_iff.mp own
    obtain ⟨m, grouped, found⟩ := mem_results_concat_cons.mp found
    obtain ⟨m, many, word, whole'', rfl⟩ := mem_results_group_iff.mp grouped
    obtain ⟨pw, rest, split'', each'', rfl⟩ := mem_results_many.mp many
    obtain ⟨m, ends, found⟩ := mem_results_concat_cons.mp found
    obtain ⟨sign, rest, split₃, own, rfl⟩ := mem_results_chars.mp ends
    obtain rfl := forall₂_exactly_iff.mp own
    obtain rfl := mem_results_concat_nil.mp found
    simp only [skip_rest] at whole split whole' split' whole'' split'' split₃
    subst split split' split'' split₃
    obtain rfl := List.append_cancel_right whole'
    obtain rfl := List.append_cancel_right whole''
    rw [← List.append_assoc] at whole
    obtain rfl := List.append_cancel_right whole
    exact ⟨scheme, _, user, pw, _, rfl, each, ⟨rfl, some_, each', each''⟩, rfl⟩
  · rintro ⟨scheme, tail, user, pw, rest, rfl, each, ⟨rfl, some_, each', each''⟩, rfl⟩
    refine mem_results_concat_cons.mpr ⟨_, mem_results_group_iff.mpr ⟨_,
      mem_results_concat_cons.mpr ⟨_, mem_results_many.mpr ⟨scheme, _, rfl, each, rfl⟩,
        mem_results_concat_cons.mpr ⟨_, mem_results_chars.mpr ⟨"://".toList,
          user ++ ':' :: (pw ++ '@' :: rest), rfl, forall₂_exactly_iff.mpr rfl, rfl⟩,
            mem_results_concat_nil.mpr rfl⟩⟩, scheme ++ "://".toList, ?_, rfl⟩, ?_⟩
    · simp
    refine mem_results_concat_cons.mpr ⟨_, mem_results_group_iff.mpr ⟨_, mem_results_plus.mpr
      ⟨user, ':' :: (pw ++ '@' :: rest), rfl, some_, each', rfl⟩, user, rfl, rfl⟩, ?_⟩
    refine mem_results_concat_cons.mpr ⟨_, mem_results_chars.mpr
      ⟨[':'], pw ++ '@' :: rest, rfl, forall₂_exactly_iff.mpr rfl, rfl⟩, ?_⟩
    refine mem_results_concat_cons.mpr ⟨_, mem_results_group_iff.mpr ⟨_, mem_results_many.mpr
      ⟨pw, '@' :: rest, rfl, each'', rfl⟩, pw, rfl, rfl⟩, ?_⟩
    refine mem_results_concat_cons.mpr ⟨_, mem_results_chars.mpr
      ⟨['@'], rest, rfl, forall₂_exactly_iff.mpr rfl, rfl⟩, ?_⟩
    exact mem_results_concat_nil.mpr rfl

/-- The first step of the function, from a place in the text on. -/
def hidden (words : Words) (last : Option Char) (text : List Char) : List Char :=
  credentials.sub words.isWord withoutPassword last 0 text

theorem credentials_match?_eq_none {last : Option Char} {text : List Char}
    (none_ : ∀ scheme tail user pw rest, text = scheme ++ ':' :: tail →
      (∀ c ∈ scheme, isSchemeChar c = true) → ¬Userinfo tail user pw rest) :
    credentials.match? words.isWord ⟨last, text, []⟩ = none := by
  rw [match?_eq_none_iff]
  intro r found
  obtain ⟨scheme, tail, user, pw, rest, whole, each, is, -⟩ := credentials_results_iff.mp found
  exact none_ scheme tail user pw rest whole each is

/-- What is read as credentials keeps its scheme and its user. -/
theorem hidden_of_userinfo {last : Option Char} {scheme tail user pw rest : List Char}
    (each : ∀ c ∈ scheme, isSchemeChar c = true) (is : Userinfo tail user pw rest) :
    hidden words last (scheme ++ ':' :: tail) =
      scheme ++ ("://".toList ++ (user ++ (":[REDACTED]@".toList ++
        hidden words (some '@') rest))) := by
  have found : credentials.match? words.isWord ⟨last, scheme ++ ':' :: tail, []⟩ =
      some ⟨some '@', rest, [("scheme", scheme ++ "://".toList), ("user", user), ("pw", pw)]⟩ := by
    refine match?_of_unique (credentials_results_iff.mpr
      ⟨scheme, tail, user, pw, rest, rfl, each, is, rfl⟩) fun other another => ?_
    obtain ⟨scheme', tail', user', pw', rest', whole, each', is', rfl⟩ :=
      credentials_results_iff.mp another
    obtain ⟨rfl, -, rfl⟩ := cut_unique (p := fun c => isSchemeChar c = true) each each'
      (by decide) (by decide) whole
    obtain ⟨rfl, rfl, rfl⟩ := is.unique is'
    rfl
  have shorter : rest.length < (scheme ++ ':' :: tail).length := by
    simp only [is.whole, List.length_append, List.length_cons]
    omega
  rw [hidden, sub_of_match found shorter, hidden]
  simp [withoutPassword, Cursor.group?]

theorem hidden_nil (last : Option Char) : hidden words last [] = [] := by
  rw [hidden, Pattern.sub, credentials_match?_eq_none]
  intro scheme tail user pw rest whole
  cases scheme <;> cases whole

/-- What stands before does not matter. -/
theorem hidden_last (last : Option Char) (text : List Char) :
    hidden words last text = hidden words none text := by
  by_cases found : ∃ scheme tail user pw rest, text = scheme ++ ':' :: tail ∧
      (∀ c ∈ scheme, isSchemeChar c = true) ∧ Userinfo tail user pw rest
  · obtain ⟨scheme, tail, user, pw, rest, rfl, each, is⟩ := found
    rw [hidden_of_userinfo each is, hidden_of_userinfo each is]
  · have none_ (last : Option Char) : credentials.match? words.isWord ⟨last, text, []⟩ = none :=
      credentials_match?_eq_none fun scheme tail user pw rest whole each is =>
        found ⟨scheme, tail, user, pw, rest, whole, each, is⟩
    cases text with
    | nil => rw [hidden_nil, hidden_nil]
    | cons c text => rw [hidden, hidden, sub_of_none (none_ last), sub_of_none (none_ none)]

/-- Only at a colon is anything changed: a scheme is kept. -/
theorem hidden_cons {c : Char} (other : c ≠ ':') (text : List Char) :
    hidden words none (c :: text) = c :: hidden words none text := by
  by_cases found : ∃ scheme tail user pw rest, c :: text = scheme ++ ':' :: tail ∧
      (∀ c ∈ scheme, isSchemeChar c = true) ∧ Userinfo tail user pw rest
  · obtain ⟨scheme, tail, user, pw, rest, whole, each, is⟩ := found
    cases scheme with
    | nil =>
      rw [List.nil_append, List.cons.injEq] at whole
      exact absurd whole.1 other
    | cons d scheme =>
      rw [List.cons_append, List.cons.injEq] at whole
      obtain ⟨rfl, rfl⟩ := whole
      have whole := @hidden_of_userinfo words none (c :: scheme) _ _ _ _ each is
      rw [List.cons_append] at whole
      rw [whole, hidden_of_userinfo (fun d listed => each d (List.mem_cons_of_mem _ listed)) is]
      rfl
  · have none_ : credentials.match? words.isWord ⟨none, c :: text, []⟩ = none :=
      credentials_match?_eq_none fun scheme tail user pw rest whole each is =>
        found ⟨scheme, tail, user, pw, rest, whole, each, is⟩
    rw [hidden, sub_of_none none_, ← hidden, hidden_last]

theorem hidden_append {front : List Char} (free : ':' ∉ front) (text : List Char) :
    hidden words none (front ++ text) = front ++ hidden words none text := by
  induction front with
  | nil => rfl
  | cons c front ih =>
    rw [List.mem_cons, not_or] at free
    rw [List.cons_append, hidden_cons (Ne.symm free.1), ih free.2, List.cons_append]

theorem hidden_colon {user pw rest tail : List Char} (is : Userinfo tail user pw rest) :
    hidden words none (':' :: tail) = "://".toList ++ (user ++ (":[REDACTED]@".toList ++
      hidden words none rest)) := by
  have whole := @hidden_of_userinfo words none [] tail user pw rest nofun is
  rwa [List.nil_append, List.nil_append, hidden_last (some '@')] at whole

theorem hidden_colon_none {tail : List Char} (none_ : ∀ user pw rest, ¬Userinfo tail user pw rest) :
    hidden words none (':' :: tail) = ':' :: hidden words none tail := by
  have nothing : credentials.match? words.isWord ⟨none, ':' :: tail, []⟩ = none := by
    refine credentials_match?_eq_none fun scheme tail' user pw rest whole each is => ?_
    cases scheme with
    | nil =>
      rw [List.nil_append, List.cons.injEq] at whole
      exact none_ user pw rest (whole.2 ▸ is)
    | cons c scheme =>
      rw [List.cons_append, List.cons.injEq] at whole
      have colon := each c List.mem_cons_self
      rw [← whole.1] at colon
      exact absurd colon (by decide)
  rw [hidden, sub_of_none nothing, ← hidden, hidden_last]

/-! ## The letters of the patterns -/

theorem slashes_eq : "//".toList = ['/', '/'] := by decide

theorem authority_eq : "://".toList = ':' :: "//".toList := by decide

theorem password_eq : "password".toList = 'p' :: "assword".toList := by decide

theorem setting_eq : "password=".toList = 'p' :: "assword=".toList := by decide

theorem setting_eq_append : "password=".toList = "password".toList ++ ['='] := by decide

theorem signs_eq : ":/@'\"".toList = [':', '/', '@', '\'', '"'] := by decide

/-! ## What the first pattern does around a password -/

/-- The two slashes stand before a text that begins with none. -/
theorem slashes_cases {head body tail : List Char} (apart : body.head? ≠ some '/')
    (same : "//".toList ++ tail = head ++ body) :
    ∃ more, head = "//".toList ++ more ∧ tail = more ++ body := by
  rcases List.append_eq_append_iff.mp same with ⟨more, whole, rest⟩ | ⟨more, whole, rest⟩
  · exact ⟨more, whole, rest⟩
  · cases more with
    | nil => exact ⟨[], by rw [whole, List.append_nil, List.append_nil], rest.symm⟩
    | cons c more =>
      have listed : c ∈ "//".toList := whole ▸ List.mem_append_right _ List.mem_cons_self
      have slash : c = '/' := by simpa [slashes_eq] using listed
      rw [rest, slash] at apart
      exact absurd rfl apart

/-- A text that none of the signs of credentials is in. -/
structure Quiet (text : List Char) : Prop where
  nonempty : text ≠ []
  plain : ∀ c ∈ text, isUserChar c = true

theorem Quiet.not_mem {text : List Char} (quiet : Quiet text) {c : Char}
    (sign : isUserChar c = false) : c ∉ text := by
  intro listed
  rw [quiet.plain c listed] at sign
  cases sign

theorem isPasswordChar_of_isUserChar {c : Char} (plain : isUserChar c = true) :
    isPasswordChar c = true := by
  simp only [isUserChar, isPasswordChar, Bool.not_eq_true', Bool.or_eq_false_iff] at *
  exact ⟨plain.1.2, plain.2⟩

/-- Where a quiet text ends up: it is part of a password, or stays where it is. -/
inductive Kept (words : Words) (head tail : List Char) : Prop
  | hides (whole : List Char) (each : ∀ text, Quiet text →
      hidden words none (head ++ (text ++ tail)) = whole)
  | keeps (front back : List Char) (ends : front.getLast? = head.getLast?)
      (each : ∀ text, Quiet text →
        hidden words none (head ++ (text ++ tail)) = front ++ (text ++ back))

theorem Kept.cons {head tail : List Char} (kept : Kept words head tail) (c : Char)
    (emits : ∀ text, Quiet text → hidden words none (c :: (head ++ (text ++ tail))) =
      c :: hidden words none (head ++ (text ++ tail))) : Kept words (c :: head) tail := by
  cases kept with
  | hides whole each =>
    refine .hides (c :: whole) fun text quiet => ?_
    rw [List.cons_append, emits text quiet, each text quiet]
  | keeps front back ends each =>
    refine .keeps (c :: front) back ?_ fun text quiet => ?_
    · rw [List.getLast?_cons, List.getLast?_cons, ends]
    · rw [List.cons_append, emits text quiet, each text quiet, List.cons_append]

/-- Credentials that end before the text. -/
theorem Kept.behind {head tail user pw : List Char} (kept : Kept words head tail)
    (some_ : user ≠ []) (users : ∀ c ∈ user, isUserChar c = true)
    (passwords : ∀ c ∈ pw, isPasswordChar c = true) :
    Kept words (':' :: ("//".toList ++ (user ++ ':' :: (pw ++ '@' :: head)))) tail := by
  have emits : ∀ text, hidden words none (':' :: ("//".toList ++ (user ++ ':' ::
      (pw ++ '@' :: head))) ++ (text ++ tail)) = "://".toList ++ (user ++
        (":[REDACTED]@".toList ++ hidden words none (head ++ (text ++ tail)))) := by
    intro text
    refine hidden_colon ⟨?_, some_, users, passwords⟩
    simp
  cases kept with
  | hides whole each =>
    refine .hides ("://".toList ++ (user ++ (":[REDACTED]@".toList ++ whole)))
      fun text quiet => ?_
    rw [emits, each text quiet]
  | keeps front back ends each =>
    refine .keeps ("://".toList ++ (user ++ (":[REDACTED]@".toList ++ front))) back ?_
      fun text quiet => ?_
    · have sign : ":[REDACTED]@".toList = ":[REDACTED]".toList ++ ['@'] := by decide
      simp [List.getLast?_append, List.getLast?_cons, ends, sign]
    · rw [emits, each text quiet]
      simp only [List.append_assoc]

theorem Quiet.head?_append {text : List Char} (quiet : Quiet text) (tail : List Char) :
    (text ++ tail).head? ≠ some '/' := by
  obtain ⟨c, rest, rfl⟩ := List.exists_cons_of_ne_nil quiet.nonempty
  intro same
  have plain := quiet.plain c List.mem_cons_self
  rw [Option.some.inj same] at plain
  exact absurd plain (by decide)

/-- Credentials that a quiet text follows end before it, or have it as a part of their
password or of their user. -/
theorem kept_of_userinfo {head text tail user pw rest : List Char} (quiet : Quiet text)
    (is : Userinfo (head ++ (text ++ tail)) user pw rest)
    (ih : ∀ more : List Char, more.length < head.length → Kept words more tail) :
    Kept words (':' :: head) tail := by
  obtain ⟨more, rfl, named⟩ := slashes_cases (quiet.head?_append tail) is.whole.symm
  rcases cut_cases named with ⟨more, rfl, secret⟩ | ⟨left, rfl, begun⟩
  · rcases cut_cases secret with ⟨more, rfl, -⟩ | ⟨left, rfl, begun⟩
    · refine (ih more ?_).behind is.named is.users is.passwords
      simp only [List.length_append, List.length_cons]
      omega
    · rcases cut_cases begun.symm with ⟨inner, rfl, -⟩ | ⟨left, rfl, rfl⟩
      · exact absurd (by simp) (quiet.not_mem (c := '@') (by decide))
      · refine .hides ("://".toList ++ (user ++ (":[REDACTED]@".toList ++
          hidden words none rest))) fun other quiet' => ?_
        refine @hidden_colon words _ (more ++ (other ++ left)) _ _ ⟨by simp, is.named, is.users, ?_⟩
        have passwords := is.passwords
        simp only [List.forall_mem_append] at passwords ⊢
        exact ⟨passwords.1, fun c listed => isPasswordChar_of_isUserChar (quiet'.plain c listed),
          passwords.2.2⟩
  · rcases cut_cases begun.symm with ⟨inner, rfl, -⟩ | ⟨left, rfl, rfl⟩
    · exact absurd (by simp) (quiet.not_mem (c := ':') (by decide))
    · refine .keeps (':' :: ("//".toList ++ more)) (left ++ (":[REDACTED]@".toList ++
        hidden words none rest)) rfl fun other quiet' => ?_
      have users := is.users
      have is' : Userinfo ("//".toList ++ more ++ (other ++ (left ++ ':' :: (pw ++ '@' :: rest))))
          (more ++ (other ++ left)) pw rest := by
        refine ⟨by simp, by simp [quiet'.nonempty], ?_, is.passwords⟩
        simp only [List.forall_mem_append] at users ⊢
        exact ⟨users.1, quiet'.plain, users.2.2⟩
      rw [List.cons_append, hidden_colon is']
      simp

/-- Whatever stands around a quiet text. -/
theorem kept_hidden (head tail : List Char) : Kept words head tail := by
  induction size : head.length using Nat.strong_induction_on generalizing head with
  | _ n ih =>
    subst size
    cases head with
    | nil =>
      refine .keeps [] (hidden words none tail) rfl fun text quiet => ?_
      exact hidden_append (quiet.not_mem (by decide)) tail
    | cons c head =>
      have shorter := ih head.length (by simp) head rfl
      by_cases colon : c = ':'
      · subst colon
        by_cases found : ∃ text, Quiet text ∧ ∃ user pw rest,
            Userinfo (head ++ (text ++ tail)) user pw rest
        · obtain ⟨text, quiet, user, pw, rest, is⟩ := found
          exact kept_of_userinfo quiet is fun more smaller =>
            ih more.length (Nat.lt_succ_of_lt smaller) more rfl
        · refine shorter.cons ':' fun text quiet => hidden_colon_none fun user pw rest is => ?_
          exact found ⟨text, quiet, user, pw, rest, is⟩
      · exact shorter.cons c fun text _ => hidden_cons colon _

/-- A URL's credentials behind any text, the password left open. -/
def urlBehind (head user after p : List Char) : List Char :=
  head ++ (':' :: ("//".toList ++ (user ++ ':' :: (p ++ '@' :: after))))

/-- Earlier credentials end before a URL's, or have them in their password. -/
theorem hides_of_userinfo {head user after p name pw rest : List Char}
    (users : ∀ c ∈ user, isUserChar c = true) (passwords : ∀ c ∈ p, isPasswordChar c = true)
    (is : Userinfo (urlBehind head user after p) name pw rest)
    (ih : ∀ more : List Char, more.length < head.length → ∃ whole, ∀ p : List Char,
      (∀ c ∈ p, isPasswordChar c = true) →
        hidden words none (urlBehind more user after p) = whole) :
    ∃ whole, ∀ p : List Char, (∀ c ∈ p, isPasswordChar c = true) →
      hidden words none (':' :: urlBehind head user after p) = whole := by
  obtain ⟨more, rfl, named⟩ := @slashes_cases _ (':' :: _) _ nofun is.whole.symm
  -- what of the URL another password can hold
  have inner : ∀ p : List Char, (∀ c ∈ p, isPasswordChar c = true) →
      ∀ c ∈ "//".toList ++ (user ++ ':' :: p), isPasswordChar c = true := by
    intro p passwords c listed
    simp only [slashes_eq, List.mem_append, List.mem_cons, List.not_mem_nil, or_false, or_self]
      at listed
    rcases listed with rfl | inUser | rfl | inPw
    · decide
    · exact isPasswordChar_of_isUserChar (users c inUser)
    · decide
    · exact passwords c inPw
  rcases cut_cases named with ⟨more, rfl, secret⟩ | ⟨left, rfl, begun⟩
  · rcases cut_cases secret with ⟨more, rfl, -⟩ | ⟨left, rfl, begun⟩
    · obtain ⟨whole, each⟩ := ih more (by
        simp only [List.length_append, List.length_cons]
        omega)
      refine ⟨"://".toList ++ (name ++ (":[REDACTED]@".toList ++ whole)), fun q passwords' => ?_⟩
      rw [← each q passwords']
      exact hidden_colon ⟨by simp [urlBehind], is.named, is.users, is.passwords⟩
    · have same : (':' :: ("//".toList ++ (user ++ ':' :: p))) ++ '@' :: after =
          left ++ '@' :: rest := by
        rw [← begun]
        simp
      have older := is.passwords
      rw [List.forall_mem_append] at older
      obtain ⟨rfl, -, rfl⟩ := cut_unique (p := fun c => isPasswordChar c = true)
        (List.forall_mem_cons.mpr ⟨by decide, inner p passwords⟩) older.2 (by decide) (by decide)
          same
      refine ⟨"://".toList ++ (name ++ (":[REDACTED]@".toList ++ hidden words none after)),
        fun q passwords' => ?_⟩
      refine @hidden_colon words _ (more ++ ':' :: ("//".toList ++ (user ++ ':' :: q))) _ _
        ⟨by simp [urlBehind], is.named, is.users, ?_⟩
      exact List.forall_mem_append.mpr ⟨older.1,
        List.forall_mem_cons.mpr ⟨by decide, inner q passwords'⟩⟩
  · have users' := is.users
    rw [List.forall_mem_append] at users'
    cases left with
    | cons c left =>
      rw [List.cons_append, List.cons.injEq] at begun
      have colon := users'.2 c List.mem_cons_self
      rw [← begun.1] at colon
      exact absurd colon (by decide)
    | nil =>
      rw [List.nil_append, List.cons.injEq] at begun
      have same : ("//".toList ++ (user ++ ':' :: p)) ++ '@' :: after = pw ++ '@' :: rest := by
        rw [← begun.2]
        simp
      obtain ⟨-, -, rfl⟩ := cut_unique (p := fun c => isPasswordChar c = true)
        (inner p passwords) is.passwords (by decide) (by decide) same
      refine ⟨"://".toList ++ (more ++ (":[REDACTED]@".toList ++ hidden words none after)),
        fun q passwords' => ?_⟩
      have named := is.named
      rw [List.append_nil] at named
      exact @hidden_colon words _ ("//".toList ++ (user ++ ':' :: q)) _ _
        ⟨by simp [urlBehind], named, users'.1, inner q passwords'⟩

/-- A URL's password is hidden behind any text. -/
theorem hidden_urlBehind {user after : List Char} (named : user ≠ [])
    (users : ∀ c ∈ user, isUserChar c = true) (head : List Char) : ∃ whole, ∀ p : List Char,
      (∀ c ∈ p, isPasswordChar c = true) →
        hidden words none (urlBehind head user after p) = whole := by
  induction size : head.length using Nat.strong_induction_on generalizing head with
  | _ n ih =>
    subst size
    cases head with
    | nil =>
      exact ⟨_, fun p passwords => hidden_colon ⟨rfl, named, users, passwords⟩⟩
    | cons c head =>
      obtain ⟨whole, each⟩ := ih head.length (by simp) head rfl
      by_cases colon : c = ':'
      · subst colon
        by_cases found : ∃ p : List Char, (∀ c ∈ p, isPasswordChar c = true) ∧
            ∃ name pw rest, Userinfo (urlBehind head user after p) name pw rest
        · obtain ⟨p, passwords, name, pw, rest, is⟩ := found
          exact hides_of_userinfo users passwords is fun more smaller =>
            ih more.length (Nat.lt_succ_of_lt smaller) more rfl
        · refine ⟨':' :: whole, fun p passwords => ?_⟩
          rw [← each p passwords]
          exact hidden_colon_none fun name pw rest is => found ⟨p, passwords, name, pw, rest, is⟩
      · refine ⟨c :: whole, fun p passwords => ?_⟩
        rw [← each p passwords]
        exact hidden_cons colon _

/-! ## The second pattern -/

/-- The second step of the function, from a place in the text on. -/
def blanked (words : Words) (last : Option Char) (text : List Char) : List Char :=
  keywordPassword.sub words.isWord keywordRedacted last 0 text

/-- A text that begins with the setting of a password. -/
structure Setting (text gap gap' : List Char) (first : Char) (rest : List Char) : Prop where
  whole : text = "password".toList ++ (gap ++ '=' :: (gap' ++ first :: rest))
  before : ∀ c ∈ gap, isSpace c = true
  behind : ∀ c ∈ gap', isSpace c = true
  bare : isBareChar first = true

theorem isSpace_of_isBareChar {c : Char} (bare : isBareChar c = true) : isSpace c = false := by
  simp only [isBareChar, Bool.not_eq_true', Bool.or_eq_false_iff] at bare
  exact bare.1.1

theorem isWord_p (words : Words) : words.isWord 'p' = true := by
  rw [words.ascii 'p' (by decide)]
  decide

theorem keywordPassword_match? {last : Option Char} {text gap gap' rest : List Char} {first : Char}
    (apart : last.any words.isWord = false) (is : Setting text gap gap' first rest) :
    ∃ r, keywordPassword.match? words.isWord ⟨last, text, []⟩ = some r ∧
      r.rest = rest.dropWhile isBareChar := by
  obtain ⟨rfl, before, behind, bare⟩ := is
  have boundary : (⟨last, "password".toList ++ (gap ++ '=' :: (gap' ++ first :: rest)), []⟩ :
      Cursor).isBoundary words.isWord = true := by
    rw [Cursor.isBoundary, apart, password_eq]
    simp [isWord_p words]
  have blankEquals : ∀ ps : List Pattern, ∀ m : Cursor, ∀ d ∈ m.rest.head?, isSpace d = true →
      (concat (.chars (exactly "=") :: ps)).match? words.isWord m = none := by
    intro ps m d head space
    refine @match?_chars_seq_eq_none _ _ [] _ _ fun c own => ?_
    rw [Option.mem_unique own head, decide_eq_false_iff_not]
    rintro rfl
    exact absurd space (by decide)
  have blankValue : ∀ m : Cursor, ∀ d ∈ m.rest.head?, isSpace d = true →
      (concat [.group "pw" (concat [.chars [isBareChar], .many true isBareChar])]).match?
        words.isWord m = none := by
    intro m d head space
    rw [match?_concat_singleton, match?_group, concat, match?_chars_seq_eq_none]
    · rfl
    · intro c own
      rw [Option.mem_unique own head, ← Bool.not_eq_true]
      intro bare
      rw [isSpace_of_isBareChar bare] at space
      cases space
  rw [keywordPassword, concat, match?_boundary_seq boundary, concat,
    match?_chars_seq rfl (forall₂_exactly_iff.mpr rfl), concat,
    match?_many_seq_of_stop rfl before (by decide) (blankEquals _), concat,
    @match?_chars_seq _ _ _ _ ['='] _ rfl (forall₂_exactly_iff.mpr rfl), concat,
    match?_many_seq_of_stop rfl behind (isSpace_of_isBareChar bare) blankValue,
    match?_concat_singleton, match?_group, concat,
    @match?_chars_seq _ _ _ _ [first] _ rfl (.cons bare .nil), match?_concat_singleton,
    match?_many]
  exact ⟨_, rfl, rfl⟩

theorem keywordPassword_results {last : Option Char} {text : List Char} {r : Cursor}
    (found : r ∈ keywordPassword.results words.isWord ⟨last, text, []⟩) :
    last.any words.isWord = false ∧ ∃ gap gap' first rest, Setting text gap gap' first rest := by
  obtain ⟨m, here, found⟩ := mem_results_concat_cons.mp found
  obtain ⟨boundary, rfl⟩ := mem_results_boundary.mp here
  obtain ⟨m, keyword, found⟩ := mem_results_concat_cons.mp found
  obtain ⟨sign, rest, whole, own, rfl⟩ := mem_results_chars.mp keyword
  obtain rfl := forall₂_exactly_iff.mp own
  obtain ⟨m, spaces, found⟩ := mem_results_concat_cons.mp found
  obtain ⟨gap, rest, split, before, rfl⟩ := mem_results_many.mp spaces
  obtain ⟨m, equals, found⟩ := mem_results_concat_cons.mp found
  obtain ⟨sign, rest, split', own, rfl⟩ := mem_results_chars.mp equals
  obtain rfl := forall₂_exactly_iff.mp own
  obtain ⟨m, spaces, found⟩ := mem_results_concat_cons.mp found
  obtain ⟨gap', rest, split'', behind, rfl⟩ := mem_results_many.mp spaces
  obtain ⟨m, value, -⟩ := mem_results_concat_cons.mp found
  obtain ⟨m, values, -⟩ := mem_results_group_iff.mp value
  obtain ⟨run, rest, split₃, some_, bares, -⟩ := mem_results_plus.mp values
  obtain ⟨first, run, rfl⟩ := List.exists_cons_of_ne_nil some_
  simp only [skip_rest] at whole split split' split'' split₃
  subst split split' split'' split₃
  refine ⟨?_, gap, gap', first, run ++ rest, whole, before, behind, bares first List.mem_cons_self⟩
  rw [Cursor.isBoundary, whole, password_eq] at boundary
  simpa [isWord_p words] using boundary

theorem blanked_nil (last : Option Char) : blanked words last [] = [] := by
  have none_ : keywordPassword.match? words.isWord ⟨last, [], []⟩ = none := by
    rw [match?_eq_none_iff]
    intro r found
    obtain ⟨-, gap, gap', first, rest, is⟩ := keywordPassword_results found
    exact absurd is.whole (by simp)
  rw [blanked, Pattern.sub, none_]

/-- Where no setting begins a character stays. -/
theorem blanked_cons {last : Option Char} {c : Char} {text : List Char}
    (none_ : last.any words.isWord = false →
      ∀ gap gap' first rest, ¬Setting (c :: text) gap gap' first rest) :
    blanked words last (c :: text) = c :: blanked words (some c) text := by
  refine sub_of_none (match?_eq_none_iff.mpr fun r found => ?_)
  obtain ⟨apart, gap, gap', first, rest, is⟩ := keywordPassword_results found
  exact none_ apart gap gap' first rest is

theorem blanked_other {last : Option Char} {c : Char} (other : c ≠ 'p') (text : List Char) :
    blanked words last (c :: text) = c :: blanked words (some c) text := by
  refine blanked_cons fun _ gap gap' first rest is => ?_
  have whole := is.whole
  rw [password_eq, List.cons_append, List.cons.injEq] at whole
  exact other whole.1

/-- What stands before matters only to a `p`. -/
theorem blanked_last {text : List Char} (other : text.head? ≠ some 'p') (last : Option Char) :
    blanked words last text = blanked words none text := by
  cases text with
  | nil => rw [blanked_nil, blanked_nil]
  | cons c text =>
    have other : c ≠ 'p' := fun same => other (congrArg some same)
    rw [blanked_other other, blanked_other other]

theorem head?_dropWhile_bare (text : List Char) :
    (text.dropWhile isBareChar).head? ≠ some 'p' := by
  intro head
  have stop := List.head?_dropWhile_not isBareChar text
  rw [head] at stop
  exact absurd stop (by decide)

/-- A password is blanked up to white space or a quote. -/
theorem blanked_setting {last : Option Char} {text gap gap' rest : List Char} {first : Char}
    (apart : last.any words.isWord = false) (is : Setting text gap gap' first rest) :
    blanked words last text = "password=[REDACTED]".toList ++
      blanked words none (rest.dropWhile isBareChar) := by
  obtain ⟨r, found, behind⟩ := keywordPassword_match? apart is
  have shorter : r.rest.length < text.length := by
    have smaller := (List.dropWhile_suffix isBareChar (l := rest)).length_le
    rw [behind, is.whole]
    simp only [List.length_append, List.length_cons]
    omega
  rw [blanked, sub_of_match found shorter, ← blanked, behind,
    blanked_last (head?_dropWhile_bare rest)]
  rfl

/-- No setting begins without a `p`. -/
theorem blanked_append {front : List Char} (free : 'p' ∉ front) (last : Option Char)
    (text : List Char) :
    blanked words last (front ++ text) = front ++ blanked words (front.getLast?.or last) text := by
  induction front generalizing last with
  | nil => rfl
  | cons c front ih =>
    rw [List.mem_cons, not_or] at free
    rw [List.cons_append, blanked_other (Ne.symm free.1), ih free.2, List.getLast?_cons,
      List.cons_append]
    cases front.getLast? <;> rfl

theorem blanked_of_not_mem {text : List Char} (free : 'p' ∉ text) (last : Option Char) :
    blanked words last text = text := by
  have whole := @blanked_append words text free last []
  rwa [blanked_nil, List.append_nil] at whole

/-! ## What the second pattern does around a password -/

/-- A setting behind any text, the password left open. -/
def settingBehind (head tail p : List Char) : List Char :=
  head ++ ("password=".toList ++ (p ++ tail))

/-- A password that the second pattern takes. -/
def IsBare (p : List Char) : Prop := p ≠ [] ∧ ∀ c ∈ p, isBareChar c = true

theorem dropWhile_bare {front : List Char} (bares : ∀ c ∈ front, isBareChar c = true)
    {p : List Char} (bare : IsBare p) (tail : List Char) :
    (front ++ ("password=".toList ++ (p ++ tail))).dropWhile isBareChar =
      tail.dropWhile isBareChar := by
  rw [List.dropWhile_append_of_pos bares, List.dropWhile_append_of_pos (by decide),
    List.dropWhile_append_of_pos bare.2]

/-- The keyword begins within another one nowhere. -/
theorem password_cases {c : Char} {head body tail : List Char}
    (same : "password".toList ++ tail = c :: head ++ ("password=".toList ++ body)) :
    ∃ more, c :: head = "password".toList ++ more ∧
      tail = more ++ ("password=".toList ++ body) := by
  rcases List.append_eq_append_iff.mp same with ⟨more, whole, rest⟩ | ⟨more, whole, rest⟩
  · exact ⟨more, whole, rest⟩
  · cases more with
    | nil => exact ⟨[], by rw [whole, List.append_nil, List.append_nil], rest.symm⟩
    | cons d more =>
      rw [setting_eq, List.cons_append, List.cons_append, List.cons.injEq] at rest
      rw [password_eq, List.cons_append, List.cons.injEq] at whole
      have listed : 'p' ∈ "assword".toList := by
        rw [whole.2, rest.1]
        exact List.mem_append_right _ List.mem_cons_self
      exact absurd listed (by decide)

/-- White space before the keyword is not a part of it. -/
theorem blank_before_password {left body rest : List Char} {c : Char}
    (blank : ∀ d ∈ left, isSpace d = true)
    (same : "password=".toList ++ body = left ++ c :: rest) :
    left = [] ∧ c = 'p' ∧ rest = "assword=".toList ++ body := by
  cases left with
  | nil =>
    rw [setting_eq, List.cons_append, List.nil_append, List.cons.injEq] at same
    exact ⟨rfl, same.1.symm, same.2.symm⟩
  | cons d left =>
    rw [setting_eq, List.cons_append, List.cons_append, List.cons.injEq] at same
    have space := blank d List.mem_cons_self
    rw [← same.1] at space
    exact absurd space (by decide)

/-- An earlier setting ends before the keyword, or has it in its value. -/
theorem blanked_of_setting {last : Option Char} {c : Char} {head tail p gap gap' rest : List Char}
    {first : Char} (apart : last.any words.isWord = false)
    (is : Setting (settingBehind (c :: head) tail p) gap gap' first rest)
    (ih : ∀ more : List Char, more.length < (c :: head).length → more ≠ [] →
      more.getLast? = (c :: head).getLast? → ∃ whole, ∀ p, IsBare p →
        blanked words none (settingBehind more tail p) = whole) :
    ∃ whole, ∀ p, IsBare p → blanked words last (settingBehind (c :: head) tail p) = whole := by
  obtain ⟨more, begins, valued⟩ := password_cases is.whole.symm
  rcases cut_cases valued with ⟨later, rfl, value⟩ | ⟨left, rfl, begun⟩
  · rcases cut_cases value with ⟨last_, rfl, -⟩ | ⟨left, rfl, begun⟩
    · have each : ∀ p, IsBare p → blanked words last (settingBehind (c :: head) tail p) =
          "password=[REDACTED]".toList ++ blanked words none
            ((last_ ++ ("password=".toList ++ (p ++ tail))).dropWhile isBareChar) := by
        intro p _
        refine blanked_setting apart ⟨?_, is.before, is.behind, is.bare⟩
        rw [settingBehind, begins]
        simp
      by_cases bares : ∀ c ∈ last_, isBareChar c = true
      · refine ⟨"password=[REDACTED]".toList ++ blanked words none (tail.dropWhile isBareChar),
          fun p bare => ?_⟩
        rw [each p bare, dropWhile_bare bares bare]
      · have some_ : last_.dropWhile isBareChar ≠ [] := mt List.dropWhile_eq_nil_iff.mp bares
        obtain ⟨taken, split⟩ := List.dropWhile_suffix isBareChar (l := last_)
        have whole : c :: head = ("password".toList ++ (gap ++ '=' :: (gap' ++ first :: taken))) ++
            last_.dropWhile isBareChar := by
          rw [begins]
          conv_lhs => rw [← split]
          simp
        obtain ⟨kept, same⟩ := ih (last_.dropWhile isBareChar) (by
          rw [whole]
          simp only [List.length_append, List.length_cons]
          omega) some_ (by rw [whole, List.getLast?_append_of_ne_nil _ some_])
        refine ⟨"password=[REDACTED]".toList ++ kept, fun p bare => ?_⟩
        rw [each p bare, ← same p bare, settingBehind, List.dropWhile_append, if_neg]
        simpa using some_
    · obtain ⟨rfl, rfl, -⟩ := blank_before_password
        (fun d listed => is.behind d (List.mem_append_right _ listed)) begun
      refine ⟨"password=[REDACTED]".toList ++ blanked words none (tail.dropWhile isBareChar),
        fun p bare => ?_⟩
      have setting : Setting (settingBehind (c :: head) tail p) gap later 'p'
          ("assword=".toList ++ (p ++ tail)) := by
        refine ⟨?_, is.before, ?_, by decide⟩
        · rw [settingBehind, begins, setting_eq]
          simp
        · exact fun d listed => is.behind d (List.mem_append_left _ listed)
      rw [blanked_setting apart setting, List.dropWhile_append_of_pos (by decide),
        List.dropWhile_append_of_pos bare.2]
  · obtain ⟨-, equals, -⟩ := blank_before_password
      (fun d listed => is.before d (List.mem_append_right _ listed)) begun
    exact absurd equals (by decide)

/-- A setting without spaces is blanked behind any text that does not end in a word. -/
theorem blanked_settingBehind (tail head : List Char) (last : Option Char)
    (apart : (head.getLast?.or last).any words.isWord = false) : ∃ whole, ∀ p, IsBare p →
      blanked words last (settingBehind head tail p) = whole := by
  induction size : head.length using Nat.strong_induction_on generalizing head last with
  | _ n ih =>
    subst size
    cases head with
    | nil =>
      refine ⟨"password=[REDACTED]".toList ++ blanked words none (tail.dropWhile isBareChar),
        fun p bare => ?_⟩
      obtain ⟨first, rest, rfl⟩ := List.exists_cons_of_ne_nil bare.1
      obtain ⟨one, others⟩ := List.forall_mem_cons.mp bare.2
      have setting : Setting (settingBehind [] tail (first :: rest)) [] [] first
          (rest ++ tail) := by
        refine ⟨?_, nofun, nofun, one⟩
        rw [settingBehind, setting_eq_append]
        simp
      have apart : last.any words.isWord = false := apart
      rw [blanked_setting apart setting, List.dropWhile_append_of_pos others]
    | cons c head =>
      by_cases found : last.any words.isWord = false ∧ ∃ p, IsBare p ∧ ∃ gap gap' first rest,
          Setting (settingBehind (c :: head) tail p) gap gap' first rest
      · obtain ⟨apart', p, -, gap, gap', first, rest, is⟩ := found
        refine blanked_of_setting apart' is fun more smaller some_ ends => ?_
        refine ih more.length smaller more none ?_ rfl
        obtain ⟨d, ending⟩ := Option.ne_none_iff_exists'.mp (mt List.getLast?_eq_none_iff.mp some_)
        rw [← ends, ending] at apart
        rw [ending]
        exact apart
      · have apart' : (head.getLast?.or (some c)).any words.isWord = false := by
          rw [List.getLast?_cons] at apart
          cases ending : head.getLast? <;> simpa [ending] using apart
        obtain ⟨whole, each⟩ := ih head.length (by simp) head (some c) apart' rfl
        refine ⟨c :: whole, fun p bare => ?_⟩
        rw [← each p bare]
        refine blanked_cons fun apart gap gap' first rest is => ?_
        exact found ⟨apart, p, bare, gap, gap', first, rest, is⟩

/-! ## Forms that are covered -/

theorem redactDsn_ofList (text : List Char) : redactDsn words (String.ofList text) =
    String.ofList (blanked words none (hidden words none text)) := by
  rw [redactDsn, String.toList_ofList]
  rfl

theorem ascii_of_isUrlChar {c : Char} (is : isUrlChar c = true) : c.toNat < 128 := by
  rw [isUrlChar, isUnreserved, Bool.or_eq_true, Bool.or_eq_true, List.contains_iff_mem,
    List.contains_iff_mem] at is
  rcases is with (letter | sign) | sign
  · have letter : (decide (c.val ≥ 'A'.val ∧ c.val ≤ 'Z'.val) ||
        (decide (c.val ≥ 'a'.val) && decide (c.val ≤ 'z'.val)) ||
          (decide (c.val ≥ '0'.val) && decide (c.val ≤ '9'.val))) = true := letter
    simp only [Bool.or_eq_true, Bool.and_eq_true, decide_eq_true_eq, ge_iff_le,
      UInt32.le_iff_toNat_le] at letter
    have bound : c.val.toNat ≤ 122 := by
      rcases letter with (⟨-, upper⟩ | ⟨-, lower⟩) | ⟨-, digit⟩
      · exact upper.trans (by decide)
      · exact lower
      · exact digit.trans (by decide)
    exact Nat.lt_of_le_of_lt bound (by decide)
  · have each : ∀ d ∈ "-._~".toList, d.toNat < 128 := by decide
    exact each c sign
  · have each : ∀ d ∈ "!$&'()*+,;=".toList, d.toNat < 128 := by decide
    exact each c sign

theorem isUserChar_of_isUrlChar {c : Char} (is : isUrlChar c = true) : isUserChar c = true :=
  ascii_cases (fun c => isUrlChar c = true → isUserChar c = true) (by decide)
    (ascii_of_isUrlChar is) is

theorem plain_of_not_isStop {c : Char} (other : isStop c = false) :
    isUserChar c = true ∧ isBareChar c = true := by
  rw [isStop, Bool.or_eq_false_iff, signs_eq] at other
  simp only [List.contains_cons, List.contains_nil, Bool.or_false, Bool.or_eq_false_iff,
    beq_eq_false_iff_ne] at other
  obtain ⟨space, colon, slash, sign, quote, double⟩ := other
  simp [isUserChar, isBareChar, space, colon, slash, sign, quote, double]

theorem cases_of_encoded {raw : Char → Bool} {p : List Char} (encoded : Encoded raw p) :
    ∀ c ∈ p, raw c = true ∨ isUserChar c = true ∧ isBareChar c = true := by
  have hex : ∀ {c}, isHexDigit c = true → isUserChar c = true ∧ isBareChar c = true := by
    intro c digit
    have each : ∀ d ∈ "0123456789abcdefABCDEF".toList,
        isUserChar d = true ∧ isBareChar d = true := by decide
    exact each c (List.contains_iff_mem.mp digit)
  induction encoded with
  | nil => exact nofun
  | raw is _ _ ih => exact List.forall_mem_cons.mpr ⟨Or.inl is, ih⟩
  | percent high low _ _ ih =>
    exact List.forall_mem_cons.mpr ⟨Or.inr (by decide), List.forall_mem_cons.mpr
      ⟨Or.inr (hex high), List.forall_mem_cons.mpr ⟨Or.inr (hex low), ih⟩⟩⟩

theorem encoded_of_raw {raw : Char → Bool} {p : List Char}
    (each : ∀ c ∈ p, raw c = true ∧ c ≠ '%') : Encoded raw p := by
  induction p with
  | nil => exact .nil
  | cons c p ih =>
    obtain ⟨⟨is, other⟩, later⟩ := List.forall_mem_cons.mp each
    exact .raw is other (ih later)

theorem isUserChar_keyword : ∀ c ∈ "password=".toList, isUserChar c = true := by
  decide

theorem silent_userinfo (place : Place) {scheme user : List Char} (named : user ≠ [])
    (users : ∀ c ∈ user, isUserChar c = true) : Silent words place (.userinfo scheme user) := by
  intro before after p q _ _ writes writes'
  obtain ⟨whole, each⟩ := @hidden_urlBehind words user after named users (before ++ scheme)
  have passwords : ∀ p, (Form.userinfo scheme user).Writes p →
      ∀ c ∈ p, isPasswordChar c = true := by
    intro p writes c listed
    rcases cases_of_encoded writes c listed with plain | ⟨plain, -⟩
    · rcases Bool.or_eq_true _ _ |>.mp plain with plain | colon
      · exact isPasswordChar_of_isUserChar (isUserChar_of_isUrlChar plain)
      · rw [of_decide_eq_true colon]
        decide
    · exact isPasswordChar_of_isUserChar plain
  have shape : ∀ p : List Char, before ++ ((Form.userinfo scheme user).fill p ++ after) =
      urlBehind (before ++ scheme) user after p := by
    intro p
    simp [urlBehind, authority_eq]
  rw [shape, shape, redactDsn_ofList, redactDsn_ofList, each p (passwords p writes),
    each q (passwords q writes')]

/-- A setting that no sign of credentials is in, behind a text that ends in no word. -/
theorem silent_setting {front mark after p q : List Char}
    (quiet : ∀ c ∈ mark ++ "password=".toList, isUserChar c = true)
    (apart : ((front ++ mark).getLast?).any words.isWord = false)
    (bare : IsBare p) (bare' : IsBare q) (plain : ∀ c ∈ p, isUserChar c = true)
    (plain' : ∀ c ∈ q, isUserChar c = true) :
    blanked words none (hidden words none
        (front ++ ((mark ++ ("password=".toList ++ p)) ++ after))) =
      blanked words none (hidden words none
        (front ++ ((mark ++ ("password=".toList ++ q)) ++ after))) := by
  have quiets : ∀ p, (∀ c ∈ p, isUserChar c = true) →
      Quiet (mark ++ ("password=".toList ++ p)) := by
    intro p plain
    refine ⟨by simp, ?_⟩
    rw [← List.append_assoc]
    exact List.forall_mem_append.mpr ⟨quiet, plain⟩
  cases @kept_hidden words front after with
  | hides whole each => rw [each _ (quiets p plain), each _ (quiets q plain')]
  | keeps kept back ends each =>
    rw [each _ (quiets p plain), each _ (quiets q plain')]
    have apart' : ((kept ++ mark).getLast?.or none).any words.isWord = false := by
      rw [Option.or_none, List.getLast?_append, ends, ← List.getLast?_append]
      exact apart
    obtain ⟨whole, same⟩ := blanked_settingBehind back (kept ++ mark) none apart'
    have shape : ∀ p : List Char, kept ++ (mark ++ ("password=".toList ++ p) ++ back) =
        settingBehind (kept ++ mark) back p := by
      intro p
      simp [settingBehind]
    rw [shape, shape, same p bare, same q bare']

theorem silent_parameter (place : Place) {mark : Char} {raw : Char → Bool}
    (accepted : (Form.parameter mark raw).Accepted)
    (encoded : ∀ c, isStop c = true → raw c = false) : Silent words place (.parameter mark raw) := by
  intro before after p q _ _ writes writes'
  have sign : isUserChar mark = true ∧ words.isWord mark = false := by
    rcases accepted.1 with rfl | rfl
    · exact ⟨by decide, by rw [words.ascii _ (by decide)]; decide⟩
    · exact ⟨by decide, by rw [words.ascii _ (by decide)]; decide⟩
  have plain : ∀ p : List Char, Encoded raw p →
      (∀ c ∈ p, isUserChar c = true) ∧ ∀ c ∈ p, isBareChar c = true := by
    intro p written
    refine forall₂_and.mp fun c listed => ?_
    rcases cases_of_encoded written c listed with is | both
    · refine plain_of_not_isStop (Bool.eq_false_iff.mpr fun stop => ?_)
      rw [encoded c stop] at is
      cases is
    · exact both
  have shape : ∀ p : List Char, before ++ ((Form.parameter mark raw).fill p ++ after) =
      before ++ (([mark] ++ ("password=".toList ++ p)) ++ after) := fun _ => rfl
  rw [shape, shape, redactDsn_ofList, redactDsn_ofList, silent_setting _ _
    ⟨writes.1, (plain p writes.2).2⟩ ⟨writes'.1, (plain q writes'.2).2⟩ (plain p writes.2).1
      (plain q writes'.2).1]
  · exact List.forall_mem_append.mpr ⟨List.forall_mem_singleton.mpr sign.1, isUserChar_keyword⟩
  · rw [List.getLast?_append]
    simpa using sign.2

theorem plain_of_escaped {plain : Char → Bool} {p : List Char} (escaped : Escaped plain p)
    (none_ : plain '\\' = false) : ∀ c ∈ p, plain c = true := by
  induction escaped with
  | nil => exact nofun
  | plain is _ _ ih => exact List.forall_mem_cons.mpr ⟨is, ih⟩
  | escape is =>
    rw [is] at none_
    cases none_

theorem silent_bare {plain : Char → Bool} (straight : plain '\\' = false)
    (safe : ∀ c, isStop c = true → plain c = false) :
    Silent words .apart (.bare [] [] plain) := by
  intro before after p q allows _ writes writes'
  have each : ∀ p, (Form.bare [] [] plain).Writes p →
      (∀ c ∈ p, isUserChar c = true) ∧ IsBare p := by
    intro p writes
    have good : ∀ c ∈ p, isUserChar c = true ∧ isBareChar c = true := by
      intro c listed
      refine plain_of_not_isStop (Bool.eq_false_iff.mpr fun stop => ?_)
      have is := plain_of_escaped writes.2.2 straight c listed
      rw [safe c stop] at is
      cases is
    exact ⟨fun c listed => (good c listed).1, writes.1, fun c listed => (good c listed).2⟩
  have shape : ∀ p : List Char, before ++ ((Form.bare [] [] plain).fill p ++ after) =
      before ++ (([] ++ ("password=".toList ++ p)) ++ after) := by
    intro p
    simp [setting_eq_append]
  rw [shape, shape, redactDsn_ofList, redactDsn_ofList, silent_setting isUserChar_keyword _
    (each p writes).2 (each q writes').2 (each p writes).1 (each q writes').1]
  rw [List.append_nil]
  cases ending : before.getLast? with
  | none => rfl
  | some c => exact allows c ending

/-! ## Forms that are not -/

theorem hidden_of_not_mem {text : List Char} (free : '@' ∉ text) :
    hidden words none text = text := by
  induction text with
  | nil => exact hidden_nil none
  | cons c text ih =>
    rw [List.mem_cons, not_or] at free
    by_cases colon : c = ':'
    · subst colon
      rw [hidden_colon_none, ih free.2]
      intro user pw rest is
      exact free.2 (by simp [is.whole])
    · rw [hidden_cons colon, ih free.2]

/-- What stands behind the last at sign is kept. -/
theorem hidden_ends {left : List Char} (sign : '@' ∉ left) (head : List Char) :
    ∃ kept, hidden words none (head ++ left) = kept ++ left := by
  induction size : head.length using Nat.strong_induction_on generalizing head with
  | _ n ih =>
    subst size
    cases head with
    | nil => exact ⟨[], hidden_of_not_mem sign⟩
    | cons c head =>
      obtain ⟨kept, same⟩ := ih head.length (by simp) head rfl
      by_cases begun : c = ':' ∧ ∃ user pw rest, Userinfo (head ++ left) user pw rest
      · obtain ⟨rfl, user, pw, rest, is⟩ := begun
        have ended : ("//".toList ++ (user ++ ':' :: pw)) ++ '@' :: rest = head ++ left := by
          rw [is.whole]
          simp
        rcases cut_cases ended with ⟨more, rfl, rfl⟩ | ⟨more, -, rfl⟩
        · obtain ⟨kept, same⟩ := ih more.length (by
            simp only [List.length_append, List.length_cons]
            omega) more rfl
          refine ⟨"://".toList ++ (user ++ (":[REDACTED]@".toList ++ kept)), ?_⟩
          rw [List.cons_append, hidden_colon is, same]
          simp only [List.append_assoc]
        · exact absurd (by simp) sign
      · refine ⟨c :: kept, ?_⟩
        by_cases colon' : c = ':'
        · subst colon'
          rw [List.cons_append, hidden_colon_none fun user pw rest is =>
            begun ⟨rfl, user, pw, rest, is⟩, same, List.cons_append]
        · rw [List.cons_append, hidden_cons colon', same, List.cons_append]

theorem dropWhile_quote (more left : List Char) :
    (more ++ '\'' :: left).dropWhile isBareChar = more.dropWhile isBareChar ++ '\'' :: left := by
  rw [List.dropWhile_append]
  split
  · rename_i none_
    rw [List.isEmpty_iff.mp none_]
    rfl
  · rfl

/-- A single quote ends a password, and what stands behind it is kept. -/
theorem blanked_quote {left : List Char} (free : 'p' ∉ left) (head : List Char)
    (last : Option Char) :
    ∃ kept, blanked words last (head ++ '\'' :: left) = kept ++ '\'' :: left := by
  induction size : head.length using Nat.strong_induction_on generalizing head last with
  | _ n ih =>
    subst size
    cases head with
    | nil =>
      refine ⟨[], blanked_of_not_mem ?_ last⟩
      rw [List.nil_append, List.mem_cons, not_or]
      exact ⟨by decide, free⟩
    | cons c head =>
      by_cases begun : last.any words.isWord = false ∧ ∃ gap gap' first rest,
          Setting (c :: head ++ '\'' :: left) gap gap' first rest
      · obtain ⟨apart, gap, gap', first, rest, is⟩ := begun
        have ended : (c :: head) ++ '\'' :: left =
            ("password".toList ++ (gap ++ '=' :: (gap' ++ [first]))) ++ rest := by
          rw [is.whole]
          simp
        rcases cut_cases ended with ⟨more, quoted, -⟩ | ⟨more, whole, rfl⟩
        · -- no quote stands before the value or begins it
          have listed : '\'' ∈ "password".toList ++ (gap ++ '=' :: (gap' ++ [first])) := by
            rw [quoted]
            simp
          simp only [List.mem_append, List.mem_cons, List.not_mem_nil, or_false] at listed
          rcases listed with letter | space | equals | space | rfl
          · exact absurd letter (by decide)
          · exact absurd (is.before _ space) (by decide)
          · exact absurd equals (by decide)
          · exact absurd (is.behind _ space) (by decide)
          · exact absurd is.bare (by decide)
        · have smaller := (List.dropWhile_suffix isBareChar (l := more)).length_le
          obtain ⟨kept, same⟩ := ih (more.dropWhile isBareChar).length (by
            rw [whole]
            simp only [List.length_append, List.length_cons]
            omega) (more.dropWhile isBareChar) none rfl
          refine ⟨"password=[REDACTED]".toList ++ kept, ?_⟩
          rw [blanked_setting apart is, dropWhile_quote, same, List.append_assoc]
      · obtain ⟨kept, same⟩ := ih head.length (by simp) head (some c) rfl
        have stays : blanked words last (c :: (head ++ '\'' :: left)) =
            c :: blanked words (some c) (head ++ '\'' :: left) :=
          blanked_cons fun apart gap gap' first rest is =>
            begun ⟨apart, gap, gap', first, rest, is⟩
        refine ⟨c :: kept, ?_⟩
        rw [List.cons_append, stays, same, List.cons_append]

/-- The same message with two passwords, and something different left of each. -/
theorem not_silent {place : Place} {form : Form} {before after p q one other : List Char}
    (allows : place.Allows words before) (follows : form.Follows before) (writes : form.Writes p)
    (writes' : form.Writes q)
    (kept : ∃ more, blanked words none (hidden words none (before ++ (form.fill p ++ after))) =
      more ++ one)
    (kept' : ∃ more, blanked words none (hidden words none (before ++ (form.fill q ++ after))) =
      more ++ other)
    (sizes : one.length = other.length) (differ : one ≠ other) : ¬Silent words place form := by
  intro silent
  have same := silent before after p q allows follows writes writes'
  obtain ⟨more, ends⟩ := kept
  obtain ⟨more', ends'⟩ := kept'
  rw [redactDsn_ofList, redactDsn_ofList, String.ofList_inj, ends, ends'] at same
  exact differ (List.append_inj_right' same sizes)

/-- A password behind a single quote, and the rest of it after the quote. -/
theorem kept_quote {left : List Char} (free : 'p' ∉ left) (sign : '@' ∉ left)
    (head : List Char) :
    ∃ kept, blanked words none (hidden words none (head ++ '\'' :: left)) =
      kept ++ '\'' :: left := by
  obtain ⟨front, same⟩ := @hidden_ends words ('\'' :: left)
    (by rw [List.mem_cons, not_or]; exact ⟨by decide, sign⟩) head
  rw [same]
  exact blanked_quote free front none

theorem allows_nil (place : Place) : place.Allows words [] := by
  cases place with
  | anywhere => trivial
  | apart => exact nofun

theorem not_silent_quoted (place : Place) (gap gap' : List Char) :
    ¬Silent words place (.quoted gap gap') := by
  have writes : ∀ c ∈ ['a', 'b'], (Form.quoted gap gap').Writes ['\'', c, '\''] := by
    intro c listed
    refine ⟨[c], .plain ?_ ?_ .nil, rfl⟩
    · revert c
      decide
    · revert c
      decide
  have kept : ∀ c ∈ ['a', 'b'], ∃ more, blanked words none (hidden words none
      ([] ++ ((Form.quoted gap gap').fill ['\'', c, '\''] ++ []))) = more ++ ['\'', c, '\''] := by
    intro c listed
    have free : 'p' ∉ [c, '\''] ∧ '@' ∉ [c, '\''] := by
      revert c
      decide
    have whole := @kept_quote words [c, '\''] free.1 free.2
      ("password".toList ++ (gap ++ '=' :: gap'))
    simpa using whole
  exact @not_silent words place _ [] [] _ _ _ _ (allows_nil place) trivial
    (writes 'a' (by decide)) (writes 'b' (by decide)) (kept 'a' (by decide)) (kept 'b' (by decide))
      rfl (by decide)

/-- Nothing is read as credentials in a URL that has no user, or a user with white space
in the name. -/
theorem hidden_fill_userinfo {scheme user p : List Char}
    (accepted : (Form.userinfo scheme user).Accepted)
    (odd : ¬(user ≠ [] ∧ ∀ c ∈ user, isSpace c = false)) (colon : ':' ∉ p)
    (slash : p.head? ≠ some '/') (some_ : p ≠ []) :
    hidden words none ((Form.userinfo scheme user).fill p) =
      (Form.userinfo scheme user).fill p := by
  obtain ⟨schemes, users⟩ := accepted
  have none_ : ':' ∉ scheme := by
    rcases schemes with rfl | rfl <;> decide
  have free : ':' ∉ "//".toList ++ user := by
    rw [List.mem_append, not_or]
    exact ⟨by decide, fun listed => (users _ listed).1 rfl⟩
  have first : ∀ name pw rest,
      ¬Userinfo ("//".toList ++ (user ++ ':' :: (p ++ ['@']))) name pw rest := by
    intro name pw rest is
    have whole := List.append_cancel_left is.whole
    obtain ⟨rfl, -, -⟩ := cut_unique (p := fun c => c ≠ ':') (fun c listed => (users c listed).1)
      (fun c listed => by
        rintro rfl
        exact absurd (is.users _ listed) (by decide)) (by decide) (by decide) whole
    refine odd ⟨is.named, fun c listed => ?_⟩
    have plain := is.users c listed
    simp only [isUserChar, Bool.not_eq_true', Bool.or_eq_false_iff] at plain
    exact plain.2
  have second : ∀ name pw rest, ¬Userinfo (p ++ ['@']) name pw rest := by
    intro name pw rest is
    obtain ⟨c, more, rfl⟩ := List.exists_cons_of_ne_nil some_
    have slashes : "//".toList = '/' :: "/".toList := by decide
    have whole := is.whole
    rw [slashes, List.cons_append, List.cons_append, List.cons.injEq] at whole
    rw [whole.1] at slash
    exact slash rfl
  have ending : hidden words none (p ++ ['@']) = p ++ ['@'] := by
    rw [hidden_append colon, hidden_cons (by decide), hidden_nil]
  rw [Form.fill_userinfo, hidden_append none_, authority_eq, List.cons_append,
    hidden_colon_none first,
    ← List.append_assoc, hidden_append free, hidden_colon_none second, ending]

theorem not_silent_userinfo (place : Place) {scheme user : List Char}
    (accepted : (Form.userinfo scheme user).Accepted)
    (odd : ¬(user ≠ [] ∧ ∀ c ∈ user, isSpace c = false)) :
    ¬Silent words place (.userinfo scheme user) := by
  have writes : ∀ c ∈ ['a', 'b'], (Form.userinfo scheme user).Writes ['\'', c] := by
    intro c listed
    refine encoded_of_raw ?_
    revert c
    decide
  have kept : ∀ c ∈ ['a', 'b'], ∃ more, blanked words none (hidden words none
      ([] ++ ((Form.userinfo scheme user).fill ['\'', c] ++ []))) = more ++ ['\'', c, '@'] := by
    intro c listed
    have free : 'p' ∉ [c, '@'] ∧ ':' ∉ ['\'', c] := by
      revert c
      decide
    have whole := @blanked_quote words [c, '@'] free.1
      (scheme ++ ("://".toList ++ (user ++ [':']))) none
    rw [List.nil_append, List.append_nil, hidden_fill_userinfo accepted odd free.2 nofun nofun]
    simpa using whole
  exact @not_silent words place _ [] [] _ _ _ _ (allows_nil place) trivial
    (writes 'a' (by decide)) (writes 'b' (by decide)) (kept 'a' (by decide)) (kept 'b' (by decide))
      rfl (by decide)

theorem writes_bare {gap gap' : List Char} {plain : Char → Bool}
    (accepted : (Form.bare gap gap' plain).Accepted) {c : Char} (letter : c ∈ ['a', 'b']) :
    (Form.bare gap gap' plain).Writes [c] := by
  have other : isUnreserved c = true ∧ c ≠ '\'' ∧ c ≠ '\\' := by
    revert c
    decide
  exact ⟨by simp, fun same => other.2.1 (Option.some.inj same),
    .plain (accepted.2.1 c other.1) other.2.2 .nil⟩

theorem isSpace_of_isBlank {c : Char} (blank : isBlank c = true) : isSpace c = true := by
  have each : ∀ d ∈ "\t\n\x0b\x0c\r ".toList, isSpace d = true := by decide
  exact each c (List.contains_iff_mem.mp blank)

/-- The end of a message that a bare setting is in. -/
theorem gaps_free {gap gap' : List Char} {plain : Char → Bool}
    (accepted : (Form.bare gap gap' plain).Accepted) {c : Char} (letter : c ∈ ['a', 'b']) {d : Char}
    (sign : d ∈ ['p', '@']) : d ∉ gap ++ '=' :: (gap' ++ [c]) := by
  have solid : ∀ e ∈ ['p', '@'], isSpace e = false ∧ e ≠ '=' ∧ e ∉ ['a', 'b'] := by decide
  obtain ⟨space, equals, letters⟩ := solid d sign
  have blank : d ∉ gap ++ gap' := by
    intro listed
    rw [isSpace_of_isBlank (accepted.1 d listed)] at space
    cases space
  rw [List.mem_append, not_or] at blank
  simp only [List.mem_append, List.mem_cons, List.not_mem_nil, or_false, not_or]
  refine ⟨blank.1, equals, blank.2, ?_⟩
  rintro rfl
  exact letters letter

/-- Within a word no setting begins. -/
theorem blanked_within (text : List Char) :
    blanked words (some 'x') ('p' :: text) = 'p' :: blanked words (some 'p') text := by
  have word : words.isWord 'x' = true := by
    rw [words.ascii 'x' (by decide)]
    decide
  refine blanked_cons fun apart => ?_
  rw [Option.any_some, word] at apart
  cases apart

/-- A character of a word right before the keyword. -/
theorem not_silent_anywhere {gap gap' : List Char} {plain : Char → Bool}
    (accepted : (Form.bare gap gap' plain).Accepted) :
    ¬Silent words .anywhere (.bare gap gap' plain) := by
  have kept : ∀ c ∈ ['a', 'b'], ∃ more, blanked words none (hidden words none
      (['x'] ++ ((Form.bare gap gap' plain).fill [c] ++ []))) = more ++ [c] := by
    intro c letter
    have quiet : '@' ∉ ['x'] ++ ((Form.bare gap gap' plain).fill [c] ++ []) := by
      rw [Form.fill_bare, List.append_nil, List.mem_append, List.mem_append, not_or, not_or]
      exact ⟨by decide, by decide, gaps_free accepted letter (by decide)⟩
    have free : 'p' ∉ "assword".toList ++ (gap ++ '=' :: (gap' ++ [c])) := by
      rw [List.mem_append, not_or]
      exact ⟨by decide, gaps_free accepted letter (by decide)⟩
    refine ⟨['x'] ++ ('p' :: ("assword".toList ++ (gap ++ '=' :: gap'))), ?_⟩
    rw [hidden_of_not_mem quiet, blanked_append (by decide), Form.fill_bare, password_eq,
      List.append_nil]
    change ['x'] ++ blanked words (some 'x') ('p' :: ("assword".toList ++ _)) = _
    rw [blanked_within, blanked_of_not_mem free]
    simp
  exact @not_silent words .anywhere _ ['x'] [] _ _ _ _ trivial trivial
    (writes_bare accepted (by decide)) (writes_bare accepted (by decide)) (kept 'a' (by decide))
      (kept 'b' (by decide)) rfl (by decide)

theorem not_isBareChar {c : Char} (space : isSpace c = true) : isBareChar c = false := by
  rw [isBareChar, space]
  rfl

theorem dropWhile_end {c : Char} (ends : isBareChar c = false) (text : List Char) :
    (c :: text).dropWhile isBareChar = c :: text := by
  rw [List.dropWhile_cons, ends]
  rfl

/-- An empty setting, white space and another setting: the first one's value is the
keyword of the second, up to a space. -/
theorem not_silent_spaced (place : Place) {gap gap' : List Char} {plain : Char → Bool}
    (accepted : (Form.bare gap gap' plain).Accepted) (spaced : ¬(gap = [] ∧ gap' = [])) :
    ¬Silent words place (.bare gap gap' plain) := by
  have kept : ∀ c ∈ ['a', 'b'], ∃ more, blanked words none (hidden words none
      ("password= ".toList ++ ((Form.bare gap gap' plain).fill [c] ++ []))) = more ++ [c] := by
    intro c letter
    have quiet : '@' ∉ "password= ".toList ++ ((Form.bare gap gap' plain).fill [c] ++ []) := by
      rw [Form.fill_bare, List.append_nil, List.mem_append, List.mem_append, not_or, not_or]
      exact ⟨by decide, by decide, gaps_free accepted letter (by decide)⟩
    have setting : Setting ("password= ".toList ++ ((Form.bare gap gap' plain).fill [c] ++ []))
        [] [' '] 'p' ("assword".toList ++ (gap ++ '=' :: (gap' ++ [c]))) := by
      have begins : "password= ".toList = "password".toList ++ ['=', ' '] := by decide
      refine ⟨?_, nofun, by decide, by decide⟩
      rw [Form.fill_bare, begins, List.append_nil, password_eq]
      simp
    have ends : ∀ d ∈ gap ++ gap', isBareChar d = false :=
      fun d listed => not_isBareChar (isSpace_of_isBlank (accepted.1 d listed))
    obtain ⟨front, stops⟩ : ∃ front,
        (gap ++ '=' :: (gap' ++ [c])).dropWhile isBareChar = front ++ [c] := by
      cases gap with
      | cons d gap =>
        refine ⟨d :: gap ++ '=' :: gap', ?_⟩
        rw [List.cons_append, dropWhile_end (ends d (by simp))]
        simp
      | nil =>
        cases gap' with
        | nil => exact absurd ⟨rfl, rfl⟩ spaced
        | cons d gap' =>
          refine ⟨d :: gap', ?_⟩
          rw [List.nil_append, List.dropWhile_cons_of_pos (by decide), List.cons_append,
            dropWhile_end (ends d (by simp))]
    have free : 'p' ∉ (gap ++ '=' :: (gap' ++ [c])).dropWhile isBareChar := fun listed =>
      gaps_free accepted letter (by decide) ((List.dropWhile_suffix _).subset listed)
    refine ⟨"password=[REDACTED]".toList ++ front, ?_⟩
    rw [hidden_of_not_mem quiet, blanked_setting rfl setting,
      List.dropWhile_append_of_pos (by decide), blanked_of_not_mem free, stops, List.append_assoc]
  have allows : place.Allows words "password= ".toList := by
    cases place with
    | anywhere => trivial
    | apart =>
      have ends : ∀ c ∈ "password= ".toList.getLast?, isSpace c = true := by decide
      exact fun c last => words.spaces c (ends c last)
  exact @not_silent words place _ _ [] _ _ _ _ allows trivial (writes_bare accepted (by decide))
    (writes_bare accepted (by decide)) (kept 'a' (by decide)) (kept 'b' (by decide)) rfl (by decide)

/-- A text of ASCII characters, also after the first step. -/
def Ascii (text : List Char) : Prop :=
  (∀ c ∈ text, c.toNat < 128) ∧ ∀ c ∈ hidden plainWords none text, c.toNat < 128
  deriving Decidable

/-- Outside ASCII alone the words differ. -/
theorem redactDsn_of_ascii {text : List Char} (ascii : Ascii text) :
    redactDsn words (String.ofList text) = redactDsn plainWords (String.ofList text) := by
  have same : ∀ c, c.toNat < 128 → words.isWord c = plainWords.isWord c := by
    intro c low
    rw [words.ascii c low, plainWords.ascii c low]
  have first : hidden words none text = hidden plainWords none text :=
    sub_congr (fun c listed => same c (ascii.1 c listed)) (by simp) 0
  have second : blanked words none (hidden plainWords none text) =
      blanked plainWords none (hidden plainWords none text) :=
    sub_congr (fun c listed => same c (ascii.2 c listed)) (by simp) 0
  rw [redactDsn_ofList, redactDsn_ofList, first, second]

/-- Two messages redacted to different texts, whatever a word is. -/
def Differ (one other : List Char) : Prop :=
  Ascii one ∧ Ascii other ∧
    redactDsn plainWords (String.ofList one) ≠ redactDsn plainWords (String.ofList other)
  deriving Decidable

theorem not_silent_of_differ {place : Place} {form : Form} {before after p q own other : List Char}
    (allows : place.Allows words before) (follows : form.Follows before) (writes : form.Writes p)
    (writes' : form.Writes q) (shape : form.fill p = own) (shape' : form.fill q = other)
    (differ : Differ (before ++ (own ++ after)) (before ++ (other ++ after))) :
    ¬Silent words place form := by
  intro silent
  have same := silent before after p q allows follows writes writes'
  obtain ⟨ascii, ascii', apart⟩ := differ
  rw [shape, shape', redactDsn_of_ascii ascii, redactDsn_of_ascii ascii'] at same
  exact apart same

/-- A place behind a character of no word. -/
theorem allows_of_ends {place : Place} {before : List Char}
    (ends : ∀ c ∈ before.getLast?, c.toNat < 128 ∧ c.isAlphanum = false ∧ c ≠ '_') :
    place.Allows words before := by
  cases place with
  | anywhere => trivial
  | apart =>
    intro c last
    obtain ⟨low, other, other'⟩ := ends c last
    rw [words.ascii c low, other, decide_eq_false other']
    rfl

theorem escaped_of_plain {plain : Char → Bool} {p : List Char}
    (each : ∀ c ∈ p, plain c = true ∧ c ≠ '\\') : Escaped plain p := by
  induction p with
  | nil => exact .nil
  | cons c p ih =>
    obtain ⟨⟨is, other⟩, later⟩ := List.forall_mem_cons.mp each
    exact .plain is other (ih later)

/-- What ends a value within it: what stands behind is shown. -/
theorem blanked_end {last : Option Char} (apart : last.any words.isWord = false) {c d : Char}
    (ends : isBareChar c = false) (other : d ≠ 'p') :
    blanked words last ("password=".toList ++ ['a', c, d]) =
      "password=[REDACTED]".toList ++ [c, d] := by
  have setting : Setting ("password=".toList ++ ['a', c, d]) [] [] 'a' [c, d] :=
    ⟨by rw [setting_eq_append]; simp, nofun, nofun, by decide⟩
  have free : 'p' ∉ [c, d] := by
    rw [List.mem_pair, not_or]
    refine ⟨?_, Ne.symm other⟩
    rintro rfl
    exact absurd ends (by decide)
  rw [blanked_setting apart setting, dropWhile_end ends, blanked_of_not_mem free]

/-- A front that has no setting, and a password with the end of a value in it. -/
theorem kept_end {front : List Char} (quiet : '@' ∉ front)
    (passes : ∀ text, blanked words none (front ++ text) =
      front ++ blanked words front.getLast? text)
    (apart : front.getLast?.any words.isWord = false) {c d : Char} (ends : isBareChar c = false)
    (letter : d ∈ ['a', 'b']) :
    ∃ more, blanked words none (hidden words none (front ++ ("password=".toList ++ ['a', c, d]))) =
      more ++ [c, d] := by
  have other : ∀ e ∈ ['a', 'b'], e ≠ 'p' ∧ e ≠ '@' := by decide
  have sign : c ≠ '@' := by
    rintro rfl
    exact absurd ends (by decide)
  have free : '@' ∉ front ++ ("password=".toList ++ ['a', c, d]) := by
    simp only [List.mem_append, List.mem_cons, List.not_mem_nil, or_false, not_or]
    exact ⟨quiet, by decide, by decide, Ne.symm sign, Ne.symm (other d letter).2⟩
  refine ⟨front ++ "password=[REDACTED]".toList, ?_⟩
  rw [hidden_of_not_mem free, passes, blanked_end apart ends (other d letter).1,
    List.append_assoc]

/-- What stands before the forms of two messages that tell passwords apart at a sign,
and what each puts before the keyword. -/
def fronts : List (List Char × List Char) :=
  [("x://".toList, []), ("postgresql://".toList, ['?']), ("postgresql://?user=-".toList, ['&'])]

theorem not_silent_sign {place : Place} {form : Form} {front mark : List Char} {c : Char}
    (sign : c ∈ [':', '/', '@']) (known : (front, mark) ∈ fronts)
    (shape : ∀ p, form.fill p = mark ++ ("password=".toList ++ p))
    (stands : ∀ message ∈ [[], "x://u:".toList],
      place.Allows words (message ++ front) ∧ form.Follows (message ++ front))
    (writes : ∀ p ∈ [['a', c, 'a'], ['a', c, 'b'], ['a', 'b']], form.Writes p) :
    ¬Silent words place form := by
  obtain ⟨allows, follows⟩ := stands [] (by simp)
  obtain ⟨allows', follows'⟩ := stands "x://u:".toList (by simp)
  have one := writes ['a', c, 'a'] (by simp)
  have two := writes ['a', c, 'b'] (by simp)
  have three := writes ['a', 'b'] (by simp)
  simp only [List.mem_cons, List.not_mem_nil, or_false] at sign
  rcases sign with rfl | rfl | rfl
  · have differ : ∀ known ∈ fronts, Differ
        ([] ++ known.1 ++ (known.2 ++ ("password=".toList ++ ['a', ':', 'b']) ++ "\"r@h".toList))
        ([] ++ known.1 ++ (known.2 ++ ("password=".toList ++ ['a', 'b']) ++ "\"r@h".toList)) := by
      decide +kernel
    exact not_silent_of_differ allows follows two three (shape _) (shape _) (differ _ known)
  · have differ : ∀ known ∈ fronts, Differ
        ([] ++ known.1 ++ (known.2 ++ ("password=".toList ++ ['a', '/', 'b']) ++ ":\"r@h".toList))
        ([] ++ known.1 ++ (known.2 ++ ("password=".toList ++ ['a', 'b']) ++ ":\"r@h".toList)) := by
      decide +kernel
    exact not_silent_of_differ allows follows two three (shape _) (shape _) (differ _ known)
  · have differ : ∀ known ∈ fronts, Differ
        ("x://u:".toList ++ known.1 ++ (known.2 ++ ("password=".toList ++ ['a', '@', 'a']) ++ []))
        ("x://u:".toList ++ known.1 ++ (known.2 ++ ("password=".toList ++ ['a', '@', 'b']) ++ [])) := by
      decide +kernel
    exact not_silent_of_differ allows' follows' one two (shape _) (shape _) (differ _ known)

theorem stop_cases {c : Char} (stop : isStop c = true) :
    isBareChar c = false ∨ c ∈ [':', '/', '@'] := by
  rw [isStop, Bool.or_eq_true, List.contains_iff_mem, signs_eq] at stop
  rcases stop with space | sign
  · exact Or.inl (not_isBareChar space)
  · revert c
    decide

theorem not_silent_bare (place : Place) {plain : Char → Bool}
    (accepted : (Form.bare [] [] plain).Accepted) {c : Char} (stop : isStop c = true)
    (is : plain c = true) : ¬Silent words place (.bare [] [] plain) := by
  have other : c ≠ '\\' := by
    rintro rfl
    exact absurd stop (by decide)
  have shape : ∀ p, (Form.bare [] [] plain).fill p = [] ++ ("password=".toList ++ p) := by
    intro p
    simp [setting_eq_append]
  have writes : ∀ p ∈ [['a', c, 'a'], ['a', c, 'b'], ['a', 'b']],
      (Form.bare [] [] plain).Writes p := by
    have a := accepted.2.1 'a' (by decide)
    have b := accepted.2.1 'b' (by decide)
    intro p listed
    simp only [List.mem_cons, List.not_mem_nil, or_false] at listed
    rcases listed with rfl | rfl | rfl
    all_goals exact ⟨List.cons_ne_nil _ _, by simp, escaped_of_plain (by simp [a, b, is, other])⟩
  rcases stop_cases stop with ends | sign
  · have kept : ∀ d ∈ ['a', 'b'], ∃ more, blanked words none (hidden words none
        ([] ++ ((Form.bare [] [] plain).fill ['a', c, d] ++ []))) = more ++ [c, d] := by
      intro d letter
      rw [shape, List.append_nil]
      exact kept_end (List.not_mem_nil) (fun _ => rfl) rfl ends letter
    exact @not_silent words place _ [] [] _ _ _ _ (allows_nil place) trivial
      (writes ['a', c, 'a'] (by simp)) (writes ['a', c, 'b'] (by simp)) (kept 'a' (by decide))
        (kept 'b' (by decide)) rfl (by simp)
  · refine @not_silent_sign words place _ "x://".toList [] c sign (by simp [fronts]) shape
      (fun message listed => ⟨allows_of_ends ?_, trivial⟩) writes
    revert message
    decide

theorem not_silent_backslash (place : Place) {plain : Char → Bool}
    (accepted : (Form.bare [] [] plain).Accepted) (is : plain '\\' = true) :
    ¬Silent words place (.bare [] [] plain) := by
  have letter : ∀ {d : Char} {rest : List Char}, d ∈ ['a', 'b'] → Escaped plain rest →
      Escaped plain (d :: rest) := by
    intro d rest listed tail
    have other : isUnreserved d = true ∧ d ≠ '\\' := by
      revert d
      decide
    exact .plain (accepted.2.1 d other.1) other.2 tail
  have writes : ∀ d ∈ ['a', 'b'], (Form.bare [] [] plain).Writes ['a', '\\', ' ', d] :=
    fun d listed => ⟨nofun, nofun, letter (by decide) (.escape is (letter listed .nil))⟩
  have own : ∀ p, (Form.bare [] [] plain).fill p = "password".toList ++ '=' :: p := fun _ => rfl
  exact @not_silent_of_differ words place _ [] [] _ _ _ _ (allows_nil place) trivial
    (writes 'a' (by decide)) (writes 'b' (by decide)) (own _) (own _) (by decide)

/-- The rest of a URL before a first parameter and before a second one. -/
def rests : List (List Char × Char) := [([], '?'), ("?user=-".toList, '&')]

theorem not_silent_parameter (place : Place) {mark : Char} {raw : Char → Bool}
    (accepted : (Form.parameter mark raw).Accepted) {c : Char} (stop : isStop c = true)
    (is : raw c = true) : ¬Silent words place (.parameter mark raw) := by
  obtain ⟨rest, known⟩ : ∃ rest, (rest, mark) ∈ rests := by
    rcases accepted.1 with rfl | rfl
    · exact ⟨[], by decide⟩
    · exact ⟨"?user=-".toList, by decide⟩
  have other : c ≠ '%' := by
    rintro rfl
    exact absurd stop (by decide)
  have writes : ∀ p ∈ [['a', c, 'a'], ['a', c, 'b'], ['a', 'b']],
      (Form.parameter mark raw).Writes p := by
    have a := accepted.2.1 'a' (by decide)
    have b := accepted.2.1 'b' (by decide)
    intro p listed
    simp only [List.mem_cons, List.not_mem_nil, or_false] at listed
    rcases listed with rfl | rfl | rfl
    all_goals exact ⟨List.cons_ne_nil _ _, encoded_of_raw (by simp [a, b, is, other])⟩
  have stands : ∀ message : List Char,
      place.Allows words (message ++ ("postgresql://".toList ++ rest)) ∧
        (Form.parameter mark raw).Follows (message ++ ("postgresql://".toList ++ rest)) := by
    intro message
    have facts : ∀ known ∈ rests, ("postgresql://".toList ++ known.1) ≠ [] ∧
        (∀ c ∈ ("postgresql://".toList ++ known.1).getLast?,
          c.toNat < 128 ∧ c.isAlphanum = false ∧ c ≠ '_') ∧ ('?' ∈ known.1 ↔ known.2 = '&') := by
      decide
    obtain ⟨some_, ends, marks⟩ := facts _ known
    refine ⟨allows_of_ends ?_, message, "postgresql".toList, rest, Or.inl rfl, rfl, marks⟩
    rwa [List.getLast?_append_of_ne_nil _ some_]
  rcases stop_cases stop with ends | sign
  · have facts : ∀ known ∈ rests,
        'p' ∉ "ostgresql://".toList ++ (known.1 ++ [known.2]) ∧
          '@' ∉ "xpostgresql://".toList ++ (known.1 ++ [known.2]) ∧
            known.2.toNat < 128 ∧ (known.2.isAlphanum || known.2 = '_') = false := by
      decide
    obtain ⟨free, quiet, low, odd⟩ := facts _ known
    have letters : "xpostgresql://".toList = 'x' :: 'p' :: "ostgresql://".toList := by decide
    have last : ∀ front : List Char, (front ++ (rest ++ [mark])).getLast? = some mark := by
      intro front
      rw [← List.append_assoc, List.getLast?_concat]
    have passes : ∀ text, blanked words none ("xpostgresql://".toList ++ (rest ++ [mark]) ++ text) =
        "xpostgresql://".toList ++ (rest ++ [mark]) ++ blanked words (some mark) text := by
      intro text
      rw [letters, List.cons_append, List.cons_append, List.cons_append, List.cons_append,
        blanked_other (by decide), blanked_within, blanked_append free, last]
      rfl
    have apart : (some mark).any words.isWord = false := by
      rw [Option.any_some, words.ascii mark low, odd]
    have kept : ∀ d ∈ ['a', 'b'], ∃ more, blanked words none (hidden words none
        ("x".toList ++ ("postgresql://".toList ++ rest) ++
          ((Form.parameter mark raw).fill ['a', c, d] ++ []))) = more ++ [c, d] := by
      intro d letter
      have whole := @kept_end words _ quiet (by rwa [last]) (by rwa [last]) c d ends letter
      have begins : "xpostgresql://".toList = "x".toList ++ "postgresql://".toList := by decide
      rw [begins] at whole
      simpa using whole
    exact @not_silent words place _ _ [] _ _ _ _ (stands "x".toList).1 (stands "x".toList).2
      (writes ['a', c, 'a'] (by simp)) (writes ['a', c, 'b'] (by simp)) (kept 'a' (by decide))
        (kept 'b' (by decide)) rfl (by simp)
  · refine @not_silent_sign words place _ ("postgresql://".toList ++ rest) [mark] c sign ?_
      (fun _ => rfl) (fun message _ => stands message) writes
    have listed : ∀ known ∈ rests, ("postgresql://".toList ++ known.1, [known.2]) ∈ fronts := by
      decide
    exact listed _ known

/-! ## Which forms are silent -/

/-- A password is redacted from a URL whose user has a name without white space, from
a parameter that leaves no single quote as it is, and from a bare setting without
spaces that stands apart, of a password without any of six signs; from a quoted
setting never. -/
theorem silent_iff (words : Words) (place : Place) {form : Form} (accepted : form.Accepted) :
    Silent words place form ↔ Covered place form := by
  cases form with
  | userinfo scheme user =>
    constructor
    · intro silent
      by_contra odd
      exact not_silent_userinfo place accepted odd silent
    · rintro ⟨named, blank⟩
      refine silent_userinfo place named fun c listed => ?_
      obtain ⟨colon, slash, sign⟩ := accepted.2 c listed
      simp [isUserChar, colon, slash, sign, blank c listed]
  | parameter mark raw =>
    constructor
    · intro silent c stop
      refine Bool.eq_false_iff.mpr fun is => ?_
      exact not_silent_parameter place accepted stop is silent
    · exact silent_parameter place accepted
  | bare gap gap' plain =>
    constructor
    · intro silent
      have apart : place = .apart := by
        cases place with
        | anywhere => exact absurd silent (not_silent_anywhere accepted)
        | apart => rfl
      obtain ⟨rfl, rfl⟩ : gap = [] ∧ gap' = [] := by
        by_contra spaced
        exact not_silent_spaced place accepted spaced silent
      refine ⟨apart, rfl, rfl, Bool.eq_false_iff.mpr fun is => ?_,
        fun c stop => Bool.eq_false_iff.mpr fun is => ?_⟩
      · exact not_silent_backslash place accepted is silent
      · exact not_silent_bare place accepted stop is silent
    · rintro ⟨rfl, rfl, rfl, straight, safe⟩
      exact silent_bare straight safe
  | quoted gap gap' =>
    refine ⟨fun silent => ?_, False.elim⟩
    exact not_silent_quoted place gap gap' silent

/-- An ordinary URL is redacted wherever it stands. -/
theorem silent_app : (Form.userinfo "postgresql".toList "app".toList).Accepted ∧
    Silent plainWords .anywhere (.userinfo "postgresql".toList "app".toList) :=
  have accepted : (Form.userinfo "postgresql".toList "app".toList).Accepted :=
    ⟨Or.inl rfl, by decide⟩
  ⟨accepted, (silent_iff plainWords .anywhere accepted).mpr ⟨by decide, by decide⟩⟩

/-- A value in quotes and the password of a URL without a user are shown. -/
theorem secrets_shown :
    redactDsn plainWords "password='my secret'" = "password='my secret'" ∧
      redactDsn plainWords "postgresql://:secret@db" = "postgresql://:secret@db" ∧
        ¬∀ form : Form, form.Accepted → Silent plainWords .anywhere form := by
  refine ⟨by decide, by decide, fun silent => ?_⟩
  have nameless : (Form.userinfo "postgresql".toList []).Accepted := ⟨Or.inl rfl, nofun⟩
  have same := silent _ nameless [] "db".toList "secret".toList "hunter2".toList trivial trivial
    (encoded_of_raw (by decide)) (encoded_of_raw (by decide))
  have other : redactDsn plainWords (String.ofList "postgresql://:secret@db".toList) ≠
      redactDsn plainWords (String.ofList "postgresql://:hunter2@db".toList) := by
    decide
  exact other same

end Dsn
