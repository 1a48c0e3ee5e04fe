import Mathlib.Data.List.Chain
import TextToSqlAgent.Library.Lines
import TextToSqlAgent.Web.Utf16

/-!
# SQL in coloured runs

The scanner that a shown query is coloured by. Beside it stands a grammar of what it
reads: the lexemes of a text up to its end, or up to one that is not terminated.
-/

namespace Tokenize

open Utf16 Lines

inductive TokenKind
  | keyword
  | string
  | number
  | comment
  | identifier
  | plain
  deriving DecidableEq, Repr

structure Token where
  kind : TokenKind
  text : JsString
  deriving DecidableEq, Repr

def KEYWORDS : List JsString :=
  ["select", "from", "where", "group", "by", "order", "having", "limit", "offset", "join",
    "inner", "left", "right", "full", "outer", "cross", "on", "using", "and", "or", "not", "in",
    "is", "null", "as", "distinct", "all", "union", "intersect", "except", "case", "when", "then",
    "else", "end", "with", "asc", "desc", "between", "like", "ilike", "exists", "any", "some",
    "over", "partition", "cast", "true", "false", "count", "sum", "avg", "min", "max"].map js

def DASH : UInt16 := 45
def SLASH : UInt16 := 47
def STAR : UInt16 := 42
def QUOTE : UInt16 := 39
def DOUBLE_QUOTE : UInt16 := 34
def DOT : UInt16 := 46
def UNDERSCORE : UInt16 := 95
def DOLLAR : UInt16 := 36

def isDigit (ch : UInt16) : Bool := 48 ≤ ch && ch ≤ 57

def isUpper (ch : UInt16) : Bool := 65 ≤ ch && ch ≤ 90

def isWordStart (ch : UInt16) : Bool :=
  (97 ≤ ch && ch ≤ 122) || isUpper ch || ch == UNDERSCORE

def isWordChar (ch : UInt16) : Bool := isWordStart ch || isDigit ch || ch == DOLLAR

def isNewline (ch : UInt16) : Bool := ch == LF || ch == CR

def isNumberChar (ch : UInt16) : Bool := isDigit ch || ch == DOT

/-- `word.toLowerCase()` of a word, which is of ASCII. -/
def toLowerCase (word : JsString) : JsString :=
  word.map fun ch => if isUpper ch then ch + 32 else ch

def wordKind (word : JsString) : TokenKind :=
  if KEYWORDS.contains (toLowerCase word) then .keyword else .plain

/-- `indexOf`. -/
def indexOf (needle : JsString) : JsString → Option Nat
  | [] => if needle = [] then some 0 else none
  | ch :: rest => if needle <+: ch :: rest then some 0 else (indexOf needle rest).map (· + 1)

/-- How far it is past the closing quote, or to the end, from behind the opening one. -/
def closeQuote (quote : UInt16) : JsString → Nat
  | [] => 0
  | [_] => 1
  | ch :: next :: rest =>
    if ch = quote then
      if next = quote then closeQuote quote rest + 2 else 1
    else closeQuote quote (next :: rest) + 1

/-- How far it is to the next line break, or to the end. -/
def indexOfNewline (sql : JsString) : Nat := (sql.takeWhile fun ch => !isNewline ch).length

/-- The run that begins with a code unit: its kind, and its length. -/
def runAt (ch : UInt16) (rest : JsString) : TokenKind × Nat :=
  if ch = DASH ∧ rest.head? = some DASH then (.comment, indexOfNewline (ch :: rest))
  else if ch = SLASH ∧ rest.head? = some STAR then
    match indexOf [STAR, SLASH] (rest.drop 1) with
    | none => (.comment, rest.length + 1)
    | some close => (.comment, close + 4)
  else if ch = QUOTE then (.string, closeQuote QUOTE rest + 1)
  else if ch = DOUBLE_QUOTE then (.identifier, closeQuote DOUBLE_QUOTE rest + 1)
  else if isDigit ch then (.number, ((ch :: rest).takeWhile isNumberChar).length)
  else if isWordStart ch then
    let word := (ch :: rest).takeWhile isWordChar
    (wordKind word, word.length)
  else (.plain, 1)

/-- `push`; a run of the kind of the last one is merged into it. -/
def push (tokens : List Token) (kind : TokenKind) (text : JsString) : List Token :=
  match tokens.getLast? with
  | some last =>
    if last.kind = kind then tokens.dropLast ++ [⟨kind, last.text ++ text⟩]
    else tokens ++ [⟨kind, text⟩]
  | none => tokens ++ [⟨kind, text⟩]

/-- The loop, of so many turns at most, over what is left of the text. -/
def scan : Nat → JsString → List Token → Option (List Token)
  | _, [], tokens => some tokens
  | 0, _ :: _, _ => none
  | fuel + 1, ch :: rest, tokens =>
    let run := runAt ch rest
    scan fuel ((ch :: rest).drop run.2) (push tokens run.1 ((ch :: rest).take run.2))

def tokenize (sql : JsString) : Option (List Token) := scan sql.length sql []

/-- A comment inside a text is no comment, and a number ends at no second point. -/
example : (tokenize (js "SELECT 'it''s -- one' , 1..5")).map
    (fun tokens => tokens.map fun t => (t.kind, t.text)) =
      some [(.keyword, js "SELECT"), (.plain, js " "), (.string, js "'it''s -- one'"),
        (.plain, js " , "), (.number, js "1..5")] := by decide +kernel

/-! ## A grammar of the scanned text -/

/-- What is between quotes, as far as they are doubled. -/
inductive Doubled (quote : UInt16) : JsString → Prop
  | nil : Doubled quote []
  | other {ch : UInt16} {body : JsString} (apart : ch ≠ quote) (more : Doubled quote body) :
    Doubled quote (ch :: body)
  | pair {body : JsString} (more : Doubled quote body) : Doubled quote (quote :: quote :: body)

inductive Quotes : TokenKind → UInt16 → Prop
  | string : Quotes .string QUOTE
  | identifier : Quotes .identifier DOUBLE_QUOTE

/-- Whether a code unit begins nothing longer than itself. -/
def Alone (ch : UInt16) (after : JsString) : Prop :=
  ¬(ch = DASH ∧ after.head? = some DASH) ∧ ¬(ch = SLASH ∧ after.head? = some STAR) ∧
    ch ≠ QUOTE ∧ ch ≠ DOUBLE_QUOTE ∧ isDigit ch = false ∧ isWordStart ch = false

/-- A lexeme of a kind, and the text after it. -/
inductive Lexeme : TokenKind → JsString → JsString → Prop
  | lineComment {body after : JsString} (unbroken : ∀ ch ∈ body, isNewline ch = false)
    (stop : ∀ ch ∈ after.head?, isNewline ch = true) :
    Lexeme .comment (DASH :: DASH :: body) after
  | blockComment {body after : JsString} (open_ : ¬[STAR, SLASH] <:+: body ++ [STAR]) :
    Lexeme .comment (SLASH :: STAR :: (body ++ [STAR, SLASH])) after
  | quoted {kind : TokenKind} {quote : UInt16} {body after : JsString} (quotes : Quotes kind quote)
    (doubled : Doubled quote body) (closed : after.head? ≠ some quote) :
    Lexeme kind (quote :: (body ++ [quote])) after
  | number {ch : UInt16} {body after : JsString} (digit : isDigit ch = true)
    (all : ∀ c ∈ body, isNumberChar c = true) (stop : ∀ c ∈ after.head?, isNumberChar c = false) :
    Lexeme .number (ch :: body) after
  | word {ch : UInt16} {body after : JsString} (start : isWordStart ch = true)
    (all : ∀ c ∈ body, isWordChar c = true) (stop : ∀ c ∈ after.head?, isWordChar c = false) :
    Lexeme (wordKind (ch :: body)) (ch :: body) after
  | other {ch : UInt16} {after : JsString} (alone : Alone ch after) : Lexeme .plain [ch] after

/-- Lexemes up to a place in a text, and the text from there. -/
inductive Lexed : JsString → JsString → Prop
  | done (rest : JsString) : Lexed [] rest
  | lexeme {kind : TokenKind} {text before rest : JsString}
    (first : Lexeme kind text (before ++ rest)) (more : Lexed before rest) :
    Lexed (text ++ before) rest

/-- A quote or a block comment that is opened and never closed. -/
inductive Unterminated : TokenKind → JsString → Prop
  | quoted {kind : TokenKind} {quote : UInt16} {body : JsString} (quotes : Quotes kind quote)
    (doubled : Doubled quote body) : Unterminated kind (quote :: body)
  | blockComment {body : JsString} (open_ : ¬[STAR, SLASH] <:+: body) :
    Unterminated .comment (SLASH :: STAR :: body)

/-! ## The functions on lexemes -/

theorem closeQuote_of_ne {quote ch : UInt16} (apart : ch ≠ quote) (rest : JsString) :
    closeQuote quote (ch :: rest) = closeQuote quote rest + 1 := by
  cases rest with
  | nil => rfl
  | cons next rest => rw [closeQuote, if_neg apart]

theorem closeQuote_pair (quote : UInt16) (rest : JsString) :
    closeQuote quote (quote :: quote :: rest) = closeQuote quote rest + 2 := by
  rw [closeQuote, if_pos rfl, if_pos rfl]

theorem closeQuote_closed {quote : UInt16} {after : JsString} (closed : after.head? ≠ some quote) :
    closeQuote quote (quote :: after) = 1 := by
  cases after with
  | nil => rfl
  | cons next after =>
    have other : next ≠ quote := fun same => closed (congrArg some same)
    rw [closeQuote, if_pos rfl, if_neg other]

theorem closeQuote_doubled {quote : UInt16} {body : JsString} (doubled : Doubled quote body)
    (after : JsString) :
    closeQuote quote (body ++ after) = closeQuote quote after + body.length := by
  induction doubled with
  | nil => rfl
  | other apart _ ih =>
    rw [List.cons_append, closeQuote_of_ne apart, ih, List.length_cons, Nat.add_assoc]
  | pair _ ih =>
    rw [List.cons_append, List.cons_append, closeQuote_pair, ih, List.length_cons,
      List.length_cons, Nat.add_assoc]

/-- What is between quotes is doubled up to the end, or up to a quote that closes it. -/
theorem doubled_or_closed (quote : UInt16) : ∀ text : JsString, Doubled quote text ∨
    ∃ body after, text = body ++ quote :: after ∧ Doubled quote body ∧ after.head? ≠ some quote
  | [] => Or.inl .nil
  | [ch] => by
    by_cases same : ch = quote
    · exact Or.inr ⟨[], [], by rw [same]; rfl, .nil, by simp⟩
    · exact Or.inl (.other same .nil)
  | ch :: next :: rest => by
    by_cases same : ch = quote
    · subst same
      by_cases pair : next = ch
      · subst pair
        rcases doubled_or_closed next rest with doubled | ⟨body, after, rfl, doubled, closed⟩
        · exact Or.inl (.pair doubled)
        · exact Or.inr ⟨next :: next :: body, after, rfl, .pair doubled, closed⟩
      · exact Or.inr ⟨[], next :: rest, rfl, .nil, by simpa using pair⟩
    · rcases doubled_or_closed quote (next :: rest) with doubled |
        ⟨body, after, whole, doubled, closed⟩
      · exact Or.inl (.other same doubled)
      · exact Or.inr ⟨ch :: body, after, by rw [whole]; rfl, .other same doubled, closed⟩

theorem indexOf_eq_none {needle : JsString} : ∀ {text : JsString}, ¬needle <:+: text →
    indexOf needle text = none
  | [], absent => if_neg fun empty => absent (by subst empty; exact List.infix_rfl)
  | ch :: rest, absent => by
    rw [List.infix_cons_iff, not_or] at absent
    rw [indexOf, if_neg absent.1, indexOf_eq_none absent.2]
    rfl

theorem not_closes_of_cons {ch : UInt16} {body after : JsString}
    (open_ : ¬[STAR, SLASH] <:+: ch :: body ++ [STAR]) :
    ¬[STAR, SLASH] <+: ch :: body ++ STAR :: after := by
  intro closes
  rw [List.cons_append, List.infix_cons_iff, not_or] at open_
  obtain ⟨rfl, next⟩ := List.cons_prefix_cons.mp closes
  cases body with
  | nil =>
    have same := (List.cons_prefix_cons.mp next).1
    exact absurd same (by decide)
  | cons second body =>
    obtain ⟨rfl, -⟩ := List.cons_prefix_cons.mp next
    exact open_.1 ⟨body ++ [STAR], rfl⟩

theorem indexOf_block {body : JsString} (after : JsString)
    (open_ : ¬[STAR, SLASH] <:+: body ++ [STAR]) :
    indexOf [STAR, SLASH] (body ++ STAR :: SLASH :: after) = some body.length := by
  induction body with
  | nil => exact if_pos ⟨after, rfl⟩
  | cons ch body ih =>
    have later : ¬[STAR, SLASH] <:+: body ++ [STAR] := fun inside =>
      open_ (List.infix_cons_iff.mpr (Or.inr inside))
    have here : ¬[STAR, SLASH] <+: ch :: (body ++ STAR :: SLASH :: after) :=
      not_closes_of_cons open_
    rw [List.cons_append, indexOf, if_neg here, ih later]
    rfl

/-- A block comment is open up to the end, or up to the first place that closes it. -/
theorem open_or_closed : ∀ text : JsString, ¬[STAR, SLASH] <:+: text ∨
    ∃ body after, text = body ++ STAR :: SLASH :: after ∧ ¬[STAR, SLASH] <:+: body ++ [STAR]
  | [] => Or.inl (by decide)
  | ch :: rest => by
    by_cases here : [STAR, SLASH] <+: ch :: rest
    · obtain ⟨after, whole⟩ := here
      exact Or.inr ⟨[], after, whole.symm, by decide⟩
    · rcases open_or_closed rest with absent | ⟨body, after, rfl, open_⟩
      · exact Or.inl fun inside => (List.infix_cons_iff.mp inside).elim here absent
      · refine Or.inr ⟨ch :: body, after, rfl, fun inside => ?_⟩
        rcases List.infix_cons_iff.mp inside with first | later
        · refine here (first.trans ?_)
          exact ⟨SLASH :: after, by simp⟩
        · exact open_ later

/-! ## The scanner reads the lexemes -/

theorem not_special_of_isDigit {ch : UInt16} (digit : isDigit ch = true) :
    ch ≠ DASH ∧ ch ≠ SLASH ∧ ch ≠ QUOTE ∧ ch ≠ DOUBLE_QUOTE := by
  refine ⟨?_, ?_, ?_, ?_⟩ <;> rintro rfl <;> exact absurd digit (by decide)

theorem not_special_of_isWordStart {ch : UInt16} (start : isWordStart ch = true) :
    ch ≠ DASH ∧ ch ≠ SLASH ∧ ch ≠ QUOTE ∧ ch ≠ DOUBLE_QUOTE := by
  refine ⟨?_, ?_, ?_, ?_⟩ <;> rintro rfl <;> exact absurd start (by decide)

theorem not_isDigit_of_isWordStart {ch : UInt16} (start : isWordStart ch = true) :
    isDigit ch = false := by
  simp only [isWordStart, isUpper, isDigit, UNDERSCORE, Bool.or_eq_true, Bool.and_eq_true,
    decide_eq_true_eq, beq_iff_eq, Bool.and_eq_false_iff, decide_eq_false_iff_not,
    UInt16.le_iff_toNat_le, ← UInt16.toNat_inj] at *
  simp only [UInt16.reduceToNat] at *
  omega

theorem runAt_quoted {kind : TokenKind} {quote : UInt16} (quotes : Quotes kind quote)
    (rest : JsString) : runAt quote rest = (kind, closeQuote quote rest + 1) := by
  cases quotes <;> rfl

/-- What the scanner reads where a lexeme stands is that lexeme. -/
theorem runAt_lexeme {kind : TokenKind} {text after : JsString} (lexeme : Lexeme kind text after) :
    ∃ ch tail, text = ch :: tail ∧ runAt ch (tail ++ after) = (kind, text.length) := by
  cases lexeme with
  | @lineComment body _ unbroken stop =>
    refine ⟨DASH, DASH :: body, rfl, ?_⟩
    have inside : ∀ ch ∈ DASH :: DASH :: body, (!isNewline ch) = true := by
      simpa [isNewline, DASH, LF, CR] using unbroken
    have outside : ∀ ch ∈ after.head?, (!isNewline ch) = false := by simpa using stop
    have run := (takeWhile_stops inside outside).1
    rw [runAt, if_pos ⟨rfl, rfl⟩, indexOfNewline]
    exact congrArg (fun l => (TokenKind.comment, List.length l)) run
  | @blockComment body _ open_ =>
    refine ⟨SLASH, STAR :: (body ++ [STAR, SLASH]), rfl, ?_⟩
    have whole : STAR :: (body ++ [STAR, SLASH]) ++ after =
        STAR :: (body ++ STAR :: SLASH :: after) := by simp
    rw [whole, runAt, if_neg fun dashes => absurd dashes.1 (by decide), if_pos ⟨rfl, rfl⟩]
    change (match indexOf [STAR, SLASH] (body ++ STAR :: SLASH :: after) with
      | none => (TokenKind.comment, _)
      | some close => (TokenKind.comment, close + 4)) = _
    rw [indexOf_block after open_]
    simp
  | @quoted _ quote body _ quotes doubled closed =>
    refine ⟨quote, body ++ [quote], rfl, ?_⟩
    rw [runAt_quoted quotes, List.append_assoc, closeQuote_doubled doubled, List.singleton_append,
      closeQuote_closed closed]
    simp [Nat.add_comm]
  | @number ch body _ digit all stop =>
    refine ⟨ch, body, rfl, ?_⟩
    obtain ⟨dash, slash, quote, double⟩ := not_special_of_isDigit digit
    have first : isNumberChar ch = true := by simp [isNumberChar, digit]
    have run := (takeWhile_stops (List.forall_mem_cons.mpr ⟨first, all⟩) stop).1
    rw [runAt, if_neg fun two => dash two.1, if_neg fun two => slash two.1, if_neg quote,
      if_neg double, if_pos digit]
    exact congrArg (fun l => (TokenKind.number, List.length l)) run
  | @word ch body _ start all stop =>
    refine ⟨ch, body, rfl, ?_⟩
    obtain ⟨dash, slash, quote, double⟩ := not_special_of_isWordStart start
    have first : isWordChar ch = true := by simp [isWordChar, start]
    have run := (takeWhile_stops (List.forall_mem_cons.mpr ⟨first, all⟩) stop).1
    rw [runAt, if_neg fun two => dash two.1, if_neg fun two => slash two.1, if_neg quote,
      if_neg double, if_neg (by simp [not_isDigit_of_isWordStart start]), if_pos start]
    exact congrArg (fun l => (wordKind l, List.length l)) run
  | @other ch _ alone =>
    obtain ⟨dashes, opens, quote, double, digit, start⟩ := alone
    refine ⟨ch, [], rfl, ?_⟩
    rw [List.nil_append, runAt, if_neg dashes, if_neg opens, if_neg quote, if_neg double,
      if_neg (by simp [digit]), if_neg (by simp [start])]
    rfl

/-- What is not terminated is read to its end. -/
theorem runAt_unterminated {kind : TokenKind} {text : JsString}
    (unterminated : Unterminated kind text) :
    ∃ ch rest, text = ch :: rest ∧ runAt ch rest = (kind, text.length) := by
  cases unterminated with
  | @quoted _ quote body quotes doubled =>
    refine ⟨quote, body, rfl, ?_⟩
    have run := closeQuote_doubled doubled []
    rw [List.append_nil] at run
    rw [runAt_quoted quotes, run]
    simp [closeQuote]
  | @blockComment body open_ =>
    refine ⟨SLASH, STAR :: body, rfl, ?_⟩
    rw [runAt, if_neg fun dashes => absurd dashes.1 (by decide), if_pos ⟨rfl, rfl⟩]
    change (match indexOf [STAR, SLASH] body with
      | none => (TokenKind.comment, _)
      | some close => (TokenKind.comment, close + 4)) = _
    rw [indexOf_eq_none open_]
    rfl

/-- The scanner advances on every code unit. -/
theorem runAt_pos (ch : UInt16) (rest : JsString) : 0 < (runAt ch rest).2 := by
  unfold runAt
  split_ifs with dashes block quote double digit start
  · rw [dashes.1]
    exact Nat.succ_pos _
  · split <;> exact Nat.succ_pos _
  · exact Nat.succ_pos _
  · exact Nat.succ_pos _
  · have first : isNumberChar ch = true := by simp [isNumberChar, digit]
    rw [List.takeWhile_cons, if_pos first]
    exact Nat.succ_pos _
  · have first : isWordChar ch = true := by simp [isWordChar, start]
    dsimp only
    rw [List.takeWhile_cons, if_pos first]
    exact Nat.succ_pos _
  · exact Nat.one_pos

/-! ## Tokens -/

/-- No token is empty, and no two neighbours are of one kind. -/
structure WellFormed (tokens : List Token) : Prop where
  filled : ∀ t ∈ tokens, t.text ≠ []
  apart : tokens.IsChain fun a b => a.kind ≠ b.kind

/-- The texts of tokens, one after the other. -/
def joined (tokens : List Token) : JsString := tokens.flatMap Token.text

theorem push_cases (tokens : List Token) (kind : TokenKind) (text : JsString) :
    (∃ first before, tokens = first ++ [⟨kind, before⟩] ∧
        push tokens kind text = first ++ [⟨kind, before ++ text⟩]) ∨
      ((∀ last ∈ tokens.getLast?, last.kind ≠ kind) ∧
        push tokens kind text = tokens ++ [⟨kind, text⟩]) := by
  unfold push
  cases latest : tokens.getLast? with
  | none => exact Or.inr ⟨by simp, rfl⟩
  | some last =>
    obtain ⟨first, rfl⟩ := List.getLast?_eq_some_iff.mp latest
    dsimp only
    split
    · rename_i same
      subst same
      exact Or.inl ⟨first, last.text, rfl, by rw [List.dropLast_concat]⟩
    · rename_i other
      exact Or.inr ⟨by simpa using other, rfl⟩

theorem joined_push (tokens : List Token) (kind : TokenKind) (text : JsString) :
    joined (push tokens kind text) = joined tokens ++ text := by
  rcases push_cases tokens kind text with ⟨first, before, rfl, pushed⟩ | ⟨-, pushed⟩
  · rw [pushed]
    simp [joined]
  · rw [pushed]
    simp [joined]

theorem WellFormed.push {tokens : List Token} (formed : WellFormed tokens) {kind : TokenKind}
    {text : JsString} (some : text ≠ []) : WellFormed (push tokens kind text) := by
  rcases push_cases tokens kind text with ⟨first, before, rfl, pushed⟩ | ⟨other, pushed⟩
  · rw [pushed]
    refine ⟨fun t listed => ?_, ?_⟩
    · rcases List.mem_append.mp listed with early | last
      · exact formed.filled t (List.mem_append_left _ early)
      · rw [List.mem_singleton.mp last]
        exact List.append_ne_nil_of_right_ne_nil _ some
    · have chain := List.isChain_append.mp formed.apart
      exact List.isChain_append.mpr ⟨chain.1, .singleton _, by simpa using chain.2.2⟩
  · rw [pushed]
    refine ⟨fun t listed => ?_, ?_⟩
    · rcases List.mem_append.mp listed with early | last
      · exact formed.filled t early
      · rw [List.mem_singleton.mp last]
        exact some
    · exact List.isChain_append.mpr ⟨formed.apart, .singleton _, by simpa using other⟩

/-- What is pushed is at the end of the last token, which is of its kind. -/
theorem push_ends (tokens : List Token) (kind : TokenKind) (text : JsString) :
    ∃ first whole, push tokens kind text = first ++ [⟨kind, whole⟩] ∧ text <:+ whole := by
  rcases push_cases tokens kind text with ⟨first, before, -, pushed⟩ | ⟨-, pushed⟩
  · exact ⟨first, before ++ text, pushed, List.suffix_append _ _⟩
  · exact ⟨tokens, text, pushed, List.suffix_rfl⟩

/-! ## Whole texts -/

/-- The loop ends with these tokens, given a turn for each code unit. -/
def Scans (sql : JsString) (tokens result : List Token) : Prop :=
  ∀ fuel, sql.length ≤ fuel → scan fuel sql tokens = some result

theorem Scans.nil (tokens : List Token) : Scans [] tokens tokens := by
  intro fuel _
  cases fuel <;> rfl

theorem Scans.turn {ch : UInt16} {rest : JsString} {tokens result : List Token}
    (scans : Scans ((ch :: rest).drop (runAt ch rest).2)
      (push tokens (runAt ch rest).1 ((ch :: rest).take (runAt ch rest).2)) result) :
    Scans (ch :: rest) tokens result := by
  intro fuel enough
  cases fuel with
  | zero => cases enough
  | succ fuel =>
    have advance := runAt_pos ch rest
    refine scans fuel ?_
    rw [List.length_drop]
    rw [List.length_cons] at *
    omega

/-- A run that is known, and what is scanned after it. -/
theorem Scans.run {ch : UInt16} {tail rest : JsString} {kind : TokenKind}
    {tokens result : List Token} (run : runAt ch (tail ++ rest) = (kind, (ch :: tail).length))
    (scans : Scans rest (push tokens kind (ch :: tail)) result) :
    Scans (ch :: tail ++ rest) tokens result := by
  rw [List.cons_append]
  refine Scans.turn ?_
  rw [run, ← List.cons_append, List.drop_left, List.take_left]
  exact scans

theorem Scans.last {ch : UInt16} {tail : JsString} {kind : TokenKind} (tokens : List Token)
    (run : runAt ch tail = (kind, (ch :: tail).length)) :
    Scans (ch :: tail) tokens (push tokens kind (ch :: tail)) := by
  refine Scans.turn ?_
  rw [run, List.drop_length, List.take_length]
  exact Scans.nil _

/-- Of every text the loop ends, with tokens that join to the text. -/
theorem exists_scans (n : Nat) : ∀ (sql : JsString) (tokens : List Token), sql.length ≤ n →
    ∃ result, Scans sql tokens result ∧ joined result = joined tokens ++ sql ∧
      (WellFormed tokens → WellFormed result) := by
  induction n with
  | zero =>
    intro sql tokens short
    obtain rfl := List.length_eq_zero_iff.mp (Nat.le_zero.mp short)
    exact ⟨tokens, Scans.nil tokens, by simp, id⟩
  | succ n ih =>
    intro sql tokens short
    cases sql with
    | nil => exact ⟨tokens, Scans.nil tokens, by simp, id⟩
    | cons ch rest =>
      have advance := runAt_pos ch rest
      obtain ⟨result, scans, whole, formed⟩ := ih ((ch :: rest).drop (runAt ch rest).2)
        (push tokens (runAt ch rest).1 ((ch :: rest).take (runAt ch rest).2)) (by
          rw [List.length_drop]
          rw [List.length_cons] at *
          omega)
      refine ⟨result, scans.turn, ?_, fun before => formed (before.push ?_)⟩
      · rw [whole, joined_push, List.append_assoc, List.take_append_drop]
      · exact List.ne_nil_of_length_pos (by rw [List.length_take, List.length_cons]; omega)

/-- The scanner comes to the end of what is lexed. -/
theorem exists_scans_lexed {before rest : JsString} (lexed : Lexed before rest) :
    ∀ tokens, ∃ later, ∀ result,
      Scans rest later result → Scans (before ++ rest) tokens result := by
  induction lexed with
  | done rest => exact fun tokens => ⟨tokens, fun result scans => scans⟩
  | @lexeme kind text before rest first _ ih =>
    intro tokens
    obtain ⟨ch, tail, rfl, run⟩ := runAt_lexeme first
    obtain ⟨later, scans⟩ := ih (push tokens kind (ch :: tail))
    refine ⟨later, fun result rest => ?_⟩
    rw [List.append_assoc]
    exact Scans.run run (scans result rest)

/-! ## Every text is lexed -/

theorem takeWhile_head {p : UInt16 → Bool} (text : JsString) :
    (∀ c ∈ text.takeWhile p, p c = true) ∧ ∀ c ∈ (text.dropWhile p).head?, p c = false := by
  refine ⟨List.all_eq_true.mp List.all_takeWhile, fun c first => ?_⟩
  have stop := List.head?_dropWhile_not p text
  rw [first] at stop
  exact stop

theorem exists_lexeme (ch : UInt16) (rest : JsString) :
    (∃ kind text after, ch :: rest = text ++ after ∧ text ≠ [] ∧ Lexeme kind text after) ∨
      ∃ kind, Unterminated kind (ch :: rest) := by
  have quoted {kind : TokenKind} (quotes : Quotes kind ch) :
      (∃ kind text after, ch :: rest = text ++ after ∧ text ≠ [] ∧ Lexeme kind text after) ∨
        ∃ kind, Unterminated kind (ch :: rest) := by
    rcases doubled_or_closed ch rest with doubled | ⟨body, after, rfl, doubled, closed⟩
    · exact Or.inr ⟨kind, .quoted quotes doubled⟩
    · exact Or.inl ⟨kind, ch :: (body ++ [ch]), after, by simp, by simp,
        .quoted quotes doubled closed⟩
  by_cases dashes : ch = DASH ∧ rest.head? = some DASH
  · obtain ⟨rfl, next⟩ := dashes
    obtain ⟨more, rfl⟩ := List.head?_eq_some_iff.mp next
    obtain ⟨all, stop⟩ := takeWhile_head (p := fun c => !isNewline c) more
    refine Or.inl ⟨.comment, DASH :: DASH :: more.takeWhile fun c => !isNewline c,
      more.dropWhile fun c => !isNewline c, ?_, by simp, ?_⟩
    · rw [List.cons_append, List.cons_append, List.takeWhile_append_dropWhile]
    · exact .lineComment (by simpa using all) (by simpa using stop)
  by_cases block : ch = SLASH ∧ rest.head? = some STAR
  · obtain ⟨rfl, next⟩ := block
    obtain ⟨more, rfl⟩ := List.head?_eq_some_iff.mp next
    rcases open_or_closed more with absent | ⟨body, after, rfl, open_⟩
    · exact Or.inr ⟨.comment, .blockComment absent⟩
    · exact Or.inl ⟨.comment, SLASH :: STAR :: (body ++ [STAR, SLASH]), after, by simp, by simp,
        .blockComment open_⟩
  by_cases quote : ch = QUOTE
  · subst quote
    exact quoted .string
  by_cases double : ch = DOUBLE_QUOTE
  · subst double
    exact quoted .identifier
  cases digit : isDigit ch with
  | true =>
    obtain ⟨all, stop⟩ := takeWhile_head (p := isNumberChar) rest
    exact Or.inl ⟨.number, ch :: rest.takeWhile isNumberChar, rest.dropWhile isNumberChar,
      by rw [List.cons_append, List.takeWhile_append_dropWhile], by simp, .number digit all stop⟩
  | false =>
    cases start : isWordStart ch with
    | true =>
      obtain ⟨all, stop⟩ := takeWhile_head (p := isWordChar) rest
      exact Or.inl ⟨_, ch :: rest.takeWhile isWordChar, rest.dropWhile isWordChar,
        by rw [List.cons_append, List.takeWhile_append_dropWhile], by simp, .word start all stop⟩
    | false =>
      exact Or.inl ⟨.plain, [ch], rest, rfl, by simp,
        .other ⟨dashes, block, quote, double, digit, start⟩⟩

/-- Every text is lexemes up to its end, or up to what is not terminated. -/
theorem exists_lexed (n : Nat) : ∀ sql : JsString, sql.length ≤ n →
    ∃ before rest, sql = before ++ rest ∧ Lexed before rest ∧
      (rest = [] ∨ ∃ kind, Unterminated kind rest) := by
  induction n with
  | zero =>
    intro sql short
    obtain rfl := List.length_eq_zero_iff.mp (Nat.le_zero.mp short)
    exact ⟨[], [], rfl, .done [], Or.inl rfl⟩
  | succ n ih =>
    intro sql short
    cases sql with
    | nil => exact ⟨[], [], rfl, .done [], Or.inl rfl⟩
    | cons ch rest =>
      rcases exists_lexeme ch rest with ⟨kind, text, after, whole, some, first⟩ | unterminated
      · have filled := List.length_pos_of_ne_nil some
        rw [whole, List.length_append] at short
        obtain ⟨before, rest, rfl, lexed, ending⟩ := ih after (by omega)
        exact ⟨text ++ before, rest, by rw [whole, List.append_assoc], .lexeme first lexed, ending⟩
      · exact ⟨[], ch :: rest, rfl, .done _, Or.inr unterminated⟩

/-- What the tokens of a text keep of it. -/
structure Lossless (sql : JsString) (tokens : List Token) : Prop where
  whole : joined tokens = sql
  filled : ∀ t ∈ tokens, t.text ≠ []
  apart : tokens.IsChain fun a b => a.kind ≠ b.kind
  unterminated : ∀ before rest kind, sql = before ++ rest → Lexed before rest →
    Unterminated kind rest → ∃ first text, tokens = first ++ [⟨kind, text⟩] ∧ rest <:+ text

/-- Of every text, whatever its code units, the scanner comes to the end within a turn
for each, and what it returns keeps the text. -/
theorem tokenize_lossless (sql : JsString) : ∃ tokens,
    (∀ fuel, sql.length ≤ fuel → scan fuel sql [] = some tokens) ∧
      tokenize sql = some tokens ∧ Lossless sql tokens := by
  obtain ⟨tokens, scans, whole, formed⟩ := exists_scans sql.length sql [] (Nat.le_refl _)
  obtain ⟨filled, apart⟩ := formed ⟨by simp, .nil⟩
  refine ⟨tokens, scans, scans _ (Nat.le_refl _), whole, filled, apart, ?_⟩
  rintro before rest kind rfl lexed unterminated
  obtain ⟨later, reaches⟩ := exists_scans_lexed lexed []
  obtain ⟨ch, tail, rfl, run⟩ := runAt_unterminated unterminated
  have ends := reaches _ (Scans.last later run)
  have same := (scans _ (Nat.le_refl _)).symm.trans (ends _ (Nat.le_refl _))
  rw [Option.some.inj same]
  exact push_ends later kind (ch :: tail)

end Tokenize
