import TextToSqlAgent.Core.Patterns

/-!
# Recovering a statement from a reply

A reasoning block, a fence and a label are formatting, and are stripped in this
order. The statement between them stays as it is.
-/

namespace Formatting

open Python Regex Patterns

def fenceRe : Pattern :=
  concat [.begins, .many true isSpace, .chars (exactly "```"),
    .alt (.chars (ignoringCase "sql")) (.alt (.chars (ignoringCase "postgresql"))
      (.alt (.chars (ignoringCase "postgres")) (.chars []))),
    .many true isSpace, .chars (exactly "\n"), .group "1" (.many false fun _ => true),
    .alt (.chars (exactly "\n")) (.chars []), .many true isSpace, .chars (exactly "```"),
    .many true isSpace, .ends]

def leadingLabelRe : Pattern :=
  concat [.begins, .many true isSpace,
    .alt (.chars (ignoringCase "sql")) (.chars (ignoringCase "query")),
    .many true isSpace, .chars (exactly ":"), .many true isSpace]

/-- A leading reasoning block, up to the last closing tag. -/
def thinkRe : Pattern :=
  concat [.begins, .many true isSpace, .chars (ignoringCase "<think"), .boundary,
    .many true fun _ => true, .chars (ignoringCase "</think>")]

def unclosedThinkRe : Pattern :=
  concat [.begins, .many true isSpace, .chars (ignoringCase "<think"), .boundary]

/-- The first match of a pattern, taken out. -/
def without (words : Words) (p : Pattern) (text : String) : String :=
  String.ofList (p.subOnce words.isWord (fun _ => []) none text.toList)

/-- The statement in a fenced block, or the text where it is none. -/
def unfenced (words : Words) (text : String) : String :=
  match fenceRe.match? words.isWord (start text.toList) with
  | some fenced => strip (String.ofList ((fenced.group? "1").getD []))
  | none => text

/-- Recover raw SQL from what a model actually returns. -/
def stripFormatting (words : Words) (text : String) : String :=
  let cleaned := strip (without words thinkRe (strip text))
  if (unclosedThinkRe.match? words.isWord (start cleaned.toList)).isSome then ""
  else strip (without words leadingLabelRe (unfenced words cleaned))

/-! ## Replies -/

def Blank (l : List Char) : Prop := ∀ c ∈ l, isSpace c = true

instance (l : List Char) : Decidable (Blank l) :=
  inferInstanceAs (Decidable (∀ c ∈ l, isSpace c = true))

/-- A label: `sql` or `query`, and a colon. -/
inductive IsLabel : List Char → Prop
  | intro {pad name gap after : List Char} (blank : Blank pad)
      (named : Spells "sql" name ∨ Spells "query" name) (between : Blank gap)
      (behind : Blank after) : IsLabel (pad ++ (name ++ (gap ++ ':' :: after)))

/-- A text that begins with `<think`, where this is a word. -/
def BeginsThink (words : Words) (l : List Char) : Prop :=
  ∃ tag rest, l = tag ++ rest ∧ Spells "<think" tag ∧ ∀ c ∈ rest.head?, words.isWord c = false

def HasClosing (l : List Char) : Prop :=
  ∃ before tag after, l = before ++ (tag ++ after) ∧ Spells "</think>" tag

/-- What a statement is asked to be. -/
structure IsStatement (words : Words) (s : List Char) : Prop where
  nonempty : s ≠ []
  trimmed : (strip (String.ofList s)).toList = s
  unfenced : ¬"```".toList <+: s
  unlabelled : ∀ label rest, IsLabel label → s ≠ label ++ rest
  thoughtless : ¬BeginsThink words s
  unclosed : ¬HasClosing s

/-- The statement, or a label before it. -/
inductive Plain (s : List Char) : List Char → Prop
  | bare : Plain s s
  | labelled {label : List Char} (is : IsLabel label) : Plain s (label ++ s)

/-- What a fence may be tagged with. -/
def IsTag (tag : List Char) : Prop :=
  tag = [] ∨ Spells "sql" tag ∨ Spells "postgres" tag ∨ Spells "postgresql" tag

/-- One of these, or a fenced block of one. -/
inductive Answer (s : List Char) : List Char → Prop
  | plain {body : List Char} (is : Plain s body) : Answer s body
  | fenced {tag gap body close : List Char} (tagged : IsTag tag) (opened : Blank gap)
      (is : Plain s body) (closed : Blank close) :
      Answer s ("```".toList ++ (tag ++ (gap ++ '\n' :: (body ++ (close ++ "```".toList)))))

/-- An answer, or one after a reasoning block, with white space around it. -/
inductive Reply (words : Words) (s : List Char) : List Char → Prop
  | answer {pad answer after : List Char} (before : Blank pad) (is : Answer s answer)
      (behind : Blank after) : Reply words s (pad ++ (answer ++ after))
  | reasoned {pad tag contents closing gap answer after : List Char} (before : Blank pad)
      (opens : Spells "<think" tag)
      (apart : ∀ c ∈ (contents ++ closing).head?, words.isWord c = false)
      (closes : Spells "</think>" closing) (between : Blank gap) (is : Answer s answer)
      (behind : Blank after) :
      Reply words s (pad ++ (tag ++ (contents ++ (closing ++ (gap ++ (answer ++ after))))))

/-- What `stripFormatting` is for. -/
structure Recovers (words : Words) : Prop where
  statement : ∀ s text, IsStatement words s → Reply words s text →
    stripFormatting words (String.ofList text) = String.ofList s
  unclosed : ∀ pad text, Blank pad → BeginsThink words text → ¬HasClosing text →
    stripFormatting words (String.ofList (pad ++ text)) = ""

/-! ## White space around a text -/

def stripped (l : List Char) : List Char := (l.dropWhile isSpace).rdropWhile isSpace

theorem strip_ofList (l : List Char) : strip (String.ofList l) = String.ofList (stripped l) := by
  rw [strip, String.toList_ofList, stripped]

theorem stripped_append_left {pad : List Char} (blank : Blank pad) (l : List Char) :
    stripped (pad ++ l) = stripped l := by
  rw [stripped, stripped, List.dropWhile_append_of_pos blank]

theorem stripped_append_right (l : List Char) {pad : List Char} (blank : Blank pad) :
    stripped (l ++ pad) = stripped l := by
  rw [stripped, stripped, List.dropWhile_append]
  split
  · rename_i nothing
    rw [List.isEmpty_iff.mp nothing, List.dropWhile_eq_nil_iff.mpr blank]
  · have backwards : ∀ c ∈ pad.reverse, isSpace c = true := fun c listed =>
      blank c (List.mem_reverse.mp listed)
    rw [List.rdropWhile, List.reverse_append, List.dropWhile_append_of_pos backwards]
    rfl

/-- A text without white space at its ends is not changed by stripping. -/
theorem stripped_of_ends {l : List Char} (first : ∀ c ∈ l.head?, isSpace c = false)
    (last : ∀ c ∈ l.getLast?, isSpace c = false) : stripped l = l := by
  have front : l.dropWhile isSpace = l := by
    cases l with
    | nil => rfl
    | cons c rest => rw [List.dropWhile_cons, if_neg (by simp [first c rfl])]
  rw [stripped, front, List.rdropWhile_eq_self_iff]
  intro some_ blank
  rw [last _ (List.getLast?_eq_some_getLast some_)] at blank
  cases blank

theorem ends_of_stripped {l : List Char} (trimmed : stripped l = l) :
    (∀ c ∈ l.head?, isSpace c = false) ∧ ∀ c ∈ l.getLast?, isSpace c = false := by
  have front : l.dropWhile isSpace = l := by
    refine List.IsSuffix.eq_of_length (List.dropWhile_suffix _) (Nat.le_antisymm
      (List.dropWhile_suffix _).length_le ?_)
    have shorter := (List.rdropWhile_prefix isSpace (l := l.dropWhile isSpace)).length_le
    rw [← stripped, trimmed] at shorter
    exact shorter
  constructor
  · intro c head
    cases l with
    | nil => cases head
    | cons d rest =>
      obtain rfl := Option.some.inj head
      rw [List.dropWhile_cons] at front
      split at front
      · have shorter := (List.dropWhile_suffix isSpace (l := rest)).length_le
        rw [front, List.length_cons] at shorter
        omega
      · rename_i solid
        exact Bool.eq_false_of_not_eq_true solid
  · rw [stripped, front, List.rdropWhile_eq_self_iff] at trimmed
    intro c last
    obtain ⟨some_, rfl⟩ := List.mem_getLast?_eq_getLast last
    exact Bool.eq_false_of_not_eq_true (trimmed some_)

/-! ## The letters of a word -/

theorem letter_of_spells {text : String} {taken : List Char} (spells : Spells text taken) :
    ∀ c ∈ taken, ∃ lower ∈ text.toList, ignores lower c = true := by
  rw [Spells] at spells
  generalize text.toList = letters at spells
  induction spells with
  | nil => exact fun c listed => absurd listed List.not_mem_nil
  | cons head tail ih =>
    intro c listed
    rcases List.mem_cons.mp listed with rfl | later
    · exact ⟨_, List.mem_cons_self, head⟩
    · obtain ⟨lower, member, same⟩ := ih c later
      exact ⟨lower, List.mem_cons_of_mem _ member, same⟩

/-- A character that matches no letter of a word does not stand in it. -/
theorem not_mem_of_spells {text : String} {taken : List Char} (spells : Spells text taken)
    {c : Char} (other : ∀ lower ∈ text.toList, ignores lower c = false) : c ∉ taken := by
  intro listed
  obtain ⟨lower, member, same⟩ := letter_of_spells spells c listed
  rw [other lower member] at same
  cases same

/-- A letter or a sign that is no white space matches no white space. -/
theorem solid_of_ignores {lower c : Char} (solid : isSpace lower = false)
    (same : ignores lower c = true) : isSpace c = false := by
  rw [ignores, Bool.or_eq_true, decide_eq_true_eq, List.contains_iff_mem] at same
  rcases same with rfl | other
  · rwa [isSpace_toLower] at solid
  · rw [otherCases.eq_def] at other
    split at other
    all_goals
      simp only [List.mem_cons, List.not_mem_nil, or_false] at other
    · rcases other with rfl | rfl <;> decide
    · subst other
      decide
    · subst other
      decide

/-- The last letter of `<think` is a word's. -/
theorem isWord_of_ignores_k (words : Words) {c : Char} (same : ignores 'k' c = true) :
    words.isWord c = true := by
  rw [ignores, Bool.or_eq_true, decide_eq_true_eq, List.contains_iff_mem] at same
  rcases same with lower | other
  · by_cases ascii : c.toNat < 128
    · rw [words.ascii c ascii]
      exact ascii_cases (fun c => c.toLower = 'k' → (c.isAlphanum || decide (c = '_')) = true)
        (by decide) ascii lower
    · rw [toLower_of_not_ascii (Nat.not_lt.mp ascii)] at lower
      subst lower
      exact absurd (by decide) ascii
  · exact words.cased 'k' c other

theorem last_of_spells_think {tag : List Char} (spells : Spells "<think" tag) :
    ∃ c, tag.getLast? = some c ∧ ignores 'k' c = true := by
  have letters : "<think".toList = ['<', 't', 'h', 'i', 'n', 'k'] := by decide
  rw [Spells, letters] at spells
  cases spells with | cons _ spells =>
  cases spells with | cons _ spells =>
  cases spells with | cons _ spells =>
  cases spells with | cons _ spells =>
  cases spells with | cons _ spells =>
  cases spells with | cons last spells =>
  cases spells
  exact ⟨_, rfl, last⟩

theorem eq_of_ignores_bracket {c : Char} (same : ignores '<' c = true) : c = '<' := by
  rw [ignores, Bool.or_eq_true, decide_eq_true_eq, List.contains_iff_mem] at same
  rcases same with lower | other
  · by_cases ascii : c.toNat < 128
    · exact ascii_cases (fun c => c.toLower = '<' → c = '<') (by decide) ascii lower
    · rwa [toLower_of_not_ascii (Nat.not_lt.mp ascii)] at lower
  · cases other

theorem bracket_of_spells {tag : List Char} (spells : Spells "<think" tag) :
    ∃ rest, tag = '<' :: rest := by
  have letters : "<think".toList = '<' :: "think".toList := by decide
  rw [Spells, letters] at spells
  obtain ⟨c, rest, first, -, rfl⟩ := List.forall₂_cons_left_iff.mp spells
  exact ⟨rest, eq_of_ignores_bracket first ▸ rfl⟩

/-- A closing tag begins with the only bracket of its kind that is in it. -/
theorem closing_of_spells {tag : List Char} (spells : Spells "</think>" tag) :
    ∃ rest, tag = '<' :: rest ∧ '<' ∉ rest := by
  have letters : "</think>".toList = '<' :: "/think>".toList := by decide
  rw [Spells, letters] at spells
  obtain ⟨c, rest, first, later, rfl⟩ := List.forall₂_cons_left_iff.mp spells
  rw [eq_of_ignores_bracket first]
  exact ⟨rest, rfl, not_mem_of_spells later (by decide)⟩

theorem not_hasClosing_append_left {pad l : List Char} (free : '<' ∉ pad)
    (unclosed : ¬HasClosing l) : ¬HasClosing (pad ++ l) := by
  rintro ⟨before, tag, after, whole, spells⟩
  rcases List.append_eq_append_iff.mp whole with ⟨middle, -, same⟩ | ⟨middle, same, rest⟩
  · exact unclosed ⟨middle, tag, after, same, spells⟩
  · cases middle with
    | nil => exact unclosed ⟨[], tag, after, rest.symm, spells⟩
    | cons c middle =>
      obtain ⟨letters, rfl, -⟩ := closing_of_spells spells
      rw [List.cons_append, List.cons_append, List.cons.injEq] at rest
      obtain ⟨rfl, -⟩ := rest
      exact free (same ▸ List.mem_append_right _ List.mem_cons_self)

theorem not_hasClosing_append_right {l pad : List Char}
    (free : ∀ c ∈ pad, ∀ lower ∈ "</think>".toList, ignores lower c = false)
    (unclosed : ¬HasClosing l) : ¬HasClosing (l ++ pad) := by
  rintro ⟨before, tag, after, whole, spells⟩
  rw [← List.append_assoc] at whole
  rcases List.append_eq_append_iff.mp whole with ⟨middle, same, rest⟩ | ⟨middle, same, -⟩
  · obtain ⟨letters, rfl, -⟩ := closing_of_spells spells
    cases ending : middle.getLast? with
    | none =>
      obtain rfl := List.getLast?_eq_none_iff.mp ending
      rw [List.append_nil] at same
      exact unclosed ⟨before, _, [], by rw [List.append_nil, same], spells⟩
    | some c =>
      have last := congrArg List.getLast? same
      rw [List.getLast?_append, List.getLast?_append, ending, List.getLast?_cons] at last
      have inTag : c ∈ '<' :: letters := by
        refine List.mem_of_mem_getLast? ?_
        rw [List.getLast?_cons]
        exact last
      have inPad : c ∈ pad := by
        rw [rest]
        exact List.mem_append_left _ (List.mem_of_mem_getLast? ending)
      exact not_mem_of_spells spells (free c inPad) inTag
  · rw [List.append_assoc] at same
    exact unclosed ⟨before, tag, middle, same, spells⟩

/-! ## What the patterns match -/

variable {words : Words}

/-- A word boundary behind `<think` is a character of no word, or the end. -/
theorem isBoundary_think_iff {tag rest : List Char} {s : Cursor} (spells : Spells "<think" tag) :
    (s.skip tag rest).isBoundary words.isWord = true ↔
      ∀ c ∈ rest.head?, words.isWord c = false := by
  obtain ⟨c, last, letter⟩ := last_of_spells_think spells
  have inside := isWord_of_ignores_k words letter
  rw [Cursor.isBoundary, Cursor.skip, last]
  cases rest with
  | nil => simp [inside]
  | cons d rest => simp [inside]

theorem mem_unclosedThinkRe_iff {t : List Char} {r : Cursor} :
    r ∈ unclosedThinkRe.results words.isWord (start t) ↔
      ∃ pad tag rest, t = pad ++ (tag ++ rest) ∧ Blank pad ∧ Spells "<think" tag ∧
        (∀ c ∈ rest.head?, words.isWord c = false) ∧
          r = ((start t).skip pad (tag ++ rest)).skip tag rest := by
  constructor
  · intro found
    obtain ⟨m, begins, found⟩ := mem_results_concat_cons.mp found
    obtain ⟨-, rfl⟩ := mem_results_begins.mp begins
    obtain ⟨m, spaces, found⟩ := mem_results_concat_cons.mp found
    obtain ⟨pad, rest, whole, blank, rfl⟩ := mem_results_many.mp spaces
    obtain ⟨m, opens, found⟩ := mem_results_concat_cons.mp found
    obtain ⟨tag, after, rfl, spells, rfl⟩ := mem_results_chars.mp opens
    obtain ⟨m, here, found⟩ := mem_results_concat_cons.mp found
    obtain ⟨boundary, rfl⟩ := mem_results_boundary.mp here
    have spells := forall₂_ignoringCase_iff.mp spells
    exact ⟨pad, tag, after, whole, blank, spells, (isBoundary_think_iff spells).mp boundary,
      mem_results_concat_nil.mp found⟩
  · rintro ⟨pad, tag, rest, rfl, blank, spells, apart, rfl⟩
    refine mem_results_concat_cons.mpr ⟨_, mem_results_begins.mpr ⟨rfl, rfl⟩, ?_⟩
    refine mem_results_concat_cons.mpr ⟨_, mem_results_many.mpr ⟨pad, _, rfl, blank, rfl⟩, ?_⟩
    refine mem_results_concat_cons.mpr ⟨_, mem_results_chars.mpr ⟨tag, rest, rfl,
      forall₂_ignoringCase_iff.mpr spells, rfl⟩, ?_⟩
    refine mem_results_concat_cons.mpr ⟨_, mem_results_boundary.mpr
      ⟨(isBoundary_think_iff spells).mpr apart, rfl⟩, ?_⟩
    exact mem_results_concat_nil.mpr rfl

/-- White space, and then what begins with a tag. -/
def BeginsThinkPadded (words : Words) (t : List Char) : Prop :=
  ∃ pad rest, t = pad ++ rest ∧ Blank pad ∧ BeginsThink words rest

theorem unclosedThinkRe_iff {t : List Char} :
    (unclosedThinkRe.match? words.isWord (start t)).isSome = true ↔
      BeginsThinkPadded words t := by
  rw [Option.isSome_iff_exists]
  constructor
  · rintro ⟨r, found⟩
    obtain ⟨pad, tag, rest, whole, blank, spells, apart, -⟩ :=
      mem_unclosedThinkRe_iff.mp (mem_of_match? found)
    exact ⟨pad, tag ++ rest, whole, blank, tag, rest, rfl, spells, apart⟩
  · rintro ⟨pad, _, whole, blank, tag, rest, rfl, spells, apart⟩
    exact exists_match? (mem_unclosedThinkRe_iff.mpr
      ⟨pad, tag, rest, whole, blank, spells, apart, rfl⟩)

theorem thinkRe_eq : thinkRe = concat ([.begins, .many true isSpace,
    .chars (ignoringCase "<think"), .boundary] ++
      [.many true fun _ => true, .chars (ignoringCase "</think>")]) := rfl

/-- Only a block that is opened at the beginning and closed is taken out. -/
theorem thinkRe_match?_eq_none {t : List Char}
    (not_ : BeginsThinkPadded words t → ¬HasClosing t) :
    thinkRe.match? words.isWord (start t) = none := by
  rw [match?_eq_none_iff]
  intro r found
  obtain ⟨m, opens, found⟩ := mem_results_concat_append.mp (thinkRe_eq ▸ found)
  obtain ⟨pad, tag, rest, rfl, blank, spells, apart, rfl⟩ := mem_unclosedThinkRe_iff.mp opens
  obtain ⟨m, any, found⟩ := mem_results_concat_cons.mp found
  obtain ⟨contents, after, whole, -, rfl⟩ := mem_results_many.mp any
  obtain ⟨m, closes, -⟩ := mem_results_concat_cons.mp found
  obtain ⟨closing, behind, split, spells', -⟩ := mem_results_chars.mp closes
  refine not_ ⟨pad, _, rfl, blank, tag, rest, rfl, spells, apart⟩
    ⟨pad ++ (tag ++ contents), closing, behind, ?_, forall₂_ignoringCase_iff.mp spells'⟩
  rw [skip_rest] at whole split
  rw [whole, split]
  simp only [List.append_assoc]

theorem closing_match? {s : Cursor} {closing rest : List Char} (whole : s.rest = closing ++ rest)
    (closes : Spells "</think>" closing) :
    (concat [.chars (ignoringCase "</think>")]).match? words.isWord s =
      some (s.skip closing rest) := by
  rw [concat, match?_chars_seq whole (forall₂_ignoringCase_iff.mpr closes)]
  exact match?_concat_nil

/-- No closing tag begins within another one. -/
theorem closing_match?_eq_none {s : Cursor} {closing rest more after : List Char}
    (closes : Spells "</think>" closing) (unclosed : ¬HasClosing rest)
    (whole : closing ++ rest = more ++ after) (some_ : more ≠ []) (own : s.rest = after) :
    (concat [.chars (ignoringCase "</think>")]).match? words.isWord s = none := by
  rw [match?_eq_none_iff]
  intro r found
  obtain ⟨m, first, -⟩ := mem_results_concat_cons.mp found
  obtain ⟨tag, behind, split, spells, -⟩ := mem_results_chars.mp first
  have spells := forall₂_ignoringCase_iff.mp spells
  rw [own] at split
  subst split
  rcases List.append_eq_append_iff.mp whole with ⟨middle, -, same⟩ | ⟨middle, same, rest⟩
  · exact unclosed ⟨middle, tag, behind, same, spells⟩
  · cases middle with
    | nil => exact unclosed ⟨[], tag, behind, rest.symm, spells⟩
    | cons c middle =>
      -- the tag would begin with a bracket inside the closing one
      obtain ⟨letters, rfl, -⟩ := closing_of_spells spells
      obtain ⟨inner, rfl, free⟩ := closing_of_spells closes
      obtain ⟨d, more, rfl⟩ := List.exists_cons_of_ne_nil some_
      rw [List.cons_append, List.cons_append, List.cons.injEq] at rest
      obtain ⟨rfl, -⟩ := rest
      rw [List.cons_append, List.cons.injEq] at same
      exact free (same.2 ▸ List.mem_append_right _ List.mem_cons_self)

/-- A block is taken out up to the last closing tag. -/
theorem thinkRe_match? {tag contents closing rest : List Char} (opens : Spells "<think" tag)
    (apart : ∀ c ∈ (contents ++ closing).head?, words.isWord c = false)
    (closes : Spells "</think>" closing) (unclosed : ¬HasClosing rest) :
    ∃ r, thinkRe.match? words.isWord (start (tag ++ (contents ++ (closing ++ rest)))) = some r ∧
      r.rest = rest := by
  have solid : ∀ c ∈ (tag ++ (contents ++ (closing ++ rest))).head?, isSpace c = false := by
    obtain ⟨letters, rfl⟩ := bracket_of_spells opens
    rintro c ⟨⟩
    decide
  have behind : ∀ c ∈ (contents ++ (closing ++ rest)).head?, words.isWord c = false := by
    obtain ⟨letters, rfl, -⟩ := closing_of_spells closes
    intro c head
    refine apart c ?_
    cases contents <;> exact head
  rw [thinkRe, concat, match?_begins_seq rfl, concat, match?_many_seq_of_head solid, concat,
    match?_chars_seq rfl (forall₂_ignoringCase_iff.mpr opens), concat,
    match?_boundary_seq ((isBoundary_think_iff opens).mpr behind), concat]
  exact ⟨_, match?_many_seq rfl (fun _ _ => rfl) (closing_match? rfl closes)
    fun more after whole some_ _ => closing_match?_eq_none closes unclosed whole some_ rfl, rfl⟩

/-! ## Labels -/

theorem not_mem_of_blank {l : List Char} (blank : Blank l) {c : Char} (solid : isSpace c = false) :
    c ∉ l := by
  intro listed
  rw [blank c listed] at solid
  cases solid

/-- A label is white space, letters and a colon. -/
theorem not_mem_of_isLabel {label : List Char} (is : IsLabel label) {c : Char}
    (solid : isSpace c = false) (colon : c ≠ ':')
    (other : ∀ lower ∈ "sqlquery".toList, ignores lower c = false) : c ∉ label := by
  obtain @⟨pad, name, gap, after, blank, named, between, behind⟩ := is
  have inName : c ∉ name := by
    rcases named with spells | spells
    · exact not_mem_of_spells spells fun lower listed =>
        other lower (by revert listed; decide +revert)
    · exact not_mem_of_spells spells fun lower listed =>
        other lower (by revert listed; decide +revert)
  simp only [List.mem_append, List.mem_cons, not_or]
  exact ⟨not_mem_of_blank blank solid, inName, not_mem_of_blank between solid, colon,
    not_mem_of_blank behind solid⟩

/-- What stands before the colon of a label has none. -/
theorem colon_of_isLabel {label : List Char} (is : IsLabel label) :
    ∃ front after, label = front ++ ':' :: after ∧ (∀ c ∈ front, c ≠ ':') ∧ Blank after := by
  obtain @⟨pad, name, gap, after, blank, named, between, behind⟩ := is
  refine ⟨pad ++ (name ++ gap), after, by simp only [List.append_assoc], ?_, behind⟩
  rintro c listed rfl
  rw [List.mem_append, List.mem_append] at listed
  rcases listed with inPad | inName | inGap
  · exact not_mem_of_blank blank (by decide) inPad
  · rcases named with spells | spells
    · exact not_mem_of_spells spells (by decide) inName
    · exact not_mem_of_spells spells (by decide) inName
  · exact not_mem_of_blank between (by decide) inGap

theorem leadingLabelRe_results {t : List Char} {r : Cursor}
    (found : r ∈ leadingLabelRe.results words.isWord (start t)) :
    ∃ label, IsLabel label ∧ t = label ++ r.rest := by
  obtain ⟨m, begins, found⟩ := mem_results_concat_cons.mp found
  obtain ⟨-, rfl⟩ := mem_results_begins.mp begins
  obtain ⟨m, spaces, found⟩ := mem_results_concat_cons.mp found
  obtain ⟨pad, rest, rfl, blank, rfl⟩ := mem_results_many.mp spaces
  obtain ⟨m, naming, found⟩ := mem_results_concat_cons.mp found
  obtain ⟨name, rest, rfl, named, rfl⟩ : ∃ name after, rest = name ++ after ∧
      (Spells "sql" name ∨ Spells "query" name) ∧
        m = ((start (pad ++ rest)).skip pad rest).skip name after := by
    rcases mem_results_alt.mp naming with one | other
    · obtain ⟨name, after, whole, spells, rfl⟩ := mem_results_chars.mp one
      exact ⟨name, after, whole, .inl (forall₂_ignoringCase_iff.mp spells), rfl⟩
    · obtain ⟨name, after, whole, spells, rfl⟩ := mem_results_chars.mp other
      exact ⟨name, after, whole, .inr (forall₂_ignoringCase_iff.mp spells), rfl⟩
  obtain ⟨m, spaces, found⟩ := mem_results_concat_cons.mp found
  obtain ⟨gap, rest, rfl, between, rfl⟩ := mem_results_many.mp spaces
  obtain ⟨m, colon, found⟩ := mem_results_concat_cons.mp found
  obtain ⟨sign, rest, rfl, own, rfl⟩ := mem_results_chars.mp colon
  obtain rfl : sign = [':'] := forall₂_exactly_iff.mp own
  obtain ⟨m, spaces, found⟩ := mem_results_concat_cons.mp found
  obtain ⟨after, rest, rfl, behind, rfl⟩ := mem_results_many.mp spaces
  obtain rfl := mem_results_concat_nil.mp found
  refine ⟨_, .intro blank named between behind, ?_⟩
  simp only [skip_rest, List.append_assoc, List.cons_append, List.nil_append]

theorem exists_leadingLabelRe {label : List Char} (is : IsLabel label) (t : List Char) :
    ∃ r, r ∈ leadingLabelRe.results words.isWord (start (label ++ t)) := by
  obtain @⟨pad, name, gap, after, blank, named, between, behind⟩ := is
  rw [List.append_assoc, List.append_assoc, List.append_assoc, List.cons_append]
  have naming : ∀ s : Cursor, s.rest = name ++ (gap ++ ':' :: (after ++ t)) →
      s.skip name (gap ++ ':' :: (after ++ t)) ∈
        (Pattern.alt (.chars (ignoringCase "sql")) (.chars (ignoringCase "query"))).results
          words.isWord s := by
    intro s whole
    rw [mem_results_alt, mem_results_chars, mem_results_chars]
    rcases named with spells | spells
    · exact .inl ⟨name, _, whole, forall₂_ignoringCase_iff.mpr spells, rfl⟩
    · exact .inr ⟨name, _, whole, forall₂_ignoringCase_iff.mpr spells, rfl⟩
  refine exists_concat_cons (mem_results_begins.mpr ⟨rfl, rfl⟩) ?_
  refine exists_concat_cons (mem_results_many.mpr ⟨pad, _, rfl, blank, rfl⟩) ?_
  refine exists_concat_cons (naming _ rfl) ?_
  refine exists_concat_cons (mem_results_many.mpr ⟨gap, _, rfl, between, rfl⟩) ?_
  refine exists_concat_cons
    (mem_results_chars.mpr ⟨[':'], after ++ t, rfl, forall₂_exactly_iff.mpr rfl, rfl⟩) ?_
  refine exists_concat_cons (mem_results_many.mpr ⟨after, t, rfl, behind, rfl⟩) ?_
  exact ⟨_, mem_results_concat_nil.mpr rfl⟩

/-- Two labels before one text leave the same of it. -/
theorem stripped_of_labels {label other x y : List Char} (is : IsLabel label)
    (is' : IsLabel other) (same : label ++ x = other ++ y) : stripped x = stripped y := by
  obtain ⟨front, after, rfl, free, blank⟩ := colon_of_isLabel is
  obtain ⟨front', after', rfl, free', blank'⟩ := colon_of_isLabel is'
  rw [List.append_assoc, List.append_assoc, List.cons_append, List.cons_append] at same
  obtain ⟨-, -, same⟩ := cut_unique free free' (not_not.mpr rfl) (not_not.mpr rfl) same
  rw [← stripped_append_left blank x, same, stripped_append_left blank']

/-! ## Fences -/

theorem fence_eq : "```".toList = ['`', '`', '`'] := by decide

theorem solid_of_spells {text : String} {taken : List Char} (spells : Spells text taken)
    (solid : ∀ lower ∈ text.toList, isSpace lower = false) : ∀ c ∈ taken, isSpace c = false := by
  intro c listed
  obtain ⟨lower, member, same⟩ := letter_of_spells spells c listed
  exact solid_of_ignores (solid lower member) same

theorem solid_of_isTag {tag : List Char} (tagged : IsTag tag) : ∀ c ∈ tag, isSpace c = false := by
  rcases tagged with rfl | spells | spells | spells
  · exact nofun
  · exact solid_of_spells spells (by decide)
  · exact solid_of_spells spells (by decide)
  · exact solid_of_spells spells (by decide)

theorem mem_results_tag_iff {s r : Cursor} :
    r ∈ (Pattern.alt (.chars (ignoringCase "sql")) (.alt (.chars (ignoringCase "postgresql"))
      (.alt (.chars (ignoringCase "postgres")) (.chars [])))).results words.isWord s ↔
      ∃ tag rest, s.rest = tag ++ rest ∧ IsTag tag ∧ r = s.skip tag rest := by
  simp only [mem_results_alt, mem_results_chars, forall₂_ignoringCase_iff,
    List.forall₂_nil_left_iff, IsTag]
  constructor
  · rintro (⟨tag, rest, whole, spells, rfl⟩ | ⟨tag, rest, whole, spells, rfl⟩ |
      ⟨tag, rest, whole, spells, rfl⟩ | ⟨tag, rest, whole, spells, rfl⟩)
    · exact ⟨tag, rest, whole, .inr (.inl spells), rfl⟩
    · exact ⟨tag, rest, whole, .inr (.inr (.inr spells)), rfl⟩
    · exact ⟨tag, rest, whole, .inr (.inr (.inl spells)), rfl⟩
    · exact ⟨tag, rest, whole, .inl spells, rfl⟩
  · rintro ⟨tag, rest, whole, spells | spells | spells | spells, rfl⟩
    · exact .inr (.inr (.inr ⟨tag, rest, whole, spells, rfl⟩))
    · exact .inl ⟨tag, rest, whole, spells, rfl⟩
    · exact .inr (.inr (.inl ⟨tag, rest, whole, spells, rfl⟩))
    · exact .inr (.inl ⟨tag, rest, whole, spells, rfl⟩)

/-- The end of a fenced block. -/
theorem closingFence_results {s r : Cursor}
    (found : r ∈ (concat [.alt (.chars (exactly "\n")) (.chars []), .many true isSpace,
      .chars (exactly "```"), .many true isSpace, .ends]).results words.isWord s) :
    ∃ close after, s.rest = close ++ ("```".toList ++ after) ∧ Blank close ∧ Blank after ∧
      r.groups = s.groups := by
  obtain ⟨m, feed, found⟩ := mem_results_concat_cons.mp found
  obtain ⟨nl, rest, whole, newline, rfl⟩ : ∃ nl rest, s.rest = nl ++ rest ∧ Blank nl ∧
      m = s.skip nl rest := by
    rcases mem_results_alt.mp feed with one | other
    · obtain ⟨nl, rest, whole, own, rfl⟩ := mem_results_chars.mp one
      obtain rfl := forall₂_exactly_iff.mp own
      have blank : ∀ c ∈ "\n".toList, isSpace c = true := by decide
      exact ⟨_, rest, whole, blank, rfl⟩
    · obtain ⟨nl, rest, whole, own, rfl⟩ := mem_results_chars.mp other
      exact ⟨nl, rest, whole, List.forall₂_nil_left_iff.mp own ▸ nofun, rfl⟩
  obtain ⟨m, spaces, found⟩ := mem_results_concat_cons.mp found
  obtain ⟨gap, rest, split, blank, rfl⟩ := mem_results_many.mp spaces
  obtain ⟨m, fence, found⟩ := mem_results_concat_cons.mp found
  obtain ⟨sign, rest, split', own, rfl⟩ := mem_results_chars.mp fence
  obtain rfl := forall₂_exactly_iff.mp own
  obtain ⟨m, spaces, found⟩ := mem_results_concat_cons.mp found
  obtain ⟨after, rest, split'', blank', rfl⟩ := mem_results_many.mp spaces
  obtain ⟨m, last, found⟩ := mem_results_concat_cons.mp found
  obtain ⟨ending, rfl⟩ := mem_results_ends.mp last
  obtain rfl := mem_results_concat_nil.mp found
  rw [skip_rest] at split split' split'' ending
  refine ⟨nl ++ gap, after ++ rest, ?_, ?_, ?_, rfl⟩
  · rw [whole, split, split', split'', List.append_assoc]
  · exact List.forall_mem_append.mpr ⟨newline, blank⟩
  · refine List.forall_mem_append.mpr ⟨blank', ?_⟩
    rcases ending with rfl | rfl <;> decide

theorem fenceRe_eq : fenceRe = concat ([.begins, .many true isSpace, .chars (exactly "```"),
    .alt (.chars (ignoringCase "sql")) (.alt (.chars (ignoringCase "postgresql"))
      (.alt (.chars (ignoringCase "postgres")) (.chars []))),
    .many true isSpace, .chars (exactly "\n"), .group "1" (.many false fun _ => true)] ++
      [.alt (.chars (exactly "\n")) (.chars []), .many true isSpace, .chars (exactly "```"),
        .many true isSpace, .ends]) := rfl

theorem fenceRe_results {t : List Char} {r : Cursor}
    (found : r ∈ fenceRe.results words.isWord (start t)) :
    ∃ pad tag gap body close after, t = pad ++ ("```".toList ++ (tag ++ (gap ++ '\n' ::
        (body ++ (close ++ ("```".toList ++ after)))))) ∧
      Blank pad ∧ IsTag tag ∧ Blank gap ∧ Blank close ∧ Blank after ∧
        r.group? "1" = some body := by
  obtain ⟨m, opens, closes⟩ := mem_results_concat_append.mp (fenceRe_eq ▸ found)
  obtain ⟨close, after, ending, closed, blank', groups⟩ := closingFence_results closes
  obtain ⟨m, begins, opens⟩ := mem_results_concat_cons.mp opens
  obtain ⟨-, rfl⟩ := mem_results_begins.mp begins
  obtain ⟨m, spaces, opens⟩ := mem_results_concat_cons.mp opens
  obtain ⟨pad, rest, rfl, blank, rfl⟩ := mem_results_many.mp spaces
  obtain ⟨m, fence, opens⟩ := mem_results_concat_cons.mp opens
  obtain ⟨sign, rest, rfl, own, rfl⟩ := mem_results_chars.mp fence
  obtain rfl := forall₂_exactly_iff.mp own
  obtain ⟨m, tagging, opens⟩ := mem_results_concat_cons.mp opens
  obtain ⟨tag, rest, rfl, tagged, rfl⟩ := mem_results_tag_iff.mp tagging
  obtain ⟨m, spaces, opens⟩ := mem_results_concat_cons.mp opens
  obtain ⟨gap, rest, rfl, opened, rfl⟩ := mem_results_many.mp spaces
  obtain ⟨m, feed, opens⟩ := mem_results_concat_cons.mp opens
  obtain ⟨sign, rest, rfl, own, rfl⟩ := mem_results_chars.mp feed
  obtain rfl := forall₂_exactly_iff.mp own
  obtain ⟨m, grouped, opens⟩ := mem_results_concat_cons.mp opens
  obtain ⟨m, any, rfl⟩ := mem_results_group.mp grouped
  obtain ⟨body, rest, rfl, -, rfl⟩ := mem_results_many.mp any
  obtain rfl := mem_results_concat_nil.mp opens
  rw [show rest = _ from ending]
  refine ⟨pad, tag, gap, body, close, after, rfl, blank, tagged, opened, closed, blank', ?_⟩
  rw [Cursor.group?, groups]
  simp [start]

theorem exists_fenceRe {tag gap body close : List Char} (tagged : IsTag tag) (opened : Blank gap)
    (closed : Blank close) : ∃ r, r ∈ fenceRe.results words.isWord (start ("```".toList ++
      (tag ++ (gap ++ '\n' :: (body ++ (close ++ "```".toList)))))) := by
  refine exists_concat_cons (mem_results_begins.mpr ⟨rfl, rfl⟩) ?_
  refine exists_concat_cons (mem_results_many.mpr ⟨[], _, rfl, nofun, rfl⟩) ?_
  refine exists_concat_cons
    (mem_results_chars.mpr ⟨_, _, rfl, forall₂_exactly_iff.mpr rfl, rfl⟩) ?_
  refine exists_concat_cons (mem_results_tag_iff.mpr ⟨tag, _, rfl, tagged, rfl⟩) ?_
  refine exists_concat_cons (mem_results_many.mpr ⟨gap, _, rfl, opened, rfl⟩) ?_
  refine exists_concat_cons (mem_results_chars.mpr
    ⟨['\n'], body ++ (close ++ "```".toList), rfl, forall₂_exactly_iff.mpr rfl, rfl⟩) ?_
  refine exists_concat_cons (mem_results_group.mpr
    ⟨_, mem_results_many.mpr ⟨body, _, rfl, fun _ _ => rfl, rfl⟩, rfl⟩) ?_
  refine exists_concat_cons (mem_results_alt.mpr (.inr
    (mem_results_chars.mpr ⟨[], _, rfl, .nil, rfl⟩))) ?_
  refine exists_concat_cons (mem_results_many.mpr ⟨close, _, rfl, closed, rfl⟩) ?_
  refine exists_concat_cons (mem_results_chars.mpr
    ⟨_, [], (List.append_nil _).symm, forall₂_exactly_iff.mpr rfl, rfl⟩) ?_
  refine exists_concat_cons (mem_results_many.mpr ⟨[], [], rfl, nofun, rfl⟩) ?_
  refine exists_concat_cons (mem_results_ends.mpr ⟨.inl rfl, rfl⟩) ?_
  exact ⟨_, mem_results_concat_nil.mpr rfl⟩

/-- However a fenced block is matched, the group is its body but for white space. -/
theorem stripped_of_fence {tag gap body close pad tag' gap' body' close' after : List Char}
    (tagged : IsTag tag) (opened : Blank gap) (closed : Blank close) (blank : Blank pad)
    (tagged' : IsTag tag') (opened' : Blank gap') (closed' : Blank close') (blank' : Blank after)
    (same : "```".toList ++ (tag ++ (gap ++ '\n' :: (body ++ (close ++ "```".toList)))) =
      pad ++ ("```".toList ++ (tag' ++ (gap' ++ '\n' ::
        (body' ++ (close' ++ ("```".toList ++ after))))))) : stripped body' = stripped body := by
  have solid : isSpace '`' = false := by decide
  have feed : isSpace '\n' = true := by decide
  -- the text begins with the fence
  obtain rfl : pad = [] := by
    cases pad with
    | nil => rfl
    | cons c pad =>
      simp only [fence_eq, List.cons_append, List.cons.injEq] at same
      exact absurd (same.1 ▸ List.mem_cons_self) (not_mem_of_blank blank solid)
  rw [List.nil_append] at same
  have same := List.append_cancel_left same
  -- the tag ends where the white space begins
  have headed : ∀ {gap x : List Char}, Blank gap → ∃ c y, gap ++ '\n' :: x = c :: y ∧
      isSpace c = true := by
    intro gap x opened
    cases gap with
    | nil => exact ⟨_, _, rfl, feed⟩
    | cons c gap => exact ⟨c, _, rfl, opened c List.mem_cons_self⟩
  have tails : gap ++ '\n' :: (body ++ (close ++ "```".toList)) =
      gap' ++ '\n' :: (body' ++ (close' ++ ("```".toList ++ after))) := by
    obtain ⟨c, y, whole, space⟩ := headed (x := body ++ (close ++ "```".toList)) opened
    obtain ⟨c', y', whole', space'⟩ :=
      headed (x := body' ++ (close' ++ ("```".toList ++ after))) opened'
    rw [whole, whole'] at same ⊢
    obtain ⟨-, rfl, rfl⟩ := cut_unique (p := fun c => isSpace c = false) (solid_of_isTag tagged)
      (solid_of_isTag tagged') (by simp [space]) (by simp [space']) same
    rfl
  -- and ends with the fence
  obtain rfl : after = [] := by
    rw [← List.getLast?_eq_none_iff]
    cases ending : after.getLast? with
    | none => rfl
    | some c =>
      have last := congrArg List.getLast? tails
      simp only [fence_eq, List.getLast?_append, List.getLast?_cons, ending] at last
      simp only [List.getLast?_nil, Option.getD_none, Option.getD_some, Option.some_or,
        Option.some.injEq] at last
      exact absurd (last ▸ List.mem_of_mem_getLast? ending) (not_mem_of_blank blank' solid)
  have bodies : (gap ++ '\n' :: body) ++ close = (gap' ++ '\n' :: body') ++ close' := by
    refine (List.append_left_inj "```".toList).mp ?_
    simpa only [List.append_assoc, List.cons_append, List.append_nil] using tails
  have inner : ∀ {gap body close : List Char}, Blank gap → Blank close →
      stripped ((gap ++ '\n' :: body) ++ close) = stripped body := by
    intro gap body close opened closed
    have before : Blank (gap ++ ['\n']) :=
      List.forall_mem_append.mpr ⟨opened, List.forall_mem_singleton.mpr feed⟩
    rw [stripped_append_right _ closed, ← List.singleton_append, ← List.append_assoc,
      stripped_append_left before]
  rw [← inner opened' closed', ← bodies, inner opened closed]

/-! ## Recovering -/

section Recovering

variable {s : List Char}

theorem IsStatement.ends (is : IsStatement words s) :
    (∀ c ∈ s.head?, isSpace c = false) ∧ ∀ c ∈ s.getLast?, isSpace c = false := by
  have trimmed := is.trimmed
  rw [strip_ofList, String.toList_ofList] at trimmed
  exact ends_of_stripped trimmed

theorem stripped_stripped (l : List Char) : stripped (stripped l) = stripped l := by
  have twice := congrArg String.toList (strip_strip (String.ofList l))
  rwa [strip_ofList, strip_ofList, String.toList_ofList, String.toList_ofList] at twice

/-- An answer ends where its statement or its fence does. -/
theorem last_of_answer (is : IsStatement words s) {answer : List Char} (answers : Answer s answer) :
    answer ≠ [] ∧ ∀ c ∈ answer.getLast?, isSpace c = false := by
  obtain ⟨d, last⟩ := Option.ne_none_iff_exists'.mp
    (mt List.getLast?_eq_none_iff.mp is.nonempty)
  have solid := is.ends.2 d last
  cases answers with
  | plain plain =>
    cases plain with
    | bare => exact ⟨is.nonempty, is.ends.2⟩
    | labelled _ =>
      refine ⟨by simp [is.nonempty], ?_⟩
      rw [List.getLast?_append, last]
      rintro c ⟨⟩
      exact solid
  | fenced tagged opened plain closed =>
    refine ⟨by simp [fence_eq], ?_⟩
    simp only [fence_eq, List.getLast?_append, List.getLast?_cons]
    rintro c ⟨⟩
    exact (by decide : isSpace '`' = false)

/-- Stripping a plain answer only shortens the white space before its label. -/
theorem plain_stripped (is : IsStatement words s) {body : List Char} (plain : Plain s body) :
    Plain s (stripped body) := by
  cases plain with
  | bare =>
    rw [stripped_of_ends is.ends.1 is.ends.2]
    exact .bare
  | labelled label =>
    obtain @⟨pad, name, gap, after, blank, named, between, behind⟩ := label
    have solid : ∀ c ∈ name.head?, isSpace c = false := by
      intro c head
      rcases named with spells | spells
      · exact solid_of_spells spells (by decide) c (List.mem_of_mem_head? head)
      · exact solid_of_spells spells (by decide) c (List.mem_of_mem_head? head)
    have some_ : name ≠ [] := by
      rintro rfl
      rcases named with spells | spells <;> cases spells
    have bare := @IsLabel.intro [] name gap after nofun named between behind
    have ends := last_of_answer is (.plain (.labelled bare))
    rw [List.append_assoc, stripped_append_left blank]
    have same : stripped (name ++ (gap ++ ':' :: after) ++ s) =
        name ++ (gap ++ ':' :: after) ++ s := by
      refine stripped_of_ends ?_ ends.2
      obtain ⟨c, rest, rfl⟩ := List.exists_cons_of_ne_nil some_
      exact solid
    rw [same]
    exact .labelled bare

/-- A bracket does not stand before the statement. -/
theorem not_mem_label {label : List Char} (is : IsLabel label) : '<' ∉ label ∧ '`' ∉ label :=
  ⟨not_mem_of_isLabel is (by decide) (by decide) (by decide),
    not_mem_of_isLabel is (by decide) (by decide) (by decide)⟩

theorem label_ne_nil {label : List Char} (is : IsLabel label) : label ≠ [] := by
  obtain ⟨front, after, rfl, -⟩ := colon_of_isLabel is
  simp

/-- A plain answer begins with no tag and with no fence. -/
theorem begins_plain (is : IsStatement words s) {body : List Char} (plain : Plain s body)
    (trimmed : stripped body = body) :
    ¬BeginsThinkPadded words body ∧
      ∀ pad rest, Blank pad → body ≠ pad ++ ("```".toList ++ rest) := by
  have solid := (ends_of_stripped trimmed).1
  have padless : ∀ {pad rest : List Char}, Blank pad → body = pad ++ rest → pad = [] := by
    intro pad rest blank whole
    cases pad with
    | nil => rfl
    | cons c pad =>
      rw [whole] at solid
      exact absurd (solid c rfl) (by simp [blank c List.mem_cons_self])
  constructor
  · rintro ⟨pad, rest, whole, blank, begins⟩
    obtain rfl := padless blank whole
    rw [List.nil_append] at whole
    subst whole
    cases plain with
    | bare => exact is.thoughtless begins
    | labelled label =>
      obtain ⟨tag, rest, whole, spells, -⟩ := begins
      obtain ⟨letters, rfl⟩ := bracket_of_spells spells
      obtain ⟨c, front, rfl⟩ := List.exists_cons_of_ne_nil (label_ne_nil label)
      rw [List.cons_append, List.cons_append, List.cons.injEq] at whole
      exact (not_mem_label label).1 (whole.1 ▸ List.mem_cons_self)
  · intro pad rest blank whole
    obtain rfl := padless blank whole
    rw [List.nil_append] at whole
    cases plain with
    | bare => exact is.unfenced ⟨rest, whole.symm⟩
    | labelled label =>
      obtain ⟨c, front, rfl⟩ := List.exists_cons_of_ne_nil (label_ne_nil label)
      rw [fence_eq, List.cons_append, List.cons_append, List.cons.injEq] at whole
      exact (not_mem_label label).2 (whole.1 ▸ List.mem_cons_self)

theorem without_begins {ps : List Pattern} {t : List Char} :
    without words (concat (.begins :: ps)) (String.ofList t) = String.ofList
      (match (concat (.begins :: ps)).match? words.isWord (start t) with
        | some r => r.rest
        | none => t) := by
  rw [without, String.toList_ofList, subOnce_begins]
  cases (concat (.begins :: ps)).match? words.isWord (start t) <;> rfl

/-- The last step: a label is taken off, and the statement is left. -/
theorem strip_without_label (is : IsStatement words s) {body : List Char} (plain : Plain s body) :
    strip (without words leadingLabelRe (String.ofList body)) = String.ofList s := by
  have trimmed : stripped s = s := stripped_of_ends is.ends.1 is.ends.2
  rw [leadingLabelRe, without_begins, strip_ofList]
  congr 1
  cases plain with
  | bare =>
    have none_ : leadingLabelRe.match? words.isWord (start s) = none := by
      rw [match?_eq_none_iff]
      intro r found
      obtain ⟨label, labels, whole⟩ := leadingLabelRe_results found
      exact is.unlabelled label r.rest labels whole
    rw [show concat _ = leadingLabelRe from rfl, none_]
    exact trimmed
  | @labelled label labels =>
    obtain ⟨r, found⟩ := exists_leadingLabelRe labels s
    obtain ⟨first, match_⟩ := exists_match? found
    obtain ⟨other, labels', whole⟩ := leadingLabelRe_results (mem_of_match? match_)
    rw [show concat _ = leadingLabelRe from rfl, match_]
    rw [← trimmed]
    exact stripped_of_labels labels' labels whole.symm

/-- A fence is taken off, if there is one, and a plain answer is left. -/
theorem unfenced_answer (is : IsStatement words s) {answer : List Char} (answers : Answer s answer)
    (trimmed : stripped answer = answer) :
    ∃ body, Plain s body ∧ unfenced words (String.ofList answer) = String.ofList body := by
  cases answers with
  | plain plain =>
    refine ⟨answer, plain, ?_⟩
    have none_ : fenceRe.match? words.isWord (start answer) = none := by
      rw [match?_eq_none_iff]
      intro r found
      obtain ⟨pad, tag, gap, body, close, after, whole, blank, -⟩ := fenceRe_results found
      exact (begins_plain is plain trimmed).2 pad _ blank whole
    rw [unfenced, String.toList_ofList, none_]
  | @fenced tag gap body close tagged opened plain closed =>
    refine ⟨stripped body, plain_stripped is plain, ?_⟩
    obtain ⟨r, found⟩ := @exists_fenceRe words tag gap body close tagged opened closed
    obtain ⟨first, match_⟩ := exists_match? found
    obtain ⟨pad, tag', gap', body', close', after, whole, blank, tagged', opened', closed',
      blank', group⟩ := fenceRe_results (mem_of_match? match_)
    rw [unfenced, String.toList_ofList, match_]
    dsimp only
    rw [group, Option.getD_some, strip_ofList, stripped_of_fence tagged opened closed blank
      tagged' opened' closed' blank' whole]

/-- A fenced block begins and ends with its fence. -/
theorem stripped_fenced {inner : List Char} :
    stripped ("```".toList ++ (inner ++ "```".toList)) =
      "```".toList ++ (inner ++ "```".toList) := by
  refine stripped_of_ends ?_ ?_
  · rw [fence_eq]
    rintro c ⟨⟩
    decide
  · simp only [fence_eq, List.getLast?_append, List.getLast?_cons]
    rintro c ⟨⟩
    exact (by decide : isSpace '`' = false)

theorem answer_stripped (is : IsStatement words s) {answer : List Char}
    (answers : Answer s answer) : Answer s (stripped answer) := by
  cases answers with
  | plain plain => exact .plain (plain_stripped is plain)
  | @fenced tag gap body close tagged opened plain closed =>
    have same := @stripped_fenced (tag ++ (gap ++ '\n' :: (body ++ close)))
    simp only [List.append_assoc, List.cons_append] at same
    rw [same]
    exact .fenced tagged opened plain closed

theorem begins_answer (is : IsStatement words s) {answer : List Char} (answers : Answer s answer)
    (trimmed : stripped answer = answer) : ¬BeginsThinkPadded words answer := by
  cases answers with
  | plain plain => exact (begins_plain is plain trimmed).1
  | fenced tagged opened plain closed =>
    rintro ⟨pad, rest, whole, blank, tag, after, rfl, spells, -⟩
    obtain ⟨letters, rfl⟩ := bracket_of_spells spells
    cases pad with
    | nil =>
      simp only [fence_eq, List.cons_append, List.nil_append, List.cons.injEq] at whole
      exact absurd whole.1 (by decide)
    | cons c pad =>
      simp only [fence_eq, List.cons_append, List.cons.injEq] at whole
      exact not_mem_of_blank blank (by decide : isSpace '`' = false)
        (whole.1 ▸ List.mem_cons_self)

theorem not_hasClosing_answer (is : IsStatement words s) {answer : List Char}
    (answers : Answer s answer) : ¬HasClosing answer := by
  have ofPlain : ∀ {body : List Char}, Plain s body → ¬HasClosing body := by
    intro body plain
    cases plain with
    | bare => exact is.unclosed
    | labelled label => exact not_hasClosing_append_left (not_mem_label label).1 is.unclosed
  cases answers with
  | plain plain => exact ofPlain plain
  | @fenced tag gap body close tagged opened plain closed =>
    have inTag : '<' ∉ tag := by
      rcases tagged with rfl | spells | spells | spells
      · exact nofun
      · exact not_mem_of_spells spells (by decide)
      · exact not_mem_of_spells spells (by decide)
      · exact not_mem_of_spells spells (by decide)
    refine not_hasClosing_append_left (by decide) (not_hasClosing_append_left inTag
      (not_hasClosing_append_left (not_mem_of_blank opened (by decide)) ?_))
    rw [← List.singleton_append]
    refine not_hasClosing_append_left (by decide)
      (not_hasClosing_append_right (fun c listed => ?_) (ofPlain plain))
    have letters : ∀ lower ∈ "</think>".toList, isSpace lower = false := by decide
    rcases List.mem_append.mp listed with inClose | inFence
    · intro lower member
      rw [← Bool.not_eq_true]
      intro same
      exact not_mem_of_blank closed (solid_of_ignores (letters lower member) same) inClose
    · rw [fence_eq] at inFence
      simp only [List.mem_cons, List.not_mem_nil, or_false, or_self] at inFence
      rw [inFence]
      decide

/-- The steps after the reasoning block. -/
theorem recovered (is : IsStatement words s) {answer : List Char} (answers : Answer s answer) :
    (if (unclosedThinkRe.match? words.isWord
        (start (String.ofList (stripped answer)).toList)).isSome then ""
      else strip (without words leadingLabelRe
        (unfenced words (String.ofList (stripped answer))))) = String.ofList s := by
  have own := answer_stripped is answers
  have trimmed := stripped_stripped answer
  rw [String.toList_ofList, if_neg (mt unclosedThinkRe_iff.mp (begins_answer is own trimmed))]
  obtain ⟨body, plain, left⟩ := unfenced_answer is own trimmed
  rw [left]
  exact strip_without_label is plain

/-- The reasoning block is taken off with the white space around the answer. -/
theorem strip_without_think (is : IsStatement words s) {text : List Char}
    (reply : Reply words s text) : ∃ answer, Answer s answer ∧
      strip (without words thinkRe (strip (String.ofList text))) =
        String.ofList (stripped answer) := by
  cases reply with
  | @answer pad answer after before answers behind =>
    refine ⟨answer, answers, ?_⟩
    rw [strip_ofList, stripped_append_left before, stripped_append_right _ behind, thinkRe,
      without_begins]
    rw [show concat _ = thinkRe from rfl, thinkRe_match?_eq_none fun begins => absurd begins
      (begins_answer is (answer_stripped is answers) (stripped_stripped answer))]
    rw [strip_ofList, stripped_stripped]
  | @reasoned pad tag contents closing gap answer after before opens apart closes between answers
      behind =>
    refine ⟨answer, answers, ?_⟩
    have ends := last_of_answer is answers
    have same : stripped (tag ++ (contents ++ (closing ++ (gap ++ answer)))) =
        tag ++ (contents ++ (closing ++ (gap ++ answer))) := by
      refine stripped_of_ends ?_ ?_
      · obtain ⟨letters, rfl⟩ := bracket_of_spells opens
        rintro c ⟨⟩
        decide
      · obtain ⟨d, last⟩ := Option.ne_none_iff_exists'.mp (mt List.getLast?_eq_none_iff.mp ends.1)
        simp only [List.getLast?_append, last, Option.some_or]
        exact fun c own => ends.2 c (last ▸ own)
    have shape : tag ++ (contents ++ (closing ++ (gap ++ (answer ++ after)))) =
        (tag ++ (contents ++ (closing ++ (gap ++ answer)))) ++ after := by
      simp only [List.append_assoc]
    rw [strip_ofList, stripped_append_left before, shape, stripped_append_right _ behind, same,
      thinkRe, without_begins]
    have unclosed : ¬HasClosing (gap ++ answer) := not_hasClosing_append_left
      (not_mem_of_blank between (by decide)) (not_hasClosing_answer is answers)
    obtain ⟨r, match_, rest⟩ := thinkRe_match? opens apart closes unclosed
    rw [show concat _ = thinkRe from rfl, match_]
    dsimp only
    rw [rest, strip_ofList, stripped_append_left between]

/-- What is left of an unclosed block by stripping is one too. -/
theorem begins_stripped {text : List Char} (begins : BeginsThink words text) :
    ∃ after, text = stripped text ++ after ∧ BeginsThink words (stripped text) := by
  obtain ⟨tag, rest, rfl, spells, apart⟩ := begins
  have front : (tag ++ rest).dropWhile isSpace = tag ++ rest := by
    obtain ⟨letters, rfl⟩ := bracket_of_spells spells
    rw [List.cons_append, List.dropWhile_cons, if_neg (by decide)]
  have ending : (tag ++ rest).rdropWhile isSpace ++ (tag ++ rest).rtakeWhile isSpace =
      tag ++ rest := List.rdropWhile_append_rtakeWhile
  have blank : Blank ((tag ++ rest).rtakeWhile isSpace) := fun c listed =>
    List.mem_rtakeWhile_imp listed
  rw [stripped, front]
  refine ⟨_, ending.symm, ?_⟩
  rcases List.append_eq_append_iff.mp ending with ⟨middle, same, whole⟩ | ⟨middle, same, whole⟩
  · have nothing : middle = [] := by
      rw [List.eq_nil_iff_forall_not_mem]
      intro c listed
      refine not_mem_of_blank blank ?_ (whole ▸ List.mem_append_left _ listed)
      exact solid_of_spells spells (by decide) c (same ▸ List.mem_append_right _ listed)
    rw [nothing, List.append_nil] at same
    exact ⟨tag, [], by rw [List.append_nil, ← same], spells, nofun⟩
  · refine ⟨tag, middle, same, spells, fun c head => apart c ?_⟩
    rw [whole, List.head?_append, head]
    rfl

end Recovering

/-- Every statement is recovered from every reply that holds it, and nothing from a
block that is not closed. -/
theorem recovers (words : Words) : Recovers words := by
  constructor
  · intro s text is reply
    obtain ⟨answer, answers, cleaned⟩ := strip_without_think is reply
    rw [stripFormatting, cleaned]
    exact recovered is answers
  · intro pad text blank begins unclosed
    obtain ⟨after, whole, begins⟩ := begins_stripped begins
    have open_ : ¬HasClosing (stripped text) := by
      rintro ⟨before, tag, behind, split, spells⟩
      refine unclosed ⟨before, tag, behind ++ after, ?_, spells⟩
      rw [whole, split]
      simp only [List.append_assoc]
    have left : strip (without words thinkRe (strip (String.ofList (pad ++ text)))) =
        String.ofList (stripped text) := by
      rw [strip_ofList, stripped_append_left blank, thinkRe, without_begins]
      rw [show concat _ = thinkRe from rfl, thinkRe_match?_eq_none fun _ => open_]
      rw [strip_ofList, stripped_stripped]
    rw [stripFormatting, left, String.toList_ofList]
    exact if_pos (unclosedThinkRe_iff.mpr ⟨[], _, rfl, nofun, begins⟩)

private theorem isStatement_select : IsStatement plainWords "SELECT 1".toList := by
  refine ⟨by decide, by decide +kernel, by decide, fun label rest is whole => ?_, ?_, ?_⟩
  · obtain ⟨front, after, rfl, -⟩ := colon_of_isLabel is
    have colon : ':' ∈ "SELECT 1".toList := by rw [whole]; simp
    exact absurd colon (by decide)
  · rintro ⟨tag, rest, whole, spells, -⟩
    obtain ⟨letters, rfl⟩ := bracket_of_spells spells
    have bracket : '<' ∈ "SELECT 1".toList := by rw [whole]; simp
    exact absurd bracket (by decide)
  · rintro ⟨before, tag, after, whole, spells⟩
    obtain ⟨letters, rfl, -⟩ := closing_of_spells spells
    have bracket : '<' ∈ "SELECT 1".toList := by rw [whole]; simp
    exact absurd bracket (by decide)

/-- A labelled statement in a block, after reasoning that talks of tags and fences. -/
theorem recovers_select : IsStatement plainWords "SELECT 1".toList ∧
    stripFormatting plainWords "<think>`</think>` and ```</think>\n```sql\nSQL: SELECT 1\n```" =
      "SELECT 1" := by
  have label : IsLabel ([] ++ ("SQL".toList ++ ([] ++ ':' :: " ".toList))) :=
    .intro (by decide) (.inl (by decide)) (by decide) (by decide)
  have block := @Answer.fenced "SELECT 1".toList "sql".toList [] _ "\n".toList
    (.inr (.inl (by decide))) (by decide) (.labelled label) (by decide)
  have reply := @Reply.reasoned plainWords "SELECT 1".toList [] "<think".toList
    ">`</think>` and ```".toList "</think>".toList "\n".toList _ [] (by decide) (by decide)
      (by decide) (by decide) (by decide) block (by decide)
  have recovered := (recovers plainWords).statement _ _ isStatement_select reply
  refine ⟨isStatement_select, Eq.trans (congrArg (stripFormatting plainWords) ?_)
    (recovered.trans ?_)⟩
  · decide +kernel
  · decide +kernel

end Formatting
