import Mathlib.Data.List.Basic
import Mathlib.Data.List.Forall2

/-!
# Backtracking patterns

A pattern has at each place of a text the list of the ways it can match there, in
the order a backtracking matcher tries them; its match is the first. A repetition
is of one set of characters, greedy or lazy.
-/

namespace Regex

/-- Where a matcher stands: the character before, the text after, and the groups
it has taken. -/
structure Cursor where
  last : Option Char
  rest : List Char
  groups : List (String × List Char)
  deriving DecidableEq, Repr

/-- Past a piece of the text. -/
def Cursor.skip (cursor : Cursor) (taken rest : List Char) : Cursor :=
  { cursor with last := taken.getLast?.or cursor.last, rest := rest }

/-- At the beginning of a text. -/
def start (text : List Char) : Cursor := ⟨none, text, []⟩

/-- The text of a group, if it was taken. -/
def Cursor.group? (cursor : Cursor) (name : String) : Option (List Char) :=
  (cursor.groups.find? fun group => group.1 = name).map Prod.snd

inductive Pattern
  /-- One character of each set, in turn. -/
  | chars (sets : List (Char → Bool))
  /-- As many characters of a set as it takes. -/
  | many (greedy : Bool) (set : Char → Bool)
  | seq (first second : Pattern)
  | alt (first second : Pattern)
  | group (name : String) (inner : Pattern)
  /-- The beginning of the text. -/
  | begins
  /-- The end of the text, or the line feed it ends with. -/
  | ends
  /-- A word begins or ends here. -/
  | boundary

/-- One pattern after another. -/
def concat : List Pattern → Pattern
  | [] => .chars []
  | first :: rest => .seq first (concat rest)

/-- The beginning of a text in these sets, and what comes after. -/
def takes : List (Char → Bool) → List Char → Option (List Char × List Char)
  | [], text => some ([], text)
  | _ :: _, [] => none
  | set :: sets, c :: text =>
    if set c then (takes sets text).map fun cut => (c :: cut.1, cut.2) else none

/-- The cuts after a run in a set, the shortest run first. -/
def runs (set : Char → Bool) : List Char → List (List Char × List Char)
  | [] => [([], [])]
  | c :: text =>
    ([], c :: text) :: if set c then (runs set text).map fun cut => (c :: cut.1, cut.2) else []

section Matching

variable (word : Char → Bool)

def Cursor.isBoundary (cursor : Cursor) : Bool :=
  (cursor.last.any word) != (cursor.rest.head?.any word)

/-- Every match at a place, in the order of trying. -/
def Pattern.results : Pattern → Cursor → List Cursor
  | .chars sets, s => ((takes sets s.rest).map fun cut => s.skip cut.1 cut.2).toList
  | .many greedy set, s =>
    let cuts := (runs set s.rest).map fun cut => s.skip cut.1 cut.2
    if greedy then cuts.reverse else cuts
  | .seq first second, s => (first.results s).flatMap second.results
  | .alt first second, s => first.results s ++ second.results s
  | .group name inner, s => (inner.results s).map fun r =>
      { r with groups := r.groups ++ [(name, s.rest.take (s.rest.length - r.rest.length))] }
  | .begins, s => if s.last.isNone then [s] else []
  | .ends, s => if s.rest = [] ∨ s.rest = ['\n'] then [s] else []
  | .boundary, s => if s.isBoundary word then [s] else []

def Pattern.match? (p : Pattern) (s : Cursor) : Option Cursor := (p.results word s).head?

/-- Every match replaced, from left to right, the first so many characters left out. -/
def Pattern.sub (p : Pattern) (replace : Cursor → List Char) :
    Option Char → Nat → List Char → List Char
  | last, _, [] =>
    match p.match? word ⟨last, [], []⟩ with
    | some r => replace r
    | none => []
  | _, skipped + 1, c :: text => p.sub replace (some c) skipped text
  | last, 0, c :: text =>
    match p.match? word ⟨last, c :: text, []⟩ with
    | some r =>
      match (c :: text).length - r.rest.length with
      | 0 => replace r ++ c :: p.sub replace (some c) 0 text
      | taken + 1 => replace r ++ p.sub replace (some c) taken text
    | none => c :: p.sub replace (some c) 0 text

/-- The first match replaced. -/
def Pattern.subOnce (p : Pattern) (replace : Cursor → List Char) (last : Option Char)
    (text : List Char) : List Char :=
  match p.match? word ⟨last, text, []⟩ with
  | some r => replace r ++ r.rest
  | none =>
    match text with
    | [] => []
    | c :: text => c :: p.subOnce replace (some c) text

end Matching

variable {word : Char → Bool}

/-! ## Cuts -/

theorem takes_iff {sets : List (Char → Bool)} {text taken rest : List Char} :
    takes sets text = some (taken, rest) ↔
      text = taken ++ rest ∧ List.Forall₂ (fun set c => set c = true) sets taken := by
  induction sets generalizing text taken with
  | nil =>
    rw [takes, Option.some.injEq, Prod.mk.injEq]
    constructor
    · rintro ⟨rfl, rfl⟩
      exact ⟨rfl, .nil⟩
    · rintro ⟨rfl, same⟩
      cases same
      exact ⟨rfl, rfl⟩
  | cons set sets ih =>
    cases text with
    | nil =>
      refine ⟨nofun, fun found => ?_⟩
      obtain ⟨whole, same⟩ := found
      cases same
      cases whole
    | cons c text =>
      rw [takes]
      constructor
      · intro found
        split at found
        · rename_i inside
          obtain ⟨⟨later, after⟩, cut, same⟩ := Option.map_eq_some_iff.mp found
          obtain ⟨rfl, rfl⟩ := Prod.mk.inj same
          obtain ⟨rfl, each⟩ := ih.mp cut
          exact ⟨rfl, .cons inside each⟩
        · cases found
      · rintro ⟨whole, same⟩
        obtain ⟨d, later, inside, each, rfl⟩ := List.forall₂_cons_left_iff.mp same
        rw [List.cons_append] at whole
        obtain ⟨rfl, rfl⟩ := List.cons.inj whole
        rw [if_pos inside, (@ih (later ++ rest) later).mpr ⟨rfl, each⟩]
        rfl

theorem mem_runs_iff {set : Char → Bool} {text taken rest : List Char} :
    (taken, rest) ∈ runs set text ↔ text = taken ++ rest ∧ ∀ c ∈ taken, set c = true := by
  induction text generalizing taken with
  | nil =>
    rw [runs, List.mem_singleton, Prod.mk.injEq]
    constructor
    · rintro ⟨rfl, rfl⟩
      exact ⟨rfl, nofun⟩
    · rintro ⟨whole, -⟩
      exact List.append_eq_nil_iff.mp whole.symm
  | cons c text ih =>
    rw [runs, List.mem_cons, Prod.mk.injEq]
    constructor
    · rintro (⟨rfl, rfl⟩ | later)
      · exact ⟨rfl, nofun⟩
      · split at later
        · rename_i inside
          obtain ⟨⟨run, after⟩, cut, same⟩ := List.mem_map.mp later
          obtain ⟨rfl, rfl⟩ := Prod.mk.inj same
          obtain ⟨rfl, each⟩ := ih.mp cut
          exact ⟨rfl, List.forall_mem_cons.mpr ⟨inside, each⟩⟩
        · cases later
    · rintro ⟨whole, each⟩
      cases taken with
      | nil => exact Or.inl ⟨rfl, whole.symm⟩
      | cons d run =>
        obtain ⟨rfl, rfl⟩ := List.cons.inj whole
        obtain ⟨inside, each⟩ := List.forall_mem_cons.mp each
        rw [if_pos inside]
        exact Or.inr (List.mem_map.mpr ⟨(run, rest), ih.mpr ⟨rfl, each⟩, rfl⟩)

/-- A run that is followed by a character outside its set can be cut off in one way. -/
theorem cut_unique {p : Char → Prop} {one other x y : List Char} {a b : Char}
    (inside : ∀ c ∈ one, p c) (inside' : ∀ c ∈ other, p c) (stop : ¬p a) (stop' : ¬p b)
    (same : one ++ a :: x = other ++ b :: y) : one = other ∧ a = b ∧ x = y := by
  induction one generalizing other with
  | nil =>
    cases other with
    | nil =>
      obtain ⟨rfl, rfl⟩ := List.cons.inj same
      exact ⟨rfl, rfl, rfl⟩
    | cons c other =>
      obtain ⟨rfl, -⟩ := List.cons.inj same
      exact absurd (inside' a List.mem_cons_self) stop
  | cons c one ih =>
    cases other with
    | nil =>
      obtain ⟨rfl, -⟩ := List.cons.inj same
      exact absurd (inside c List.mem_cons_self) stop'
    | cons d other =>
      rw [List.cons_append, List.cons_append, List.cons.injEq] at same
      obtain ⟨rfl, same⟩ := same
      obtain ⟨rfl, rest⟩ := ih (fun c listed => inside c (List.mem_cons_of_mem _ listed))
        (fun c listed => inside' c (List.mem_cons_of_mem _ listed)) same
      exact ⟨rfl, rest⟩

/-- A character stands in the first of two pieces, or behind it. -/
theorem cut_cases {one x rest y : List Char} {a : Char} (same : one ++ a :: rest = x ++ y) :
    (∃ more, x = one ++ a :: more ∧ rest = more ++ y) ∨ ∃ more, one = x ++ more ∧
      y = more ++ a :: rest := by
  rcases List.append_eq_append_iff.mp same with ⟨middle, rfl, tail⟩ | ⟨middle, rfl, rfl⟩
  · cases middle with
    | nil => exact Or.inr ⟨[], by simp, tail.symm⟩
    | cons c middle =>
      rw [List.cons_append, List.cons.injEq] at tail
      obtain ⟨rfl, rfl⟩ := tail
      exact Or.inl ⟨middle, rfl, rfl⟩
  · exact Or.inr ⟨middle, rfl, rfl⟩

/-- The longest run comes last. -/
theorem getLast?_runs (set : Char → Bool) (text : List Char) :
    (runs set text).getLast? = some (text.takeWhile set, text.dropWhile set) := by
  induction text with
  | nil => rfl
  | cons c text ih =>
    rw [runs, List.getLast?_cons, List.takeWhile_cons, List.dropWhile_cons]
    split
    · rw [List.getLast?_map, ih]
      rfl
    · rfl

/-! ## Results -/

@[simp] theorem skip_nil (s : Cursor) : s.skip [] s.rest = s := rfl

@[simp] theorem skip_rest (s : Cursor) (taken rest : List Char) : (s.skip taken rest).rest = rest :=
  rfl

@[simp] theorem skip_groups (s : Cursor) (taken rest : List Char) :
    (s.skip taken rest).groups = s.groups := rfl

@[simp] theorem skip_skip (s : Cursor) (one other rest after : List Char) :
    (s.skip one rest).skip other after = s.skip (one ++ other) after := by
  simp only [Cursor.skip, List.getLast?_append, Option.or_assoc]

theorem results_chars {sets : List (Char → Bool)} {s : Cursor} :
    (Pattern.chars sets).results word s =
      ((takes sets s.rest).map fun cut => s.skip cut.1 cut.2).toList := rfl

theorem results_many {greedy : Bool} {set : Char → Bool} {s : Cursor} :
    (Pattern.many greedy set).results word s =
      if greedy then ((runs set s.rest).map fun cut => s.skip cut.1 cut.2).reverse
      else (runs set s.rest).map fun cut => s.skip cut.1 cut.2 := rfl

theorem results_seq {first second : Pattern} {s : Cursor} :
    (Pattern.seq first second).results word s =
      (first.results word s).flatMap (second.results word) := rfl

theorem results_alt {first second : Pattern} {s : Cursor} :
    (Pattern.alt first second).results word s = first.results word s ++ second.results word s := rfl

theorem results_group {name : String} {inner : Pattern} {s : Cursor} :
    (Pattern.group name inner).results word s = (inner.results word s).map fun r =>
      { r with groups := r.groups ++ [(name, s.rest.take (s.rest.length - r.rest.length))] } := rfl

theorem results_begins {s : Cursor} :
    Pattern.begins.results word s = if s.last.isNone then [s] else [] := rfl

theorem results_ends {s : Cursor} :
    Pattern.ends.results word s = if s.rest = [] ∨ s.rest = ['\n'] then [s] else [] := rfl

theorem results_boundary {s : Cursor} :
    Pattern.boundary.results word s = if s.isBoundary word then [s] else [] := rfl

@[simp] theorem mem_results_chars {sets : List (Char → Bool)} {s r : Cursor} :
    r ∈ (Pattern.chars sets).results word s ↔
      ∃ taken rest, s.rest = taken ++ rest ∧
        List.Forall₂ (fun set c => set c = true) sets taken ∧ r = s.skip taken rest := by
  simp only [results_chars, Option.mem_toList, Option.map_eq_some_iff, Prod.exists, takes_iff,
    and_assoc, eq_comm (a := r)]

@[simp] theorem mem_results_many {greedy : Bool} {set : Char → Bool} {s r : Cursor} :
    r ∈ (Pattern.many greedy set).results word s ↔
      ∃ taken rest, s.rest = taken ++ rest ∧ (∀ c ∈ taken, set c = true) ∧
        r = s.skip taken rest := by
  have cuts : r ∈ (Pattern.many greedy set).results word s ↔
      r ∈ (runs set s.rest).map fun cut => s.skip cut.1 cut.2 := by
    rw [results_many]
    split
    · exact List.mem_reverse
    · rfl
  simp only [cuts, List.mem_map, Prod.exists, mem_runs_iff, and_assoc, eq_comm (a := r)]

@[simp] theorem mem_results_seq {first second : Pattern} {s r : Cursor} :
    r ∈ (Pattern.seq first second).results word s ↔
      ∃ m ∈ first.results word s, r ∈ second.results word m := by
  rw [results_seq, List.mem_flatMap]

@[simp] theorem mem_results_alt {first second : Pattern} {s r : Cursor} :
    r ∈ (Pattern.alt first second).results word s ↔
      r ∈ first.results word s ∨ r ∈ second.results word s := by
  rw [results_alt, List.mem_append]

@[simp] theorem mem_results_begins {s r : Cursor} :
    r ∈ Pattern.begins.results word s ↔ s.last = none ∧ r = s := by
  rw [results_begins]
  split
  · rename_i first
    simp [Option.isNone_iff_eq_none.mp first]
  · rename_i later
    simp [Option.isNone_iff_eq_none] at later
    simp [later]

@[simp] theorem mem_results_ends {s r : Cursor} :
    r ∈ Pattern.ends.results word s ↔ (s.rest = [] ∨ s.rest = ['\n']) ∧ r = s := by
  rw [results_ends]
  split <;> simp_all

@[simp] theorem mem_results_boundary {s r : Cursor} :
    r ∈ Pattern.boundary.results word s ↔ s.isBoundary word = true ∧ r = s := by
  rw [results_boundary]
  split <;> simp_all

@[simp] theorem mem_results_group {name : String} {inner : Pattern} {s r : Cursor} :
    r ∈ (Pattern.group name inner).results word s ↔ ∃ m ∈ inner.results word s,
      r = { m with groups := m.groups ++
        [(name, s.rest.take (s.rest.length - m.rest.length))] } := by
  simp only [results_group, List.mem_map, eq_comm (a := r)]

/-- The text of a group is what its pattern took. -/
theorem take_of_append {text taken rest : List Char} (whole : text = taken ++ rest) :
    text.take (text.length - rest.length) = taken := by
  rw [whole, List.length_append, Nat.add_sub_cancel, List.take_left]

@[simp] theorem mem_results_concat_nil {s r : Cursor} :
    r ∈ (concat []).results word s ↔ r = s := by
  rw [concat, mem_results_chars]
  constructor
  · rintro ⟨taken, rest, whole, none_, rfl⟩
    cases none_
    rw [← List.nil_append rest, ← whole, skip_nil]
  · rintro rfl
    exact ⟨[], r.rest, rfl, .nil, rfl⟩

@[simp] theorem mem_results_concat_cons {p : Pattern} {ps : List Pattern} {s r : Cursor} :
    r ∈ (concat (p :: ps)).results word s ↔
      ∃ m ∈ p.results word s, r ∈ (concat ps).results word m :=
  mem_results_seq

theorem exists_concat_cons {p : Pattern} {ps : List Pattern} {s m : Cursor}
    (first : m ∈ p.results word s) (rest : ∃ r, r ∈ (concat ps).results word m) :
    ∃ r, r ∈ (concat (p :: ps)).results word s := by
  obtain ⟨r, found⟩ := rest
  exact ⟨r, mem_results_concat_cons.mpr ⟨m, first, found⟩⟩

theorem mem_results_concat_append {ps qs : List Pattern} {s r : Cursor} :
    r ∈ (concat (ps ++ qs)).results word s ↔
      ∃ m ∈ (concat ps).results word s, r ∈ (concat qs).results word m := by
  induction ps generalizing s with
  | nil => simp only [List.nil_append, mem_results_concat_nil, exists_eq_left]
  | cons p ps ih =>
    simp only [List.cons_append, mem_results_concat_cons, ih]
    constructor
    · rintro ⟨one, first, other, second, third⟩
      exact ⟨other, ⟨one, first, second⟩, third⟩
    · rintro ⟨other, ⟨one, first, second⟩, third⟩
      exact ⟨one, first, other, second, third⟩

/-- One character of a set or more. -/
theorem mem_results_plus {greedy : Bool} {set : Char → Bool} {s r : Cursor} :
    r ∈ (concat [.chars [set], .many greedy set]).results word s ↔
      ∃ taken rest, s.rest = taken ++ rest ∧ taken ≠ [] ∧ (∀ c ∈ taken, set c = true) ∧
        r = s.skip taken rest := by
  constructor
  · intro found
    obtain ⟨m, first, found⟩ := mem_results_concat_cons.mp found
    obtain ⟨one, rest, whole, each, rfl⟩ := mem_results_chars.mp first
    obtain ⟨c, none_, inside, nothing, rfl⟩ := List.forall₂_cons_left_iff.mp each
    obtain rfl := List.forall₂_nil_left_iff.mp nothing
    obtain ⟨m, many, found⟩ := mem_results_concat_cons.mp found
    obtain ⟨run, after, split, inside', rfl⟩ := mem_results_many.mp many
    obtain rfl := mem_results_concat_nil.mp found
    rw [skip_rest] at split
    refine ⟨c :: run, after, ?_, List.cons_ne_nil _ _,
      List.forall_mem_cons.mpr ⟨inside, inside'⟩, ?_⟩
    · rw [whole, split]
      rfl
    · rw [skip_skip]
      rfl
  · rintro ⟨taken, rest, whole, some_, each, rfl⟩
    obtain ⟨c, run, rfl⟩ := List.exists_cons_of_ne_nil some_
    obtain ⟨inside, inside'⟩ := List.forall_mem_cons.mp each
    refine mem_results_concat_cons.mpr ⟨s.skip [c] (run ++ rest), mem_results_chars.mpr
      ⟨[c], _, whole, .cons inside .nil, rfl⟩, mem_results_concat_cons.mpr ⟨_,
        mem_results_many.mpr ⟨run, rest, rfl, inside', rfl⟩, mem_results_concat_nil.mpr ?_⟩⟩
    rw [skip_skip]
    rfl

/-- A match goes forward over a piece of the text. -/
theorem forward_of_mem_results {p : Pattern} {s r : Cursor} (found : r ∈ p.results word s) :
    ∃ taken, s.rest = taken ++ r.rest ∧ r.last = taken.getLast?.or s.last := by
  induction p generalizing s r with
  | chars sets =>
    obtain ⟨taken, rest, whole, -, rfl⟩ := mem_results_chars.mp found
    exact ⟨taken, whole, rfl⟩
  | many greedy set =>
    obtain ⟨taken, rest, whole, -, rfl⟩ := mem_results_many.mp found
    exact ⟨taken, whole, rfl⟩
  | seq first second ih ih' =>
    obtain ⟨m, one, other⟩ := mem_results_seq.mp found
    obtain ⟨taken, whole, last⟩ := ih one
    obtain ⟨later, whole', last'⟩ := ih' other
    refine ⟨taken ++ later, by rw [whole, whole', List.append_assoc], ?_⟩
    rw [last', last, List.getLast?_append, Option.or_assoc]
  | alt first second ih ih' =>
    rcases mem_results_alt.mp found with one | other
    · exact ih one
    · exact ih' other
  | group name inner ih =>
    obtain ⟨m, one, rfl⟩ := mem_results_group.mp found
    obtain ⟨taken, whole, last⟩ := ih one
    exact ⟨taken, whole, last⟩
  | begins =>
    obtain ⟨-, rfl⟩ := mem_results_begins.mp found
    exact ⟨[], rfl, rfl⟩
  | ends =>
    obtain ⟨-, rfl⟩ := mem_results_ends.mp found
    exact ⟨[], rfl, rfl⟩
  | boundary =>
    obtain ⟨-, rfl⟩ := mem_results_boundary.mp found
    exact ⟨[], rfl, rfl⟩

/-- Only whether the characters of a text are of a word matters. -/
theorem results_congr {word' : Char → Bool} {p : Pattern} {s : Cursor}
    (last : ∀ c ∈ s.last, word c = word' c) (rest : ∀ c ∈ s.rest, word c = word' c) :
    p.results word s = p.results word' s := by
  induction p generalizing s with
  | chars sets => rfl
  | many greedy set => rfl
  | begins => rfl
  | ends => rfl
  | alt first second ih ih' => rw [results_alt, results_alt, ih last rest, ih' last rest]
  | group name inner ih => rw [results_group, results_group, ih last rest]
  | boundary =>
    have same : s.isBoundary word = s.isBoundary word' := by
      have one : s.last.any word = s.last.any word' := by
        cases same : s.last with
        | none => rfl
        | some c => exact last c same
      have other : s.rest.head?.any word = s.rest.head?.any word' := by
        cases same : s.rest with
        | nil => rfl
        | cons c text => exact rest c (same ▸ List.mem_cons_self)
      rw [Cursor.isBoundary, Cursor.isBoundary, one, other]
    rw [results_boundary, results_boundary, same]
  | seq first second ih ih' =>
    rw [results_seq, results_seq, ih last rest]
    refine List.flatMap_congr fun m found => ?_
    obtain ⟨taken, whole, behind⟩ := forward_of_mem_results found
    refine ih' (fun c own => ?_) (fun c listed => ?_)
    · rw [behind] at own
      cases ending : taken.getLast? with
      | none =>
        rw [ending, Option.none_or] at own
        exact last c own
      | some d =>
        rw [ending] at own
        obtain rfl := Option.some.inj own
        exact rest d (whole ▸ List.mem_append_left _ (List.mem_of_getLast? ending))
    · exact rest c (whole ▸ List.mem_append_right _ listed)

/-- A group is what its pattern takes. -/
theorem mem_results_group_iff {name : String} {inner : Pattern} {s r : Cursor} :
    r ∈ (Pattern.group name inner).results word s ↔ ∃ m ∈ inner.results word s,
      ∃ taken, s.rest = taken ++ m.rest ∧
        r = { m with groups := m.groups ++ [(name, taken)] } := by
  rw [mem_results_group]
  refine exists_congr fun m => and_congr_right fun found => ?_
  obtain ⟨taken, whole, -⟩ := forward_of_mem_results found
  rw [take_of_append whole]
  constructor
  · rintro rfl
    exact ⟨taken, whole, rfl⟩
  · rintro ⟨other, whole', rfl⟩
    rw [List.append_cancel_right (whole.symm.trans whole')]

/-! ## The first match -/

theorem mem_of_match? {p : Pattern} {s r : Cursor} (found : p.match? word s = some r) :
    r ∈ p.results word s :=
  List.mem_of_mem_head? found

theorem match?_eq_none_iff {p : Pattern} {s : Cursor} :
    p.match? word s = none ↔ ∀ r, r ∉ p.results word s := by
  rw [Pattern.match?, List.head?_eq_none_iff, List.eq_nil_iff_forall_not_mem]

theorem exists_match? {p : Pattern} {s r : Cursor} (found : r ∈ p.results word s) :
    ∃ first, p.match? word s = some first := by
  rw [← Option.ne_none_iff_exists', ne_eq, match?_eq_none_iff]
  exact fun none_ => none_ r found

/-- A match without another one is the first. -/
theorem match?_of_unique {p : Pattern} {s r : Cursor} (found : r ∈ p.results word s)
    (unique : ∀ other ∈ p.results word s, other = r) : p.match? word s = some r := by
  obtain ⟨first, match_⟩ := exists_match? found
  rw [match_, unique first (mem_of_match? match_)]

theorem match?_seq {first second : Pattern} {s : Cursor} :
    (Pattern.seq first second).match? word s =
      (first.results word s).findSome? (second.match? word) := by
  rw [Pattern.match?, results_seq, List.head?_flatMap]
  rfl

/-- Where the first part can only go on in one way, the match goes on there. -/
theorem match?_seq_of_unique {first second : Pattern} {s m : Cursor}
    (found : m ∈ first.results word s)
    (unique : ∀ other ∈ first.results word s, second.match? word other ≠ none → other = m) :
    (Pattern.seq first second).match? word s = second.match? word m := by
  rw [match?_seq]
  generalize first.results word s = results at found unique
  induction results with
  | nil => cases found
  | cons head tail ih =>
    rw [List.findSome?_cons]
    cases ahead : second.match? word head with
    | some r =>
      have same := unique head List.mem_cons_self (by rw [ahead]; exact nofun)
      rw [← same, ahead]
    | none =>
      rcases List.mem_cons.mp found with rfl | later
      · rw [ahead]
        cases rest : tail.findSome? (second.match? word) with
        | none => rfl
        | some r =>
          obtain ⟨other, listed, there⟩ := List.exists_of_findSome?_eq_some rest
          have same := unique other (List.mem_cons_of_mem _ listed) (by rw [there]; exact nofun)
          rw [same, ahead] at there
          cases there
      · exact ih later fun other listed => unique other (List.mem_cons_of_mem _ listed)

theorem match?_chars_seq {sets : List (Char → Bool)} {second : Pattern} {s : Cursor}
    {taken rest : List Char} (whole : s.rest = taken ++ rest)
    (inside : List.Forall₂ (fun set c => set c = true) sets taken) :
    (Pattern.seq (.chars sets) second).match? word s = second.match? word (s.skip taken rest) := by
  rw [match?_seq, results_chars, takes_iff.mpr ⟨whole, inside⟩, Option.map_some,
    Option.toList_some, List.findSome?_cons]
  cases second.match? word (s.skip taken rest) <;> rfl

theorem match?_concat_nil {s : Cursor} : (concat []).match? word s = some s :=
  match?_of_unique (mem_results_concat_nil.mpr rfl) fun _ found => mem_results_concat_nil.mp found

theorem match?_begins_seq {second : Pattern} {s : Cursor} (first : s.last = none) :
    (Pattern.seq .begins second).match? word s = second.match? word s :=
  match?_seq_of_unique (mem_results_begins.mpr ⟨first, rfl⟩)
    fun _ found _ => (mem_results_begins.mp found).2

theorem match?_boundary_seq {second : Pattern} {s : Cursor} (here : s.isBoundary word = true) :
    (Pattern.seq .boundary second).match? word s = second.match? word s :=
  match?_seq_of_unique (mem_results_boundary.mpr ⟨here, rfl⟩)
    fun _ found _ => (mem_results_boundary.mp found).2

/-- A repetition whose set does not have the next character takes nothing. -/
theorem match?_many_seq_of_head {greedy : Bool} {set : Char → Bool} {second : Pattern}
    {s : Cursor} (stop : ∀ c ∈ s.rest.head?, set c = false) :
    (Pattern.seq (.many greedy set) second).match? word s = second.match? word s := by
  refine match?_seq_of_unique (mem_results_many.mpr ⟨[], s.rest, rfl, nofun, rfl⟩)
    fun other found _ => ?_
  obtain ⟨taken, rest, whole, inside, rfl⟩ := mem_results_many.mp found
  cases taken with
  | nil =>
    rw [← List.nil_append rest, ← whole, skip_nil]
  | cons c taken =>
    rw [whole] at stop
    have outside := stop c rfl
    rw [inside c List.mem_cons_self] at outside
    cases outside

/-- A repetition ends where its set does, if what follows it never begins in the set. -/
theorem match?_many_seq_of_stop {greedy : Bool} {set : Char → Bool} {second : Pattern}
    {s : Cursor} {taken rest : List Char} {c : Char} (whole : s.rest = taken ++ c :: rest)
    (inside : ∀ d ∈ taken, set d = true) (stop : set c = false)
    (apart : ∀ m : Cursor, ∀ d ∈ m.rest.head?, set d = true → second.match? word m = none) :
    (Pattern.seq (.many greedy set) second).match? word s =
      second.match? word (s.skip taken (c :: rest)) := by
  refine match?_seq_of_unique (mem_results_many.mpr ⟨taken, _, whole, inside, rfl⟩)
    fun other found goes => ?_
  obtain ⟨run, after, split, inside', rfl⟩ := mem_results_many.mp found
  cases after with
  | nil =>
    have listed : c ∈ run := by
      rw [List.append_nil] at split
      rw [← split, whole]
      simp
    rw [inside' c listed] at stop
    cases stop
  | cons d after =>
    by_cases within : set d = true
    · exact absurd (apart _ d rfl within) goes
    · obtain ⟨rfl, rfl, rfl⟩ := cut_unique (p := fun c => set c = true) inside inside'
        (by simp [stop]) within (whole.symm.trans split)
      rfl

/-- What begins with a set fails before a character outside it. -/
theorem match?_chars_seq_eq_none {set : Char → Bool} {sets : List (Char → Bool)}
    {second : Pattern} {s : Cursor} (outside : ∀ c ∈ s.rest.head?, set c = false) :
    (Pattern.seq (.chars (set :: sets)) second).match? word s = none := by
  rw [match?_eq_none_iff]
  intro r found
  obtain ⟨m, first, -⟩ := mem_results_seq.mp found
  obtain ⟨taken, rest, whole, each, -⟩ := mem_results_chars.mp first
  obtain ⟨c, later, inside, -, rfl⟩ := List.forall₂_cons_left_iff.mp each
  rw [whole] at outside
  rw [outside c rfl] at inside
  cases inside

theorem results_concat_singleton {p : Pattern} {s : Cursor} :
    (concat [p]).results word s = p.results word s := by
  have each : (concat []).results word = fun m => [m] := by
    funext m
    rw [concat, results_chars, takes]
    rfl
  rw [concat, results_seq, each, List.flatMap_singleton']

theorem match?_concat_singleton {p : Pattern} {s : Cursor} :
    (concat [p]).match? word s = p.match? word s := by
  rw [Pattern.match?, results_concat_singleton, Pattern.match?]

theorem match?_group {name : String} {inner : Pattern} {s : Cursor} :
    (Pattern.group name inner).match? word s = (inner.match? word s).map fun r =>
      { r with groups := r.groups ++ [(name, s.rest.take (s.rest.length - r.rest.length))] } := by
  rw [Pattern.match?, results_group, List.head?_map, Pattern.match?]

/-- A greedy repetition alone takes the whole run. -/
theorem match?_many {set : Char → Bool} {s : Cursor} :
    (Pattern.many true set).match? word s =
      some (s.skip (s.rest.takeWhile set) (s.rest.dropWhile set)) := by
  rw [Pattern.match?, results_many, if_pos rfl, List.head?_reverse, List.getLast?_map,
    getLast?_runs]
  rfl

theorem runs_append {set : Char → Bool} {taken : List Char} (rest : List Char)
    (inside : ∀ c ∈ taken, set c = true) : ∃ shorter, runs set (taken ++ rest) =
      shorter ++ (runs set rest).map fun cut => (taken ++ cut.1, cut.2) := by
  induction taken with
  | nil => exact ⟨[], by simp⟩
  | cons c taken ih =>
    obtain ⟨inside, each⟩ := List.forall_mem_cons.mp inside
    obtain ⟨shorter, whole⟩ := ih each
    refine ⟨([], c :: (taken ++ rest)) :: shorter.map fun cut => (c :: cut.1, cut.2), ?_⟩
    rw [List.cons_append, runs, if_pos inside, whole, List.map_append, List.map_map]
    rfl

/-- A greedy repetition goes as far as what follows it can still match. -/
theorem match?_many_seq {set : Char → Bool} {second : Pattern} {s r : Cursor}
    {taken rest : List Char} (whole : s.rest = taken ++ rest) (inside : ∀ c ∈ taken, set c = true)
    (found : second.match? word (s.skip taken rest) = some r)
    (later : ∀ more after, rest = more ++ after → more ≠ [] → (∀ c ∈ more, set c = true) →
      second.match? word (s.skip (taken ++ more) after) = none) :
    (Pattern.seq (.many true set) second).match? word s = some r := by
  obtain ⟨shorter, cuts⟩ := runs_append rest inside
  obtain ⟨longer, first, longer_ne⟩ : ∃ longer, runs set rest = ([], rest) :: longer ∧
      ∀ cut ∈ longer, cut.1 ≠ [] ∧ rest = cut.1 ++ cut.2 ∧ ∀ c ∈ cut.1, set c = true := by
    cases rest with
    | nil => exact ⟨[], rfl, nofun⟩
    | cons c text =>
      refine ⟨_, rfl, fun cut listed => ?_⟩
      split at listed
      · rename_i member
        obtain ⟨old, cut, rfl⟩ := List.mem_map.mp listed
        obtain ⟨whole, each⟩ := mem_runs_iff.mp cut
        exact ⟨List.cons_ne_nil _ _, congrArg (c :: ·) whole,
          List.forall_mem_cons.mpr ⟨member, each⟩⟩
      · cases listed
  rw [match?_seq, results_many, if_pos rfl, whole, cuts, first]
  simp only [List.map_append, List.map_cons, List.append_nil, List.reverse_append,
    List.reverse_cons, List.findSome?_append, List.findSome?_cons, found]
  have none_ : (((longer.map fun cut => (taken ++ cut.1, cut.2)).map fun cut =>
      s.skip cut.1 cut.2).reverse.findSome? (second.match? word)) = none := by
    rw [List.findSome?_eq_none_iff]
    intro cursor listed
    rw [List.mem_reverse, List.map_map] at listed
    obtain ⟨cut, member, rfl⟩ := List.mem_map.mp listed
    obtain ⟨some_, split, each⟩ := longer_ne cut member
    exact later cut.1 cut.2 split some_ each
  rw [none_]
  rfl

/-! ## Replacing -/

section Replacing

variable {p : Pattern} {replace : Cursor → List Char}

theorem sub_skip (last : Option Char) (taken rest : List Char) :
    p.sub word replace last taken.length (taken ++ rest) =
      p.sub word replace (taken.getLast?.or last) 0 rest := by
  induction taken generalizing last with
  | nil => rfl
  | cons c taken ih =>
    rw [List.length_cons, List.cons_append, Pattern.sub, ih, List.getLast?_cons]
    cases taken.getLast? <;> rfl

/-- Where nothing matches the character stays. -/
theorem sub_of_none {last : Option Char} {c : Char} {text : List Char}
    (none_ : p.match? word ⟨last, c :: text, []⟩ = none) :
    p.sub word replace last 0 (c :: text) = c :: p.sub word replace (some c) 0 text := by
  rw [Pattern.sub, none_]

/-- A match that takes something is replaced, and the search goes on behind it. -/
theorem sub_of_match {last : Option Char} {text : List Char} {r : Cursor}
    (found : p.match? word ⟨last, text, []⟩ = some r) (shorter : r.rest.length < text.length) :
    p.sub word replace last 0 text = replace r ++ p.sub word replace r.last 0 r.rest := by
  obtain ⟨taken, whole, after⟩ := forward_of_mem_results (mem_of_match? found)
  obtain ⟨c, taken, rfl⟩ : ∃ c rest, taken = c :: rest := by
    cases taken with
    | nil =>
      rw [show text = r.rest from whole] at shorter
      exact absurd shorter (Nat.lt_irrefl _)
    | cons c taken => exact ⟨c, taken, rfl⟩
  dsimp only at whole
  subst whole
  have length : (c :: (taken ++ r.rest)).length - r.rest.length = taken.length + 1 := by
    rw [List.length_cons, List.length_append]
    omega
  rw [List.cons_append, Pattern.sub, ← List.cons_append, found]
  dsimp only
  rw [List.cons_append, length]
  dsimp only
  rw [sub_skip, after, List.getLast?_cons]
  cases taken.getLast? <;> rfl

theorem sub_congr {word' : Char → Bool} {text : List Char}
    (each : ∀ c ∈ text, word c = word' c) {last : Option Char}
    (before : ∀ c ∈ last, word c = word' c) (skipped : Nat) :
    p.sub word replace last skipped text = p.sub word' replace last skipped text := by
  induction text generalizing last skipped with
  | nil =>
    have same : p.match? word ⟨last, [], []⟩ = p.match? word' ⟨last, [], []⟩ :=
      congrArg List.head? (results_congr before nofun)
    cases skipped <;> rw [Pattern.sub, Pattern.sub, same]
  | cons c text ih =>
    obtain ⟨own, others⟩ := List.forall_mem_cons.mp each
    have later : ∀ skipped, p.sub word replace (some c) skipped text =
        p.sub word' replace (some c) skipped text := by
      refine ih others fun d same => ?_
      rwa [← Option.some.inj same]
    cases skipped with
    | succ skipped => rw [Pattern.sub, Pattern.sub, later]
    | zero =>
      have same : p.match? word ⟨last, c :: text, []⟩ = p.match? word' ⟨last, c :: text, []⟩ :=
        congrArg List.head? (results_congr before each)
      rw [Pattern.sub, Pattern.sub, same]
      simp only [later]

/-- A pattern tied to the beginning is replaced there or nowhere. -/
theorem subOnce_begins {ps : List Pattern} {text : List Char} :
    (concat (.begins :: ps)).subOnce word replace none text =
      match (concat (.begins :: ps)).match? word (start text) with
      | some r => replace r ++ r.rest
      | none => text := by
  have later : ∀ c text, (concat (.begins :: ps)).subOnce word replace (some c) text = text := by
    intro c text
    have none_ : ∀ c text, (concat (.begins :: ps)).match? word ⟨some c, text, []⟩ = none := by
      intro c text
      rw [match?_eq_none_iff]
      rintro r found
      obtain ⟨m, first, -⟩ := mem_results_concat_cons.mp found
      cases (mem_results_begins.mp first).1
    induction text generalizing c with
    | nil => rw [Pattern.subOnce.eq_def, none_]
    | cons d text ih =>
      rw [Pattern.subOnce.eq_def, none_]
      exact congrArg (d :: ·) (ih d)
  rw [Pattern.subOnce.eq_def, start]
  split
  · rfl
  · split
    · rfl
    · rw [later]

end Replacing

end Regex
