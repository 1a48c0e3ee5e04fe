import TextToSqlAgent.Benchmark.Retyping

/-!
# Which names a map takes

A name is looked at when it has been stripped and lower-cased. Every name that is
then printable ASCII was so before, but for the Kelvin sign, which has become a `k`.
-/

namespace Naming

open Python Exceptions Identifiers Retyping

def kelvin : Char := '\u212a'

/-- What an ASCII character or the Kelvin sign becomes in lower case. -/
def lowered (c : Char) : Char := if c = kelvin then 'k' else c.toLower

/-- Printable ASCII without a quote and a backslash, or the Kelvin sign. -/
def Passes (c : Char) : Prop := isOffending c = false ∨ c = kelvin

/-- What a name is asked to be: once stripped, 1 to 63 characters of printable ASCII
without a double quote and a backslash. -/
structure IsName (raw : String) : Prop where
  nonempty : 0 < (strip raw).toList.length
  bounded : (strip raw).toList.length ≤ maxIdentifierBytes
  plain : ∀ c ∈ (strip raw).toList, isOffending c = false

/-- The same where a Kelvin sign passes for a `k`. -/
structure PassesAsName (raw : String) : Prop where
  nonempty : 0 < (strip raw).toList.length
  bounded : (strip raw).toList.length ≤ maxIdentifierBytes
  passes : ∀ c ∈ (strip raw).toList, Passes c

variable {unicode : Unicode}

/-! ## Lower case -/

theorem isOffending_toLower {c : Char} (ascii : c.toNat < 128) :
    isOffending c.toLower = isOffending c :=
  ascii_cases (fun c => isOffending c.toLower = isOffending c) (by decide) ascii

theorem ascii_of_not_offending {c : Char} (plain : isOffending c = false) : c.toNat < 128 := by
  simp only [isOffending, isAsciiPrintable, Bool.or_eq_false_iff, Bool.not_eq_false',
    Bool.and_eq_true, decide_eq_true_eq] at plain
  omega

theorem eq_kelvin_iff {c : Char} : c = kelvin ↔ c.toNat = 0x212A := by
  constructor
  · rintro rfl
    rfl
  · intro code
    rw [← Char.ofNat_toNat c, code]
    rfl

theorem lowersTo_of_passes {c : Char} {piece : List Char} (passes : Passes c)
    (lowers : LowersTo c piece) : piece = [lowered c] := by
  rw [LowersTo] at lowers
  rcases passes with plain | rfl
  · have ascii := ascii_of_not_offending plain
    have other : c ≠ kelvin := by
      intro same
      have code := eq_kelvin_iff.mp same
      omega
    rw [if_pos ascii] at lowers
    rw [lowers, lowered, if_neg other]
  · exact lowers

/-- What passes is lowered character by character. -/
theorem lower_of_passes {s : String} (passes : ∀ c ∈ s.toList, Passes c) :
    (unicode.lower s).toList = s.toList.map lowered := by
  obtain ⟨pieces, lowers, whole⟩ := unicode.lower_pieces s
  rw [whole]
  clear whole
  generalize s.toList = chars at passes lowers
  induction lowers with
  | nil => rfl
  | cons first rest ih =>
    rw [List.flatten_cons, lowersTo_of_passes (passes _ List.mem_cons_self) first,
      ih fun c listed => passes c (List.mem_cons_of_mem _ listed)]
    rfl

theorem passes_of_lowersTo {c : Char} {piece : List Char} (lowers : LowersTo c piece)
    (plain : ∀ d ∈ piece, isOffending d = false) : Passes c := by
  rw [LowersTo] at lowers
  split_ifs at lowers with ascii sign
  · subst lowers
    refine Or.inl ?_
    rw [← isOffending_toLower ascii]
    exact plain _ (List.mem_singleton_self _)
  · exact Or.inr (eq_kelvin_iff.mpr sign)
  · obtain ⟨d, listed, high⟩ := lowers
    have low := ascii_of_not_offending (plain d listed)
    omega

theorem isOffending_lowered {c : Char} (passes : Passes c) : isOffending (lowered c) = false := by
  rcases passes with plain | rfl
  · rw [lowered]
    split
    · decide
    · rwa [isOffending_toLower (ascii_of_not_offending plain)]
  · decide

/-- Nothing of a lower-cased text is offending exactly where the text passes. -/
theorem plain_lower_iff {s : String} :
    (∀ c ∈ (unicode.lower s).toList, isOffending c = false) ↔ ∀ c ∈ s.toList, Passes c := by
  constructor
  · intro plain
    obtain ⟨pieces, lowers, whole⟩ := unicode.lower_pieces s
    rw [whole] at plain
    generalize s.toList = chars at lowers
    clear whole
    induction lowers with
    | nil => exact nofun
    | cons first rest ih =>
      simp only [List.flatten_cons, List.forall_mem_append] at plain
      refine List.forall_mem_cons.mpr ⟨passes_of_lowersTo first plain.1, ih plain.2⟩
  · intro passes c listed
    rw [lower_of_passes passes] at listed
    obtain ⟨d, own, rfl⟩ := List.mem_map.mp listed
    exact isOffending_lowered (passes d own)

theorem offending_eq_nil_iff {folded : String} :
    offending folded = [] ↔ ∀ c ∈ folded.toList, isOffending c = false := by
  have length : (offending folded).length = (folded.toList.filter isOffending).dedup.length :=
    (List.perm_insertionSort _ _).length_eq
  rw [← List.length_eq_zero_iff, length, List.length_eq_zero_iff, List.dedup_eq_nil,
    List.filter_eq_nil_iff]
  simp only [Bool.not_eq_true]

/-- A text of ASCII has a byte for each character. -/
theorem utf8ByteSize_of_ascii {s : String} (ascii : ∀ c ∈ s.toList, c.toNat < 128) :
    s.utf8ByteSize = s.toList.length := by
  have ofList : ∀ l : List Char, (∀ c ∈ l, c.toNat < 128) →
      (String.ofList l).utf8ByteSize = l.length := by
    intro l
    induction l with
    | nil => intro _; rfl
    | cons c rest ih =>
      intro low
      have one : c.utf8Size = 1 := by
        have small := low c List.mem_cons_self
        rw [Char.utf8Size_eq_one_iff, UInt32.le_iff_toNat_le]
        have : c.val.toNat < 128 := small
        have bound : (127 : UInt32).toNat = 127 := rfl
        omega
      have split : String.ofList (c :: rest) = String.singleton c ++ String.ofList rest := by
        rw [← String.toList_inj]
        simp
      rw [split, String.utf8ByteSize_append, String.utf8ByteSize_singleton, one,
        ih fun d listed => low d (List.mem_cons_of_mem _ listed), List.length_cons]
      omega
  have whole := ofList s.toList ascii
  rwa [String.ofList_toList] at whole

/-! ## One name -/

/-- What a name is folded to. -/
def identifierOf (unicode : Unicode) (raw : String) : String := unicode.lower (strip raw)

theorem length_identifierOf {raw : String} (passes : ∀ c ∈ (strip raw).toList, Passes c) :
    (identifierOf unicode raw).toList.length = (strip raw).toList.length := by
  rw [identifierOf, lower_of_passes passes, List.length_map]

theorem toPgIdentifier_eq_ok_iff {raw kind identifier : String} :
    toPgIdentifier unicode raw kind = .ok identifier ↔
      strip raw ≠ "" ∧ offending (identifierOf unicode raw) = [] ∧
        (identifierOf unicode raw).utf8ByteSize ≤ maxIdentifierBytes ∧
        identifierOf unicode raw = identifier := by
  rw [toPgIdentifier, identifierOf]
  dsimp only
  by_cases empty : strip raw = ""
  · rw [if_pos empty]
    refine ⟨fun refused => ?_, fun accepted => absurd empty accepted.1⟩
    cases refused
  · rw [if_neg empty]
    cases found : offending (unicode.lower (strip raw)) with
    | cons c rest =>
      refine ⟨fun refused => ?_, fun accepted => absurd accepted.2.1 (List.cons_ne_nil c rest)⟩
      cases refused
    | nil =>
      split
      · split
        · rename_i long
          refine ⟨fun refused => ?_, fun accepted => absurd accepted.2.2.1 (Nat.not_le.mpr long)⟩
          cases refused
        · rename_i short
          rw [Except.ok.injEq]
          exact ⟨fun same => ⟨empty, rfl, Nat.not_lt.mp short, same⟩,
            fun accepted => accepted.2.2.2⟩
      · rename_i other
        exact absurd rfl other

/-- A name is accepted exactly where it passes, and as what it is folded to. -/
theorem toPgIdentifier_iff {raw kind identifier : String} :
    toPgIdentifier unicode raw kind = .ok identifier ↔
      PassesAsName raw ∧ identifierOf unicode raw = identifier := by
  have bytes (plain : ∀ c ∈ (identifierOf unicode raw).toList, isOffending c = false) :
      (identifierOf unicode raw).utf8ByteSize = (strip raw).toList.length := by
    rw [utf8ByteSize_of_ascii fun c listed => ascii_of_not_offending (plain c listed),
      length_identifierOf (plain_lower_iff.mp plain)]
  have nonempty : strip raw ≠ "" ↔ 0 < (strip raw).toList.length := by
    rw [List.length_pos_iff, ne_eq, ne_eq, String.toList_eq_nil_iff]
  rw [toPgIdentifier_eq_ok_iff, offending_eq_nil_iff, nonempty]
  constructor
  · rintro ⟨some, plain, short, same⟩
    exact ⟨⟨some, bytes plain ▸ short, plain_lower_iff.mp plain⟩, same⟩
  · rintro ⟨⟨some, short, passes⟩, same⟩
    have plain := (@plain_lower_iff unicode _).mpr passes
    exact ⟨some, plain, (bytes plain).symm ▸ short, same⟩

/-- Among names that pass, a Kelvin sign is what a name must not have. -/
theorem isName_iff {raw : String} (passes : PassesAsName raw) :
    IsName raw ↔ kelvin ∉ (strip raw).toList := by
  constructor
  · intro name listed
    have plain := name.plain kelvin listed
    revert plain
    decide
  · intro absent
    refine ⟨passes.nonempty, passes.bounded, fun c listed => ?_⟩
    rcases passes.passes c listed with plain | rfl
    · exact plain
    · exact absurd listed absent

theorem IsName.passes {raw : String} (name : IsName raw) : PassesAsName raw :=
  ⟨name.nonempty, name.bounded, fun c listed => Or.inl (name.plain c listed)⟩

/-! ## Folding twice -/

theorem isSpace_lowered {c : Char} (passes : Passes c) : isSpace (lowered c) = isSpace c := by
  rcases passes with plain | rfl
  · have other : c ≠ kelvin := by
      intro same
      have ascii := ascii_of_not_offending plain
      have code := eq_kelvin_iff.mp same
      omega
    rw [lowered, if_neg other]
    exact ascii_cases (fun c => isSpace c.toLower = isSpace c) (by decide)
      (ascii_of_not_offending plain)
  · decide

theorem lowered_lowered {c : Char} (passes : Passes c) : lowered (lowered c) = lowered c := by
  rcases passes with plain | rfl
  · have low := ascii_of_not_offending (isOffending_lowered (Or.inl plain))
    have other {d : Char} (ascii : d.toNat < 128) : d ≠ kelvin := by
      intro same
      have code := eq_kelvin_iff.mp same
      omega
    have ascii := ascii_of_not_offending plain
    rw [lowered, if_neg (other low), lowered, if_neg (other ascii)]
    exact ascii_cases (fun c => c.toLower.toLower = c.toLower) (by decide) ascii
  · decide

theorem dropWhile_map {f : Char → Char} {p : Char → Bool} {l : List Char}
    (same : ∀ c ∈ l, p (f c) = p c) : (l.map f).dropWhile p = (l.dropWhile p).map f := by
  induction l with
  | nil => rfl
  | cons c rest ih =>
    rw [List.map_cons, List.dropWhile_cons, List.dropWhile_cons, same c List.mem_cons_self]
    split
    · exact ih fun d listed => same d (List.mem_cons_of_mem _ listed)
    · rfl

theorem rdropWhile_map {f : Char → Char} {p : Char → Bool} {l : List Char}
    (same : ∀ c ∈ l, p (f c) = p c) : (l.map f).rdropWhile p = (l.rdropWhile p).map f := by
  have backwards : ∀ c ∈ l.reverse, p (f c) = p c := fun c listed =>
    same c (List.mem_reverse.mp listed)
  rw [List.rdropWhile, List.rdropWhile, ← List.map_reverse, dropWhile_map backwards,
    List.map_reverse]

/-- A folded name begins and ends with no white space. -/
theorem strip_identifierOf {raw : String} (passes : ∀ c ∈ (strip raw).toList, Passes c) :
    strip (identifierOf unicode raw) = identifierOf unicode raw := by
  have twice := congrArg String.toList (strip_strip raw)
  have blank : ∀ c ∈ (strip raw).toList, isSpace (lowered c) = isSpace c := fun c listed =>
    isSpace_lowered (passes c listed)
  rw [strip, String.toList_ofList] at twice
  rw [← String.toList_inj, strip, String.toList_ofList, identifierOf, lower_of_passes passes,
    dropWhile_map blank, rdropWhile_map, twice]
  exact fun c listed => blank c ((List.dropWhile_suffix _).subset listed)

/-- Folding a folded name leaves it as it is. -/
theorem toPgIdentifier_identifierOf {raw : String} (passes : PassesAsName raw) (kind : String) :
    toPgIdentifier unicode (identifierOf unicode raw) kind = .ok (identifierOf unicode raw) := by
  have stripped := @strip_identifierOf unicode _ passes.passes
  have length := @length_identifierOf unicode _ passes.passes
  have plain : ∀ c ∈ (identifierOf unicode raw).toList, isOffending c = false :=
    plain_lower_iff.mpr passes.passes
  have again : PassesAsName (identifierOf unicode raw) := by
    refine ⟨?_, ?_, fun c listed => Or.inl (plain c ?_)⟩
    · rw [stripped, length]
      exact passes.nonempty
    · rw [stripped, length]
      exact passes.bounded
    · rwa [stripped] at listed
  refine toPgIdentifier_iff.mpr ⟨again, ?_⟩
  rw [identifierOf, stripped, ← String.toList_inj,
    lower_of_passes fun c listed => Or.inl (plain c listed), identifierOf,
    lower_of_passes passes.passes, List.map_map]
  exact List.map_congr_left fun c listed => lowered_lowered (passes.passes c listed)

/-! ## A list of names -/

/-- No two distinct names are folded to the same identifier. -/
def Apart (unicode : Unicode) (raws : List String) : Prop :=
  ∀ one ∈ raws, ∀ other ∈ raws, identifierOf unicode one = identifierOf unicode other → one = other

/-- What the loop has seen so far: every name under what it is folded to. -/
structure Seen (unicode : Unicode) (forward seen : Dictionary String String)
    (done : List String) : Prop where
  forward : ∀ raw, forward.get? raw =
    if raw ∈ done then some (identifierOf unicode raw) else none
  seen : ∀ safe raw, seen.get? safe = some raw ↔ raw ∈ done ∧ identifierOf unicode raw = safe

/-- One more name that passes and is apart from those before it. -/
theorem Seen.snoc {forward seen : Dictionary String String} {done : List String} {raw : String}
    (known : Seen unicode forward seen done)
    (apart : ∀ other ∈ done, identifierOf unicode other = identifierOf unicode raw → other = raw) :
    Seen unicode (forward.set raw (identifierOf unicode raw))
      (seen.set (identifierOf unicode raw) raw) (done ++ [raw]) := by
  constructor
  · intro name
    rw [Dictionary.get?_set, known.forward]
    by_cases same : name = raw
    · simp [same]
    · simp [same]
  · intro safe name
    rw [Dictionary.get?_set, List.mem_append, List.mem_singleton]
    split
    · rename_i same
      subst same
      constructor
      · intro found
        obtain rfl := Option.some.inj found
        exact ⟨Or.inr rfl, rfl⟩
      · rintro ⟨earlier | rfl, folded⟩
        · rw [apart name earlier folded]
        · rfl
    · rename_i other
      rw [known.seen]
      constructor
      · rintro ⟨earlier, folded⟩
        exact ⟨Or.inl earlier, folded⟩
      · rintro ⟨earlier | rfl, folded⟩
        · exact ⟨earlier, folded⟩
        · exact absurd folded.symm other

/-- One step of the loop. -/
theorem buildFrom_cons_iff {kind : String} {forward seen : Dictionary String String}
    {done rest : List String} {raw : String} {map : IdentifierMap}
    (known : Seen unicode forward seen done) :
    IdentifierMap.buildFrom unicode kind forward seen (raw :: rest) = .ok map ↔
      PassesAsName raw ∧
        (∀ other ∈ done, identifierOf unicode other = identifierOf unicode raw → other = raw) ∧
        IdentifierMap.buildFrom unicode kind (forward.set raw (identifierOf unicode raw))
          (seen.set (identifierOf unicode raw) raw) rest = .ok map := by
  rw [IdentifierMap.buildFrom, Fallible.bind_ok_iff]
  constructor
  · rintro ⟨safe, folded, built⟩
    obtain ⟨passes, rfl⟩ := toPgIdentifier_iff.mp folded
    refine ⟨passes, ?_⟩
    split at built
    · rename_i holder taken
      split at built
      · cases built
      · rename_i same
        obtain rfl := not_not.mp same
        refine ⟨fun other listed twin => ?_, built⟩
        have own := (known.seen _ other).mpr ⟨listed, twin⟩
        exact Option.some.inj (own.symm.trans taken)
    · rename_i fresh
      refine ⟨fun other listed twin => ?_, built⟩
      have own := (known.seen _ other).mpr ⟨listed, twin⟩
      rw [fresh] at own
      cases own
  · rintro ⟨passes, apart, built⟩
    refine ⟨identifierOf unicode raw, toPgIdentifier_iff.mpr ⟨passes, rfl⟩, ?_⟩
    split
    · rename_i holder taken
      obtain ⟨listed, twin⟩ := (known.seen _ holder).mp taken
      rw [if_neg (not_not.mpr (apart holder listed twin))]
      exact built
    · exact built

theorem apart_snoc_iff {done : List String} {raw : String} (soFar : Apart unicode done) :
    Apart unicode (done ++ [raw]) ↔
      ∀ other ∈ done, identifierOf unicode other = identifierOf unicode raw → other = raw := by
  constructor
  · intro apart other listed
    exact apart other (List.mem_append_left _ listed) raw (by simp)
  · intro apart one first other second same
    rw [List.mem_append, List.mem_singleton] at first second
    rcases first with first | rfl <;> rcases second with second | rfl
    · exact soFar one first other second same
    · exact apart one first same
    · exact (apart other second same.symm).symm
    · rfl

theorem Apart.subset {raws others : List String} (apart : Apart unicode raws)
    (inside : others ⊆ raws) : Apart unicode others :=
  fun one first other second => apart one (inside first) other (inside second)

/-- The loop ends well exactly where the rest passes and all is apart. -/
theorem buildFrom_isOk_iff {kind : String} {forward seen : Dictionary String String}
    {done raws : List String} (known : Seen unicode forward seen done)
    (soFar : Apart unicode done) :
    (∃ map, IdentifierMap.buildFrom unicode kind forward seen raws = .ok map) ↔
      (∀ raw ∈ raws, PassesAsName raw) ∧ Apart unicode (done ++ raws) := by
  induction raws generalizing forward seen done with
  | nil =>
    rw [List.append_nil]
    exact ⟨fun _ => ⟨nofun, soFar⟩, fun _ => ⟨_, rfl⟩⟩
  | cons raw rest ih =>
    simp only [buildFrom_cons_iff known, exists_and_left, List.forall_mem_cons]
    have whole : done ++ raw :: rest = done ++ [raw] ++ rest := by simp
    rw [whole]
    constructor
    · rintro ⟨passes, apart, built⟩
      obtain ⟨others, all⟩ :=
        (ih (known.snoc apart) ((apart_snoc_iff soFar).mpr apart)).mp built
      exact ⟨⟨passes, others⟩, all⟩
    · rintro ⟨⟨passes, others⟩, all⟩
      have here : Apart unicode (done ++ [raw]) := all.subset (List.subset_append_left _ _)
      have apart := (apart_snoc_iff soFar).mp here
      exact ⟨passes, apart, (ih (known.snoc apart) here).mpr ⟨others, all⟩⟩

theorem seen_of_buildFrom {kind : String} {forward seen : Dictionary String String}
    {done raws : List String} {map : IdentifierMap} (known : Seen unicode forward seen done)
    (built : IdentifierMap.buildFrom unicode kind forward seen raws = .ok map) :
    ∃ all, Seen unicode map.forward all (done ++ raws) := by
  induction raws generalizing forward seen done with
  | nil =>
    rw [List.append_nil]
    cases built
    exact ⟨seen, known⟩
  | cons raw rest ih =>
    obtain ⟨-, apart, built⟩ := (buildFrom_cons_iff known).mp built
    have all := ih (known.snoc apart) built
    rwa [List.append_assoc, List.singleton_append] at all

theorem seen_empty : Seen unicode .empty .empty [] := by
  constructor
  · intro raw
    rfl
  · intro safe raw
    exact ⟨nofun, fun known => absurd known.1 List.not_mem_nil⟩

/-- A map is built exactly of names that pass and are apart. -/
theorem build_isOk_iff {raws : List String} {kind : String} :
    (∃ map, IdentifierMap.build unicode raws kind = .ok map) ↔
      (∀ raw ∈ raws, PassesAsName raw) ∧ Apart unicode raws :=
  buildFrom_isOk_iff seen_empty nofun

/-- It takes every name of the list to what it is folded to, and no other. -/
theorem safe_of_build {raws : List String} {kind : String} {map : IdentifierMap}
    (built : IdentifierMap.build unicode raws kind = .ok map) {raw identifier : String} :
    map.safe unicode raw = .ok identifier ↔
      raw ∈ raws ∧ identifierOf unicode raw = identifier := by
  obtain ⟨seen, known⟩ := seen_of_buildFrom seen_empty built
  rw [safe_ok_iff, known.forward raw, List.nil_append]
  split
  · rename_i listed
    rw [Option.some.injEq]
    exact ⟨fun same => ⟨listed, same⟩, fun same => same.2⟩
  · rename_i absent
    exact ⟨nofun, fun same => absurd same.1 absent⟩

/-! ## What a map is meant to be -/

/-- A map of a list of names: it is built exactly where every name is one and no two
are folded to the same, whatever their order; it is injective, and what it gives
stays as it is when it is folded again. -/
structure MapsNames (unicode : Unicode) (kind : String) (raws : List String) : Prop where
  built : (∃ map, IdentifierMap.build unicode raws kind = .ok map) ↔
    (∀ raw ∈ raws, IsName raw) ∧ Apart unicode raws
  ordered : ∀ others, others.Perm raws →
    ((∃ map, IdentifierMap.build unicode others kind = .ok map) ↔
      ∃ map, IdentifierMap.build unicode raws kind = .ok map) ∧
    ∀ map other, IdentifierMap.build unicode raws kind = .ok map →
      IdentifierMap.build unicode others kind = .ok other →
        ∀ raw identifier, map.safe unicode raw = .ok identifier ↔
          other.safe unicode raw = .ok identifier
  injective : ∀ map, IdentifierMap.build unicode raws kind = .ok map →
    ∀ one other identifier, map.safe unicode one = .ok identifier →
      map.safe unicode other = .ok identifier → one = other
  fixed : ∀ map, IdentifierMap.build unicode raws kind = .ok map →
    ∀ raw identifier, map.safe unicode raw = .ok identifier →
      ∀ any, toPgIdentifier unicode identifier any = .ok identifier

/-- A list that nothing else is wrong with than that a name has a Kelvin sign. -/
def HidesKelvin (unicode : Unicode) (raws : List String) : Prop :=
  (∀ raw ∈ raws, PassesAsName raw) ∧ Apart unicode raws ∧
    ∃ raw ∈ raws, kelvin ∈ (strip raw).toList

theorem isOk_of_perm {kind : String} {raws others : List String} (perm : others.Perm raws) :
    (∃ map, IdentifierMap.build unicode others kind = .ok map) ↔
      ∃ map, IdentifierMap.build unicode raws kind = .ok map := by
  rw [build_isOk_iff, build_isOk_iff]
  constructor
  · rintro ⟨passes, apart⟩
    exact ⟨fun raw listed => passes raw (perm.mem_iff.mpr listed), apart.subset perm.symm.subset⟩
  · rintro ⟨passes, apart⟩
    exact ⟨fun raw listed => passes raw (perm.mem_iff.mp listed), apart.subset perm.subset⟩

/-- For every list of names the map is what it is meant to be, unless the list hides a
Kelvin sign. -/
theorem mapsNames_iff (unicode : Unicode) (kind : String) (raws : List String) :
    MapsNames unicode kind raws ↔ ¬HidesKelvin unicode raws := by
  constructor
  · rintro maps ⟨passes, apart, raw, listed, sign⟩
    obtain ⟨names, -⟩ := maps.built.mp (build_isOk_iff.mpr ⟨passes, apart⟩)
    exact (isName_iff (passes raw listed)).mp (names raw listed) sign
  · intro open_
    refine ⟨?_, fun others perm => ⟨isOk_of_perm perm, ?_⟩, ?_, ?_⟩
    · rw [build_isOk_iff]
      constructor
      · rintro ⟨passes, apart⟩
        refine ⟨fun raw listed => (isName_iff (passes raw listed)).mpr fun sign => ?_, apart⟩
        exact open_ ⟨passes, apart, raw, listed, sign⟩
      · rintro ⟨names, apart⟩
        exact ⟨fun raw listed => (names raw listed).passes, apart⟩
    · intro map other built moved raw identifier
      rw [safe_of_build built, safe_of_build moved, perm.mem_iff]
    · intro map built one other identifier first second
      exact safe_injective built first second
    · intro map built raw identifier given any
      obtain ⟨listed, rfl⟩ := (safe_of_build built).mp given
      exact toPgIdentifier_identifierOf ((build_isOk_iff.mp ⟨map, built⟩).1 raw listed) any

/-- A table called by the Kelvin sign becomes `k`. -/
theorem kelvin_accepted :
    (∃ map, IdentifierMap.build plainUnicode ["\u212a"] "table" = .ok map ∧
      map.safe plainUnicode "\u212a" = .ok "k") ∧ ¬IsName "\u212a" := by
  refine ⟨⟨_, rfl, by decide +kernel⟩, fun name => ?_⟩
  have plain := name.plain kelvin (by decide +kernel)
  revert plain
  decide

end Naming
