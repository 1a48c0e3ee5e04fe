import Mathlib.Data.List.Basic
import Mathlib.Data.List.Chain

/-!
# Nested lists and records as tokens

A document has leaves, lists and records. It is written as tokens, with brackets
around what is nested and commas between, and a name of a record is written as
the leaf that quotes it. Read back, the tokens give the document.
-/

namespace Documents

universe u v w z

variable {σ : Type u} {τ : Type v} {α : Type w} {β : Type z}

/-- A leaf, or punctuation. -/
inductive Token (α : Type w)
  | leaf (a : α)
  | openArray
  | closeArray
  | openObject
  | closeObject
  | comma
  | colon
  deriving DecidableEq, Repr

def Token.map (f : α → β) : Token α → Token β
  | .leaf a => .leaf (f a)
  | .openArray => .openArray
  | .closeArray => .closeArray
  | .openObject => .openObject
  | .closeObject => .closeObject
  | .comma => .comma
  | .colon => .colon

inductive Doc (σ : Type u) (α : Type w)
  | leaf (a : α)
  | array (items : List (Doc σ α))
  | object (members : List (σ × Doc σ α))

/-- What holds of the parts of every list and record holds of every document. -/
@[elab_as_elim, induction_eliminator]
theorem Doc.induct {P : Doc σ α → Prop} (leaf : ∀ a, P (.leaf a))
    (array : ∀ items, (∀ t ∈ items, P t) → P (.array items))
    (object : ∀ members, (∀ m ∈ members, P m.2) → P (.object members)) : ∀ t, P t
  | .leaf a => leaf a
  | .array items => array items fun t listed => by
      have smaller := List.sizeOf_lt_of_mem listed
      exact Doc.induct leaf array object t
  | .object members => object members fun m listed => by
      have smaller := List.sizeOf_lt_of_mem listed
      obtain ⟨name, t⟩ := m
      exact Doc.induct leaf array object t
termination_by t => sizeOf t
decreasing_by
  · simp only [Doc.array.sizeOf_spec]
    omega
  · simp only [Doc.object.sizeOf_spec, Prod.mk.sizeOf_spec] at smaller ⊢
    omega

/-! ## Writing -/

section Writing

variable (quote : σ → α)

mutual

def Doc.tokens : Doc σ α → List (Token α)
  | .leaf a => [.leaf a]
  | .array [] => [.openArray, .closeArray]
  | .array (item :: items) => .openArray :: (item.tokens ++ itemTokens items)
  | .object [] => [.openObject, .closeObject]
  | .object ((name, value) :: members) =>
    .openObject :: .leaf (quote name) :: .colon :: (value.tokens ++ memberTokens members)

/-- What follows an item of a list. -/
def itemTokens : List (Doc σ α) → List (Token α)
  | [] => [.closeArray]
  | item :: items => .comma :: (item.tokens ++ itemTokens items)

/-- What follows a member of a record. -/
def memberTokens : List (σ × Doc σ α) → List (Token α)
  | [] => [.closeObject]
  | (name, value) :: members =>
    .comma :: .leaf (quote name) :: .colon :: (value.tokens ++ memberTokens members)

end

end Writing

/-! ## Names and leaves replaced -/

section Mapping

variable (f : σ → τ) (g : α → β)

mutual

def Doc.map : Doc σ α → Doc τ β
  | .leaf a => .leaf (g a)
  | .array items => .array (mapItems items)
  | .object members => .object (mapMembers members)

def mapItems : List (Doc σ α) → List (Doc τ β)
  | [] => []
  | item :: items => item.map :: mapItems items

def mapMembers : List (σ × Doc σ α) → List (τ × Doc τ β)
  | [] => []
  | (name, value) :: members => (f name, value.map) :: mapMembers members

end

theorem mapItems_eq (items : List (Doc σ α)) :
    mapItems f g items = items.map fun t => t.map f g := by
  induction items with
  | nil => rfl
  | cons item items ih => rw [mapItems, ih, List.map_cons]

variable {f g} {quote : σ → α} {quote' : τ → β}

theorem itemTokens_map {items : List (Doc σ α)}
    (each : ∀ t ∈ items, (t.map f g).tokens quote' = (t.tokens quote).map (Token.map g)) :
    itemTokens quote' (mapItems f g items) = (itemTokens quote items).map (Token.map g) := by
  induction items with
  | nil => rfl
  | cons item items ih =>
    rw [mapItems, itemTokens, itemTokens, each item List.mem_cons_self,
      ih fun t listed => each t (List.mem_cons_of_mem _ listed)]
    simp [Token.map]

theorem memberTokens_map (quoted : ∀ s, g (quote s) = quote' (f s))
    {members : List (σ × Doc σ α)}
    (each : ∀ m ∈ members, (m.2.map f g).tokens quote' = (m.2.tokens quote).map (Token.map g)) :
    memberTokens quote' (mapMembers f g members) =
      (memberTokens quote members).map (Token.map g) := by
  induction members with
  | nil => rfl
  | cons member members ih =>
    have own := each member List.mem_cons_self
    obtain ⟨name, value⟩ := member
    rw [mapMembers, memberTokens, memberTokens, own,
      ih fun m listed => each m (List.mem_cons_of_mem _ listed)]
    simp [Token.map, quoted]

/-- The tokens of a document with other leaves are its tokens with these leaves. -/
theorem Doc.tokens_map (quoted : ∀ s, g (quote s) = quote' (f s)) (t : Doc σ α) :
    (t.map f g).tokens quote' = (t.tokens quote).map (Token.map g) := by
  induction t with
  | leaf a => rfl
  | array items ih =>
    cases items with
    | nil => rfl
    | cons item items =>
      have later := itemTokens_map fun t listed => ih t (List.mem_cons_of_mem _ listed)
      rw [Doc.map, mapItems, Doc.tokens, Doc.tokens, ih item List.mem_cons_self, later]
      simp [Token.map]
  | object members ih =>
    cases members with
    | nil => rfl
    | cons member members =>
      have own := ih member List.mem_cons_self
      have later := memberTokens_map quoted fun m listed => ih m (List.mem_cons_of_mem _ listed)
      obtain ⟨name, value⟩ := member
      rw [Doc.map, mapMembers, Doc.tokens, Doc.tokens, own, later]
      simp [Token.map, quoted]

end Mapping

/-! ## Which tokens are written, and next to which -/

/-- A leaf that is somewhere in a document. -/
inductive Doc.Has (a : α) : Doc σ α → Prop
  | leaf : Has a (.leaf a)
  | item {items : List (Doc σ α)} {t : Doc σ α} (listed : t ∈ items) (inside : Has a t) :
      Has a (.array items)
  | member {members : List (σ × Doc σ α)} {m : σ × Doc σ α} (listed : m ∈ members)
      (inside : Has a m.2) : Has a (.object members)

@[simp]
theorem Doc.has_leaf {a b : α} : (Doc.leaf b : Doc σ α).Has a ↔ a = b := by
  constructor
  · rintro ⟨⟩
    rfl
  · rintro rfl
    exact .leaf

@[simp]
theorem Doc.has_array {a : α} {items : List (Doc σ α)} :
    (Doc.array items).Has a ↔ ∃ t ∈ items, t.Has a := by
  constructor
  · rintro (_ | ⟨listed, inside⟩)
    exact ⟨_, listed, inside⟩
  · rintro ⟨t, listed, inside⟩
    exact .item listed inside

@[simp]
theorem Doc.has_object {a : α} {members : List (σ × Doc σ α)} :
    (Doc.object members).Has a ↔ ∃ m ∈ members, m.2.Has a := by
  constructor
  · rintro (_ | _ | ⟨listed, inside⟩)
    exact ⟨_, listed, inside⟩
  · rintro ⟨m, listed, inside⟩
    exact .member listed inside

section Written

variable {quote : σ → α}

theorem leaf_mem_itemTokens {a : α} {items : List (Doc σ α)} :
    .leaf a ∈ itemTokens quote items ↔ ∃ t ∈ items, .leaf a ∈ t.tokens quote := by
  induction items with
  | nil => simp [itemTokens]
  | cons item items ih => simp [itemTokens, ih]

theorem leaf_mem_memberTokens {a : α} (other : ∀ s, quote s ≠ a)
    {members : List (σ × Doc σ α)} :
    .leaf a ∈ memberTokens quote members ↔ ∃ m ∈ members, .leaf a ∈ m.2.tokens quote := by
  induction members with
  | nil => simp [memberTokens]
  | cons member members ih =>
    obtain ⟨name, value⟩ := member
    have apart : a ≠ quote name := fun same => other name same.symm
    simp [memberTokens, ih, apart]

/-- A leaf that is no name is written where the document has it. -/
theorem Doc.leaf_mem_tokens {a : α} (other : ∀ s, quote s ≠ a) {t : Doc σ α} :
    .leaf a ∈ t.tokens quote ↔ t.Has a := by
  induction t with
  | leaf b => rw [Doc.tokens, List.mem_singleton, Token.leaf.injEq, Doc.has_leaf]
  | array items ih =>
    have listed : .leaf a ∈ (Doc.array items).tokens quote ↔ .leaf a ∈ itemTokens quote items := by
      cases items <;> simp [Doc.tokens, itemTokens]
    rw [listed, leaf_mem_itemTokens, Doc.has_array]
    exact exists_congr fun t => and_congr_right (ih t)
  | object members ih =>
    have listed : .leaf a ∈ (Doc.object members).tokens quote ↔
        .leaf a ∈ memberTokens quote members := by
      cases members <;> simp [Doc.tokens, memberTokens]
    rw [listed, leaf_mem_memberTokens other, Doc.has_object]
    exact exists_congr fun m => and_congr_right (ih m)

/-- Not a leaf after a leaf. -/
def Token.Apart : Token α → Token α → Prop
  | .leaf _, .leaf _ => False
  | _, _ => True

/-- Tokens that begin with punctuation may follow any. -/
theorem isChain_append_of_punctuation {first later : List (Token α)}
    (begins : ∀ b ∈ later.head?, ∀ a, Token.Apart a b) (one : first.IsChain Token.Apart)
    (two : later.IsChain Token.Apart) : (first ++ later).IsChain Token.Apart := by
  rw [List.isChain_append]
  exact ⟨one, two, fun a _ b head => begins b head a⟩

theorem isChain_itemTokens {items : List (Doc σ α)}
    (each : ∀ t ∈ items, (t.tokens quote).IsChain Token.Apart) :
    (itemTokens quote items).IsChain Token.Apart ∧
      ∀ b ∈ (itemTokens quote items).head?, ∀ a, Token.Apart a b := by
  induction items with
  | nil => exact ⟨.singleton _, by rintro b ⟨⟩ (_ | _) <;> trivial⟩
  | cons item items ih =>
    obtain ⟨chain, begins⟩ := ih fun t listed => each t (List.mem_cons_of_mem _ listed)
    have whole := isChain_append_of_punctuation begins (each item List.mem_cons_self) chain
    rw [itemTokens]
    refine ⟨?_, by rintro b ⟨⟩ (_ | _) <;> trivial⟩
    exact List.isChain_cons.mpr ⟨fun _ _ => trivial, whole⟩

theorem isChain_memberTokens {members : List (σ × Doc σ α)}
    (each : ∀ m ∈ members, (m.2.tokens quote).IsChain Token.Apart) :
    (memberTokens quote members).IsChain Token.Apart ∧
      ∀ b ∈ (memberTokens quote members).head?, ∀ a, Token.Apart a b := by
  induction members with
  | nil => exact ⟨.singleton _, by rintro b ⟨⟩ (_ | _) <;> trivial⟩
  | cons member members ih =>
    obtain ⟨chain, begins⟩ := ih fun m listed => each m (List.mem_cons_of_mem _ listed)
    have whole := isChain_append_of_punctuation begins (each member List.mem_cons_self) chain
    obtain ⟨name, value⟩ := member
    rw [memberTokens]
    refine ⟨?_, by rintro b ⟨⟩ (_ | _) <;> trivial⟩
    refine List.isChain_cons.mpr ⟨fun _ _ => trivial, List.isChain_cons.mpr ⟨?_, ?_⟩⟩
    · rintro b ⟨⟩
      trivial
    · exact List.isChain_cons.mpr ⟨fun _ _ => trivial, whole⟩

/-- Between two leaves stands punctuation. -/
theorem Doc.isChain_tokens (t : Doc σ α) : (t.tokens quote).IsChain Token.Apart := by
  induction t with
  | leaf a => exact .singleton _
  | array items ih =>
    have chain := (isChain_itemTokens ih).1
    cases items with
    | nil => exact List.isChain_cons.mpr ⟨fun _ _ => trivial, chain⟩
    | cons item items =>
      rw [itemTokens] at chain
      exact List.isChain_cons.mpr ⟨fun _ _ => trivial, (List.isChain_cons.mp chain).2⟩
  | object members ih =>
    have chain := (isChain_memberTokens ih).1
    cases members with
    | nil => exact List.isChain_cons.mpr ⟨fun _ _ => trivial, chain⟩
    | cons member members =>
      rw [memberTokens] at chain
      exact List.isChain_cons.mpr ⟨fun _ _ => trivial, (List.isChain_cons.mp chain).2⟩

end Written

/-! ## Reading -/

section Reading

variable (name? : α → Option σ)

mutual

/-- A document, nested no deeper than the fuel, and the tokens after it. -/
def parseDoc : Nat → List (Token α) → Option (Doc σ α × List (Token α))
  | 0, _ => none
  | fuel + 1, tokens =>
    match tokens with
    | .leaf a :: rest => some (.leaf a, rest)
    | .openArray :: .closeArray :: rest => some (.array [], rest)
    | .openArray :: rest =>
      (parseItems fuel rest).map fun (items, rest) => (.array items, rest)
    | .openObject :: .closeObject :: rest => some (.object [], rest)
    | .openObject :: rest =>
      (parseMembers fuel rest).map fun (members, rest) => (.object members, rest)
    | _ => none

/-- Items up to the end of a list. -/
def parseItems : Nat → List (Token α) → Option (List (Doc σ α) × List (Token α))
  | 0, _ => none
  | fuel + 1, tokens =>
    match parseDoc fuel tokens with
    | some (item, .closeArray :: rest) => some ([item], rest)
    | some (item, .comma :: rest) =>
      (parseItems fuel rest).map fun (items, rest) => (item :: items, rest)
    | _ => none

/-- Members up to the end of a record. -/
def parseMembers : Nat → List (Token α) → Option (List (σ × Doc σ α) × List (Token α))
  | 0, _ => none
  | fuel + 1, tokens =>
    match tokens with
    | .leaf a :: .colon :: rest =>
      match name? a, parseDoc fuel rest with
      | some name, some (value, .closeObject :: rest) => some ([(name, value)], rest)
      | some name, some (value, .comma :: rest) =>
        (parseMembers fuel rest).map fun (members, rest) => ((name, value) :: members, rest)
      | _, _ => none
    | _ => none

end

/-- The document that the tokens are. None nests deeper than it has tokens. -/
def parse (tokens : List (Token α)) : Option (Doc σ α) :=
  match parseDoc name? (2 * tokens.length) tokens with
  | some (doc, []) => some doc
  | _ => none

end Reading

/-! ## A document written and read -/

section Back

variable {quote : σ → α} {name? : α → Option σ}

variable (quote) in
/-- A document begins with a token, and not with the end of a list. -/
theorem Doc.tokens_begin (t : Doc σ α) :
    ∃ first rest, t.tokens quote = first :: rest ∧ first ≠ .closeArray := by
  cases t with
  | leaf a => exact ⟨.leaf a, [], by rw [Doc.tokens], nofun⟩
  | array items => cases items <;> exact ⟨.openArray, _, by rw [Doc.tokens], nofun⟩
  | object members =>
    cases members with
    | nil => exact ⟨.openObject, _, by rw [Doc.tokens], nofun⟩
    | cons member members => exact ⟨.openObject, _, by rw [Doc.tokens], nofun⟩

variable (quote name?) in
/-- With fuel for its length, a document is read as it was written. -/
def ReadsBack (t : Doc σ α) : Prop :=
  ∀ fuel rest, 2 * (t.tokens quote).length ≤ fuel →
    parseDoc name? fuel (t.tokens quote ++ rest) = some (t, rest)

theorem parseItems_tokens (item : Doc σ α) (items : List (Doc σ α))
    (each : ∀ t ∈ item :: items, ReadsBack quote name? t) (fuel : Nat) (rest : List (Token α))
    (enough : 2 * (item.tokens quote ++ itemTokens quote items).length ≤ fuel) :
    parseItems name? fuel (item.tokens quote ++ (itemTokens quote items ++ rest)) =
      some (item :: items, rest) := by
  induction items generalizing item fuel with
  | nil =>
    simp only [itemTokens, List.length_append, List.length_cons, List.length_nil] at enough
    obtain ⟨fuel, rfl⟩ : ∃ less, fuel = less + 1 := ⟨fuel - 1, by omega⟩
    have first := each item List.mem_cons_self fuel (.closeArray :: rest) (by omega)
    simp only [itemTokens, List.cons_append, List.nil_append]
    rw [parseItems, first]
  | cons next items ih =>
    simp only [itemTokens, List.length_append, List.length_cons] at enough
    obtain ⟨fuel, rfl⟩ : ∃ less, fuel = less + 1 := ⟨fuel - 1, by omega⟩
    have first := each item List.mem_cons_self fuel
      (.comma :: (next.tokens quote ++ (itemTokens quote items ++ rest))) (by omega)
    have later := ih next (fun t listed => each t (List.mem_cons_of_mem _ listed)) fuel
      (by rw [List.length_append]; omega)
    simp only [itemTokens, List.cons_append, List.append_assoc]
    rw [parseItems, first]
    simp only [later, Option.map_some]

theorem parseMembers_tokens (named : ∀ s, name? (quote s) = some s) (name : σ) (value : Doc σ α)
    (members : List (σ × Doc σ α))
    (each : ∀ m ∈ (name, value) :: members, ReadsBack quote name? m.2) (fuel : Nat)
    (rest : List (Token α))
    (enough : 2 * (.leaf (quote name) :: .colon ::
      (value.tokens quote ++ memberTokens quote members)).length ≤ fuel) :
    parseMembers name? fuel (.leaf (quote name) :: .colon ::
        (value.tokens quote ++ (memberTokens quote members ++ rest))) =
      some ((name, value) :: members, rest) := by
  induction members generalizing name value fuel with
  | nil =>
    have own : ReadsBack quote name? value := each (name, value) List.mem_cons_self
    simp only [memberTokens, List.length_append, List.length_cons, List.length_nil] at enough
    obtain ⟨fuel, rfl⟩ : ∃ less, fuel = less + 1 := ⟨fuel - 1, by omega⟩
    have first := own fuel (.closeObject :: rest) (by omega)
    simp only [memberTokens, List.cons_append, List.nil_append]
    simp only [parseMembers, named, first]
  | cons next members ih =>
    obtain ⟨other, later⟩ := next
    have own : ReadsBack quote name? value := each (name, value) List.mem_cons_self
    simp only [memberTokens, List.length_append, List.length_cons] at enough
    obtain ⟨fuel, rfl⟩ : ∃ less, fuel = less + 1 := ⟨fuel - 1, by omega⟩
    have first := own fuel (.comma :: .leaf (quote other) :: .colon ::
      (later.tokens quote ++ (memberTokens quote members ++ rest))) (by omega)
    have following := ih other later (fun m listed => each m (List.mem_cons_of_mem _ listed)) fuel
      (by simp only [List.length_append, List.length_cons]; omega)
    simp only [memberTokens, List.cons_append, List.append_assoc]
    simp only [parseMembers, named, first, following, Option.map_some]

/-- A list that is not empty is what its items are read as. -/
theorem parseDoc_array {fuel : Nat} {tokens rest : List (Token α)} {items : List (Doc σ α)}
    (begins : ∃ first more, tokens = first :: more ∧ first ≠ .closeArray)
    (read : parseItems name? fuel tokens = some (items, rest)) :
    parseDoc name? (fuel + 1) (.openArray :: tokens) = some (.array items, rest) := by
  obtain ⟨first, more, rfl, open'⟩ := begins
  rw [parseDoc]
  · rw [read]
    rfl
  · rintro after same
    exact open' (List.cons.inj same).1

/-- Some fuel is left to begin with, as every document has a token. -/
theorem readsBack_of_succ {t : Doc σ α}
    (reads : ∀ fuel rest, 2 * (t.tokens quote).length ≤ fuel + 1 →
      parseDoc name? (fuel + 1) (t.tokens quote ++ rest) = some (t, rest)) :
    ReadsBack quote name? t := by
  intro fuel rest enough
  obtain ⟨first, more, written, -⟩ := t.tokens_begin quote
  have positive : 0 < (t.tokens quote).length := by
    rw [written]
    exact Nat.succ_pos _
  obtain ⟨fuel, rfl⟩ : ∃ less, fuel = less + 1 := ⟨fuel - 1, by omega⟩
  exact reads fuel rest enough

/-- Where names are known by their quotes, every document is read as it was written. -/
theorem readsBack (named : ∀ s, name? (quote s) = some s) (t : Doc σ α) :
    ReadsBack quote name? t := by
  induction t with
  | leaf a =>
    refine readsBack_of_succ fun fuel rest _ => ?_
    simp only [Doc.tokens, List.cons_append, List.nil_append, parseDoc]
  | array items ih =>
    refine readsBack_of_succ fun fuel rest enough => ?_
    cases items with
    | nil => simp only [Doc.tokens, List.cons_append, List.nil_append, parseDoc]
    | cons item items =>
      simp only [Doc.tokens, List.length_cons] at enough
      have read := parseItems_tokens item items ih fuel rest (by omega)
      simp only [Doc.tokens, List.cons_append, List.append_assoc]
      refine parseDoc_array ?_ read
      obtain ⟨first, more, written, apart⟩ := item.tokens_begin quote
      exact ⟨first, _, by rw [written, List.cons_append], apart⟩
  | object members ih =>
    refine readsBack_of_succ fun fuel rest enough => ?_
    cases members with
    | nil => simp only [Doc.tokens, List.cons_append, List.nil_append, parseDoc]
    | cons member members =>
      obtain ⟨name, value⟩ := member
      simp only [Doc.tokens, List.length_cons] at enough
      have read := parseMembers_tokens named name value members ih fuel rest
        (by simp only [List.length_cons]; omega)
      simp only [Doc.tokens, List.cons_append, List.append_assoc, parseDoc]
      rw [read]
      rfl

theorem parse_tokens (named : ∀ s, name? (quote s) = some s) (t : Doc σ α) :
    parse name? (t.tokens quote) = some t := by
  have read := readsBack named t _ [] le_rfl
  rw [List.append_nil] at read
  rw [parse, read]

end Back

end Documents
