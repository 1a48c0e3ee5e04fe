import Mathlib.Data.List.Dedup
import Mathlib.Data.List.Sort
import TextToSqlAgent.Core.Exceptions
import TextToSqlAgent.Core.Python
import TextToSqlAgent.Library.Dictionary

/-!
# The identifier boundary between a benchmark and PostgreSQL

Names are folded to lower case, and refused rather than rewritten where they
cannot be used as they are. What lower-casing does outside ASCII is a parameter.
-/

namespace Identifiers

open Python Exceptions

/-- What one character becomes in lower case: nothing outside ASCII turns into
ASCII alone, but for the Kelvin sign. -/
def LowersTo (c : Char) (piece : List Char) : Prop :=
  if c.toNat < 128 then piece = [c.toLower]
  else if c.toNat = 0x212A then piece = ['k']
  else ∃ d ∈ piece, 128 ≤ d.toNat

/-- `str.lower`, `str.upper` and `str.isprintable`. -/
structure Unicode where
  lower : String → String
  upper : String → String
  isPrintable : Char → Bool
  lower_pieces : ∀ s, ∃ pieces, List.Forall₂ LowersTo s.toList pieces ∧
    (lower s).toList = pieces.flatten

/-- Case for fixed inputs: outside ASCII, the Kelvin sign alone has another one. -/
def plainUnicode : Unicode where
  lower s := String.ofList (s.toList.map fun c =>
    if c.toNat < 128 then c.toLower else if c.toNat = 0x212A then 'k' else c)
  upper s := String.ofList (s.toList.map Char.toUpper)
  isPrintable c := 32 ≤ c.toNat && c.toNat ≠ 127
  lower_pieces s := by
    refine ⟨s.toList.map fun c =>
      [if c.toNat < 128 then c.toLower else if c.toNat = 0x212A then 'k' else c], ?_, ?_⟩
    · rw [List.forall₂_map_right_iff, List.forall₂_same]
      intro c _
      unfold LowersTo
      split_ifs with ascii kelvin
      · rfl
      · rfl
      · exact ⟨c, List.mem_singleton_self c, by omega⟩
    · rw [String.toList_ofList]
      induction s.toList with
      | nil => rfl
      | cons c rest ih => rw [List.map_cons, ih]; rfl

variable (unicode : Unicode)

/-- Hexadecimal digits, at least so many. -/
def hex (width n : Nat) : String :=
  let digits := Nat.toDigits 16 n
  String.ofList (List.replicate (width - digits.length) '0' ++ digits)

/-- One character of `repr(text)` between these quotes. -/
def reprChar (quote c : Char) : String :=
  let n := c.toNat
  if c = quote || c = '\\' then String.ofList ['\\', c]
  else if c = '\t' then "\\t"
  else if c = '\n' then "\\n"
  else if c = '\r' then "\\r"
  else if n < 32 || n = 127 then "\\x" ++ hex 2 n
  else if n < 127 || unicode.isPrintable c then String.ofList [c]
  else if n ≤ 0xFF then "\\x" ++ hex 2 n
  else if n ≤ 0xFFFF then "\\u" ++ hex 4 n
  else "\\U" ++ hex 8 n

/-- `repr(text)`. -/
def repr (text : String) : String :=
  let quote := if text.toList.contains '\'' && !text.toList.contains '"' then '"' else '\''
  String.ofList [quote] ++ String.join (text.toList.map (reprChar unicode quote)) ++
    String.ofList [quote]

/-- PostgreSQL truncates longer names. -/
def maxIdentifierBytes : Nat := 63

def forbidden : List Char := ['"', '\\']

def isAsciiPrintable (c : Char) : Bool := 0x20 ≤ c.toNat && c.toNat < 0x7F

/-- Whether a folded name may not hold the character. -/
def isOffending (c : Char) : Bool := forbidden.contains c || !isAsciiPrintable c

/-- The offending characters of a folded name, each once and in order. -/
def offending (folded : String) : List Char :=
  ((folded.toList.filter isOffending).dedup).insertionSort fun c d => c ≤ d

def unsafeIdentifier (message : String) : DomainError :=
  ⟨.unsafeIdentifierError, message, none, none⟩

/-- Fold one source name to the identifier that will represent it. -/
def toPgIdentifier (raw kind : String) : Except DomainError String :=
  let stripped := strip raw
  if stripped = "" then
    .error (unsafeIdentifier s!"{kind} name is empty or whitespace-only")
  else
    let folded := unicode.lower stripped
    let shownName := repr unicode raw
    match offending folded with
    | [] =>
      let encoded := folded.utf8ByteSize
      if encoded > maxIdentifierBytes then
        .error (unsafeIdentifier (s!"{kind} {shownName} is {encoded} bytes; PostgreSQL " ++
          s!"truncates at {maxIdentifierBytes} and two names sharing a prefix would " ++
          "truncate to the same identifier"))
      else .ok folded
    | characters =>
      let shown := ", ".intercalate (characters.map fun c =>
        if unicode.isPrintable c then repr unicode (String.ofList [c])
        else "U+" ++ (hex 4 c.toNat).toUpper)
      .error (unsafeIdentifier (s!"{kind} {shownName} contains characters that cannot be used " ++
        s!"safely: {shown}. " ++
        "It is refused rather than rewritten, because a rewrite that collides " ++
        "with another name merges two objects."))

/-- Source names to target identifiers. -/
structure IdentifierMap where
  kind : String
  forward : Dictionary String String

namespace IdentifierMap

/-- The loop of `build`, with the identifiers seen and the names they are of. -/
def buildFrom (kind : String) (forward seen : Dictionary String String) :
    List String → Except DomainError IdentifierMap
  | [] => .ok ⟨kind, forward⟩
  | raw :: rest => do
    let safe ← toPgIdentifier unicode raw kind
    match seen.get? safe with
    | some other =>
      if other ≠ raw then
        let first := repr unicode other
        let second := repr unicode raw
        let both := repr unicode safe
        .error (unsafeIdentifier (s!"{kind}s {first} and {second} both become {both}. " ++
          "Case-folding is required for gold SQL to resolve, so this " ++
          "database cannot be converted without changing what its " ++
          "queries mean."))
      else buildFrom kind (forward.set raw safe) (seen.set safe raw) rest
    | none => buildFrom kind (forward.set raw safe) (seen.set safe raw) rest

/-- Fold every name, refusing the first collision. -/
def build (raws : List String) (kind : String) : Except DomainError IdentifierMap :=
  buildFrom unicode kind .empty .empty raws

/-- The identifier for a source name. -/
def safe (map : IdentifierMap) (raw : String) : Except DomainError String :=
  match map.forward.get? raw with
  | some safe => .ok safe
  | none =>
    let kind := map.kind
    let shownName := repr unicode raw
    .error (unsafeIdentifier s!"{kind} {shownName} was not in the set this map was built from")

end IdentifierMap

/-- What is accepted is the stripped name in lower case. -/
theorem toPgIdentifier_ok {raw kind folded : String}
    (accepted : toPgIdentifier unicode raw kind = .ok folded) :
    folded = unicode.lower (strip raw) := by
  simp only [toPgIdentifier] at accepted
  split at accepted
  · cases accepted
  · split at accepted
    · split at accepted
      · cases accepted
      · exact (Except.ok.inj accepted).symm
    · cases accepted

end Identifiers
