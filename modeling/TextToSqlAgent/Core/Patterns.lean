import TextToSqlAgent.Core.Python
import TextToSqlAgent.Library.Regex

/-!
# Python's regular expressions

Sets of characters as `re` compares them. What a word is outside ASCII is a
parameter.
-/

namespace Patterns

open Python Regex

/-- Over the characters of a list, and not over all there are. -/
scoped instance (priority := high) decidableForallMem (l : List Char) (p : Char → Prop)
    [DecidablePred p] : Decidable (∀ c ∈ l, p c) :=
  List.decidableBAll p l

scoped instance (priority := high) decidableForallMemOption (o : Option Char) (p : Char → Prop)
    [DecidablePred p] : Decidable (∀ c ∈ o, p c) :=
  Option.decidableForallMem o

/-- The characters that are not of ASCII and match a letter of it, whatever the case. -/
def otherCases : Char → List Char
  | 'i' => ['\u0130', '\u0131']
  | 'k' => ['\u212a']
  | 's' => ['\u017f']
  | _ => []

/-- Whether a character matches a lower-case one under `IGNORECASE`. -/
def ignores (lower c : Char) : Bool := c.toLower = lower || (otherCases lower).contains c

/-- A text in lower case, in any case. -/
def ignoringCase (text : String) : List (Char → Bool) := text.toList.map ignores

def exactly (text : String) : List (Char → Bool) := text.toList.map fun own c => own = c

/-- `\w`. -/
structure Words where
  isWord : Char → Bool
  ascii : ∀ c, c.toNat < 128 → isWord c = (c.isAlphanum || c = '_')
  spaces : ∀ c, isSpace c = true → isWord c = false
  cased : ∀ lower, ∀ c ∈ otherCases lower, isWord c = true

/-- Words for fixed inputs: outside ASCII, the other cases of its letters alone. -/
def plainWords : Words where
  isWord c := if c.toNat < 128 then c.isAlphanum || c = '_' else
    "\u0130\u0131\u212a\u017f".toList.contains c
  ascii c low := if_pos low
  spaces c space := by
    split
    · rename_i low
      exact ascii_cases (fun c => isSpace c = true →
        (c.isAlphanum || decide (c = '_')) = false) (by decide) low space
    · rw [Bool.eq_false_iff]
      intro listed
      have members : c ∈ "\u0130\u0131\u212a\u017f".toList := by simpa using listed
      have blank : ∀ d ∈ "\u0130\u0131\u212a\u017f".toList, isSpace d = false := by decide
      rw [blank c members] at space
      cases space
  cased lower c listed := by
    rw [otherCases.eq_def] at listed
    split at listed
    all_goals
      simp only [List.mem_cons, List.not_mem_nil, or_false] at listed
    · rcases listed with rfl | rfl <;> decide
    · subst listed
      decide
    · subst listed
      decide

/-- A text written in any case of its letters. -/
def Spells (text : String) (taken : List Char) : Prop :=
  List.Forall₂ (fun lower c => ignores lower c = true) text.toList taken

theorem forall₂_ignoringCase_iff {text : String} {taken : List Char} :
    List.Forall₂ (fun set c => set c = true) (ignoringCase text) taken ↔ Spells text taken := by
  rw [ignoringCase, List.forall₂_map_left_iff, Spells]

instance (text : String) (taken : List Char) : Decidable (Spells text taken) :=
  decidable_of_iff (takes (ignoringCase text) taken = some (taken, [])) (by
    rw [takes_iff, forall₂_ignoringCase_iff, List.append_nil, eq_self, true_and])

theorem forall₂_exactly_iff {text : String} {taken : List Char} :
    List.Forall₂ (fun set c => set c = true) (exactly text) taken ↔ taken = text.toList := by
  rw [exactly, List.forall₂_map_left_iff]
  simp only [decide_eq_true_eq]
  rw [List.forall₂_eq_eq_eq, eq_comm]

end Patterns
