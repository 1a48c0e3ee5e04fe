import Mathlib.Data.List.Basic

/-!
# JavaScript strings

A JavaScript string is a sequence of UTF-16 code units, surrogates paired or
not, and `length` counts the units. Text the server sends is a sequence of
Unicode characters; `utf16` is what the client's decoder makes of it.
-/

namespace Utf16

abbrev JsString := List UInt16

/-- One character as one code unit, or as a surrogate pair. -/
def utf16Char (c : Char) : JsString :=
  if c.toNat < 0x10000 then [UInt16.ofNat c.toNat]
  else [UInt16.ofNat (0xD800 + (c.toNat - 0x10000) / 0x400),
    UInt16.ofNat (0xDC00 + (c.toNat - 0x10000) % 0x400)]

def utf16 (s : List Char) : JsString := s.flatMap utf16Char

def js (s : String) : JsString := utf16 s.toList

def LF : UInt16 := 10
def CR : UInt16 := 13
def SPACE : UInt16 := 32
def COLON : UInt16 := 58

@[simp]
theorem utf16_append (s t : List Char) : utf16 (s ++ t) = utf16 s ++ utf16 t :=
  List.flatMap_append

/-- A code unit below the surrogates stands for the character of that number. -/
theorem mem_utf16Char {n : Nat} (low : n < 0xD800) (c : Char) :
    UInt16.ofNat n ∈ utf16Char c ↔ c.toNat = n := by
  have hc : c.toNat < 0x110000 := by
    have := c.valid
    rcases this with h | h
    · exact Nat.lt_trans h (by decide)
    · exact h.2
  rw [utf16Char]
  split
  · rename_i small
    simp only [List.mem_singleton, ← UInt16.toNat_inj, UInt16.toNat_ofNat']
    omega
  · simp only [List.mem_cons, List.not_mem_nil, or_false, ← UInt16.toNat_inj,
      UInt16.toNat_ofNat']
    omega

theorem mem_utf16 {n : Nat} (low : n < 0xD800) (s : List Char) :
    UInt16.ofNat n ∈ utf16 s ↔ ∃ c ∈ s, c.toNat = n := by
  simp only [utf16, List.mem_flatMap, mem_utf16Char low]

end Utf16
