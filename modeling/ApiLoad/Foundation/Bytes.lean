import Mathlib.Data.List.Basic

/-!
# Byte strings

The strings of Go. `utf8.ValidString` tells those that are a sequence of the encodings of code
points, none of them longer than necessary, a surrogate or too large.
-/
namespace ApiLoad.Foundation

abbrev Bytes := List UInt8

namespace Utf8

def isTail (c : UInt8) : Bool := 0x80 ≤ c && c ≤ 0xBF

/-- The second byte of an encoding of three or four bytes, after its first one. -/
def isSecond (first c : UInt8) : Bool :=
  if first = 0xE0 then 0xA0 ≤ c && c ≤ 0xBF
  else if first = 0xED then 0x80 ≤ c && c ≤ 0x9F
  else if first = 0xF0 then 0x90 ≤ c && c ≤ 0xBF
  else if first = 0xF4 then 0x80 ≤ c && c ≤ 0x8F
  else isTail c

def validString : Bytes → Bool
  | [] => true
  | a :: text =>
    if a < 0x80 then validString text
    else match text with
    | [] => false
    | b :: text =>
      if 0xC2 ≤ a && a ≤ 0xDF then isTail b && validString text
      else match text with
      | [] => false
      | c :: text =>
        if 0xE0 ≤ a && a ≤ 0xEF then isSecond a b && isTail c && validString text
        else match text with
        | [] => false
        | d :: text =>
          0xF0 ≤ a && a ≤ 0xF4 && isSecond a b && isTail c && isTail d && validString text

theorem validString_ascii {text : Bytes} (h : ∀ c ∈ text, c < 128) : validString text = true := by
  induction text with
  | nil => rfl
  | cons c text ih =>
    obtain ⟨small, rest⟩ := List.forall_mem_cons.mp h
    unfold validString
    rw [if_pos small, ih rest]

/-- A character of each length, an overlong one and half a surrogate pair. -/
example : validString [0x61, 0xC3, 0xA4, 0xE2, 0x82, 0xAC, 0xF0, 0x9F, 0x98, 0x80] = true ∧
    validString [0xC0, 0xAF] = false ∧ validString [0xED, 0xA0, 0x80] = false := by decide +kernel

end Utf8

end ApiLoad.Foundation
