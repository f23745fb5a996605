/-!
# Characters from bytes

The strict reading of UTF-8: shortest forms only, no surrogates, nothing beyond the last code
point. `decode` fails on the first byte that does not fit.
-/

namespace ResultSearch.Text.Utf8

/-- Whether a byte continues a character, and with which six bits. -/
def continuation (b : UInt8) : Option Nat :=
  if 0x80 ≤ b.toNat ∧ b.toNat < 0xC0 then some (b.toNat - 0x80) else none

/-- A code point that is at least `least` and no surrogate. -/
def scalar (least n : Nat) : Option Char :=
  if least ≤ n then
    if h : n.isValidChar then some (Char.ofNatAux n h) else none
  else none

/-- The characters that the bytes spell, or nothing if they spell none. -/
def decode : List UInt8 → Option (List Char)
  | [] => some []
  | b :: rest =>
    let n := b.toNat
    if n < 0x80 then return Char.ofNat n :: (← decode rest)
    else if n < 0xC2 then none
    else if n < 0xE0 then
      match rest with
      | b₁ :: rest => do
        let c ← scalar 0x80 ((n - 0xC0) * 64 + (← continuation b₁))
        return c :: (← decode rest)
      | _ => none
    else if n < 0xF0 then
      match rest with
      | b₁ :: b₂ :: rest => do
        let c ← scalar 0x800
          (((n - 0xE0) * 64 + (← continuation b₁)) * 64 + (← continuation b₂))
        return c :: (← decode rest)
      | _ => none
    else if n < 0xF5 then
      match rest with
      | b₁ :: b₂ :: b₃ :: rest => do
        let c ← scalar 0x10000
          ((((n - 0xF0) * 64 + (← continuation b₁)) * 64 + (← continuation b₂)) * 64 +
            (← continuation b₃))
        return c :: (← decode rest)
      | _ => none
    else none

/-- The text that the bytes spell. -/
def decodeText (bytes : List UInt8) : Option String := (decode bytes).map String.ofList

/-- The bytes of a text. -/
def encode (s : String) : List UInt8 := s.toUTF8.toList

/-- The number of bytes of a text. -/
def size (s : String) : Nat := s.utf8ByteSize

end ResultSearch.Text.Utf8
