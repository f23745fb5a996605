import Mathlib.Data.List.Basic
import ResultSearch.Text.Utf8

/-!
# Characters as bytes and back

The bytes of a text are those of its characters one after the other, and reading them gives the
characters again.

* `encode_eq`: the bytes of a text.
* `decode_append`: a character is read from its bytes, whatever follows them.
* `decodeText_encode`: a text is read from its bytes.
-/

namespace ResultSearch.Text.Utf8

theorem toList_loop (bytes : ByteArray) (i : Nat) (read : List UInt8) :
    ByteArray.toList.loop bytes i read = read.reverse ++ bytes.data.toList.drop i := by
  fun_induction ByteArray.toList.loop bytes i read with
  | case1 i read hi ih =>
    have hlength : i < bytes.data.toList.length := by simpa using hi
    have hget : bytes.get! i = bytes.data.toList[i] := by
      show bytes.data[i]! = _
      rw [getElem!_pos bytes.data i hi]
      rfl
    rw [ih, List.reverse_cons, List.append_assoc, List.singleton_append, hget,
      List.getElem_cons_drop]
  | case2 i read hi =>
    have hlength : bytes.data.toList.length ≤ i := by simpa using hi
    rw [List.drop_eq_nil_of_le hlength, List.append_nil]

theorem encode_eq (s : String) : encode s = s.toList.flatMap String.utf8EncodeChar := by
  rw [encode, ByteArray.toList, toList_loop, List.reverse_nil, List.nil_append, List.drop_zero,
    String.toUTF8_eq_toByteArray, ← String.utf8Encode_toList, List.utf8Encode,
    List.toList_data_toByteArray]

/-! ## One character -/

section Character

variable {b b₁ b₂ b₃ : UInt8} {rest : List UInt8} {c : Char} {x y z least : Nat}

theorem toNat_byte {n : Nat} (h : n < 256) : (UInt8.ofNat n).toNat = n := by
  rw [UInt8.toNat_ofNat', Nat.mod_eq_of_lt h]

theorem continuation_byte (n : Nat) :
    continuation (UInt8.ofNat (n % 0x40 + 0x80)) = some (n % 0x40) := by
  have hlt : n % 0x40 < 0x40 := Nat.mod_lt _ (by decide)
  rw [continuation, toNat_byte (by omega), if_pos (by omega), Nat.add_sub_cancel]

theorem scalar_toNat (h : least ≤ c.toNat) : scalar least c.toNat = some c := by
  have hvalid : c.toNat.isValidChar := c.valid
  have hc := Char.ofNat_toNat c
  rw [Char.ofNat, dif_pos hvalid] at hc
  rw [scalar, if_pos h, dif_pos hvalid, hc]

theorem decode_of_one (hb : b.toNat < 0x80) :
    decode (b :: rest) = (decode rest).map (Char.ofNat b.toNat :: ·) := by
  conv => lhs; unfold decode
  rw [if_pos hb]
  cases decode rest <;> rfl

theorem decode_of_two (hlo : 0xC2 ≤ b.toNat) (hhi : b.toNat < 0xE0)
    (h₁ : continuation b₁ = some x) (hc : scalar 0x80 ((b.toNat - 0xC0) * 64 + x) = some c) :
    decode (b :: b₁ :: rest) = (decode rest).map (c :: ·) := by
  conv => lhs; unfold decode
  rw [if_neg (by omega), if_neg (by omega), if_pos hhi]
  dsimp only
  rw [h₁]
  dsimp only [Option.bind_eq_bind, Option.bind_some]
  rw [hc]
  cases decode rest <;> rfl

theorem decode_of_three (hlo : 0xE0 ≤ b.toNat) (hhi : b.toNat < 0xF0)
    (h₁ : continuation b₁ = some x) (h₂ : continuation b₂ = some y)
    (hc : scalar 0x800 (((b.toNat - 0xE0) * 64 + x) * 64 + y) = some c) :
    decode (b :: b₁ :: b₂ :: rest) = (decode rest).map (c :: ·) := by
  conv => lhs; unfold decode
  rw [if_neg (by omega), if_neg (by omega), if_neg (by omega), if_pos hhi]
  dsimp only
  rw [h₁, h₂]
  dsimp only [Option.bind_eq_bind, Option.bind_some]
  rw [hc]
  cases decode rest <;> rfl

theorem decode_of_four (hlo : 0xF0 ≤ b.toNat) (hhi : b.toNat < 0xF5)
    (h₁ : continuation b₁ = some x) (h₂ : continuation b₂ = some y) (h₃ : continuation b₃ = some z)
    (hc : scalar 0x10000 ((((b.toNat - 0xF0) * 64 + x) * 64 + y) * 64 + z) = some c) :
    decode (b :: b₁ :: b₂ :: b₃ :: rest) = (decode rest).map (c :: ·) := by
  conv => lhs; unfold decode
  rw [if_neg (by omega), if_neg (by omega), if_neg (by omega), if_neg (by omega), if_pos hhi]
  dsimp only
  rw [h₁, h₂, h₃]
  dsimp only [Option.bind_eq_bind, Option.bind_some]
  rw [hc]
  cases decode rest <;> rfl

end Character

/-- A character is read from its bytes, whatever follows them. -/
theorem decode_append (c : Char) (rest : List UInt8) :
    decode (String.utf8EncodeChar c ++ rest) = (decode rest).map (c :: ·) := by
  have hmax : c.toNat < 0x110000 := by
    have hvalid : c.toNat.isValidChar := c.valid
    unfold Nat.isValidChar at hvalid
    omega
  unfold String.utf8EncodeChar
  rw [← Char.toNat]
  dsimp only
  split
  · next h =>
    have hb : (UInt8.ofNat c.toNat).toNat = c.toNat := toNat_byte (by omega)
    rw [List.singleton_append, decode_of_one (by omega), hb, Char.ofNat_toNat]
  · split
    · have hb : (UInt8.ofNat (c.toNat / 64 % 0x20 + 0xc0)).toNat = c.toNat / 64 + 0xc0 := by
        rw [toNat_byte (by omega)]
        omega
      refine decode_of_two (by omega) (by omega) (continuation_byte _) ?_
      rw [hb, Nat.add_sub_cancel, Nat.div_add_mod']
      exact scalar_toNat (by omega)
    · split
      · have hb : (UInt8.ofNat (c.toNat / 4096 % 0x10 + 0xe0)).toNat = c.toNat / 4096 + 0xe0 := by
          rw [toNat_byte (by omega)]
          omega
        refine decode_of_three (by omega) (by omega) (continuation_byte _) (continuation_byte _) ?_
        have hn : (c.toNat / 4096 * 64 + c.toNat / 64 % 0x40) * 64 + c.toNat % 0x40 = c.toNat := by
          omega
        rw [hb, Nat.add_sub_cancel, hn]
        exact scalar_toNat (by omega)
      · have hb : (UInt8.ofNat (c.toNat / 262144 % 0x08 + 0xf0)).toNat =
            c.toNat / 262144 + 0xf0 := by
          rw [toNat_byte (by omega)]
          omega
        refine decode_of_four (by omega) (by omega) (continuation_byte _) (continuation_byte _)
          (continuation_byte _) ?_
        have hn : ((c.toNat / 262144 * 64 + c.toNat / 4096 % 0x40) * 64 +
            c.toNat / 64 % 0x40) * 64 + c.toNat % 0x40 = c.toNat := by
          omega
        rw [hb, Nat.add_sub_cancel, hn]
        exact scalar_toNat (by omega)

theorem decode_encode (cs : List Char) : decode (cs.flatMap String.utf8EncodeChar) = some cs := by
  induction cs with
  | nil => rfl
  | cons c cs ih => rw [List.flatMap_cons, decode_append, ih, Option.map_some]

theorem decodeText_encode (s : String) : decodeText (encode s) = some s := by
  rw [decodeText, encode_eq, decode_encode, Option.map_some, String.ofList_toList]

end ResultSearch.Text.Utf8
