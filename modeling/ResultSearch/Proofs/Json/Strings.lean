import ResultSearch.Json.Parser
import ResultSearch.Json.Printer
import ResultSearch.Proofs.Text.Utf8

/-!
# Strings in JSON texts

A text is written between quotes with its control characters, quotes and backslashes escaped, and
reading that gives the text again. Writing goes over characters and reading over bytes; what the two
share is that the bytes of an escaped character are read as pieces that stand for its bytes.

* `Spells`: bytes that are read as a part of a string, with the bytes that they stand for.
* `spells_escapeChar`: a character, escaped where it has to be, stands for itself.
* `value_printString`, `parse_print_str`: a string is read from where it is written.
-/

namespace ResultSearch.Json

/-! ## Parts of a string -/

/-- Inside a string `written` is read as pieces that stand for `bytes`, whatever follows. -/
def Spells (written bytes : List UInt8) : Prop :=
  ∃ ps : List Piece,
    (∀ rest, stringBody (written ++ rest) =
      (stringBody rest).map fun (more, rest) => (ps ++ more, rest)) ∧
    ∀ more, pieceBytes? (ps ++ more) = (pieceBytes? more).map (bytes ++ ·)

namespace Spells

variable {b e a₁ a₂ a₃ a₄ : UInt8} {d₁ d₂ d₃ d₄ n : Nat} {w w₁ w₂ bs bs₁ bs₂ : List UInt8}

theorem nil : Spells [] [] :=
  ⟨[], fun _ => Option.map_id_apply.symm, fun _ => Option.map_id_apply.symm⟩

theorem append (h₁ : Spells w₁ bs₁) (h₂ : Spells w₂ bs₂) : Spells (w₁ ++ w₂) (bs₁ ++ bs₂) := by
  obtain ⟨ps₁, hread₁, hbytes₁⟩ := h₁
  obtain ⟨ps₂, hread₂, hbytes₂⟩ := h₂
  refine ⟨ps₁ ++ ps₂, fun rest => ?_, fun more => ?_⟩
  · simp only [List.append_assoc, hread₁, hread₂, Option.map_map, Function.comp_def]
  · simp only [List.append_assoc, hbytes₁, hbytes₂, Option.map_map, Function.comp_def]

/-- A byte that is no quote, no backslash and no control character. -/
theorem byte (hquote : b ≠ 0x22) (hslash : b ≠ 0x5C) (hcontrol : ¬ b < 0x20) : Spells [b] [b] := by
  refine ⟨[.byte b], fun rest => ?_, fun more => ?_⟩
  · rw [List.singleton_append]
    conv => lhs; unfold stringBody
    rw [if_neg hquote, if_neg hslash, if_neg hcontrol]
    cases stringBody rest <;> rfl
  · rw [List.singleton_append, pieceBytes?]
    cases pieceBytes? more <;> rfl

theorem bytes (h : ∀ b ∈ bs, b ≠ 0x22 ∧ b ≠ 0x5C ∧ ¬ b < 0x20) : Spells bs bs := by
  induction bs with
  | nil => exact nil
  | cons b bs ih =>
    obtain ⟨hquote, hslash, hcontrol⟩ := h b List.mem_cons_self
    exact (byte hquote hslash hcontrol).append (ih fun b hb => h b (List.mem_cons_of_mem _ hb))

/-- A backslash with one letter or sign. -/
theorem short (hunit : e ≠ 0x75) (h : shortEscape? e = some b) : Spells [0x5C, e] [b] := by
  refine ⟨[.byte b], fun rest => ?_, fun more => ?_⟩
  · rw [List.cons_append, List.singleton_append]
    conv => lhs; unfold stringBody
    rw [if_neg (by decide), if_pos rfl]
    dsimp only
    rw [if_neg hunit, h]
    cases stringBody rest <;> rfl
  · rw [List.singleton_append, pieceBytes?]
    cases pieceBytes? more <;> rfl

/-- A backslash with the digits of a character that is no part of a surrogate pair. -/
theorem unit (h₁ : hexDigit? a₁ = some d₁) (h₂ : hexDigit? a₂ = some d₂)
    (h₃ : hexDigit? a₃ = some d₃) (h₄ : hexDigit? a₄ = some d₄)
    (hn : ((d₁ * 16 + d₂) * 16 + d₃) * 16 + d₄ = n) (hlt : n < 0xD800) :
    Spells [0x5C, 0x75, a₁, a₂, a₃, a₄] (charBytes n) := by
  refine ⟨[.unit n], fun rest => ?_, fun more => ?_⟩
  · simp only [List.cons_append, List.nil_append]
    conv => lhs; unfold stringBody
    rw [if_neg (by decide), if_pos rfl]
    dsimp only
    rw [if_pos rfl, h₁, h₂, h₃, h₄]
    dsimp only [Option.bind_eq_bind, Option.bind_some]
    rw [hn]
    cases stringBody rest <;> rfl
  · rw [List.singleton_append, pieceBytes?.eq_def]
    dsimp only
    rw [if_neg (by omega), if_neg (by omega)]
    cases pieceBytes? more <;> rfl

/-- A part of a string is all of it if the closing quote follows. -/
theorem stringBody_eq (h : Spells w bs) (rest : List UInt8) :
    ∃ ps, stringBody (w ++ 0x22 :: rest) = some (ps, rest) ∧ pieceBytes? ps = some bs := by
  obtain ⟨ps, hread, hbytes⟩ := h
  refine ⟨ps, ?_, ?_⟩
  · rw [hread, stringBody.eq_def]
    exact congrArg (fun ps => some (ps, rest)) (List.append_nil ps)
  · rw [← List.append_nil ps, hbytes, pieceBytes?, Option.map_some, List.append_nil]

end Spells

/-! ## Characters -/

/-- The byte of a hexadecimal digit. -/
def hexByte (d : Nat) : UInt8 := UInt8.ofNat (if d < 10 then 0x30 + d else 0x57 + d)

theorem hexDigit?_hexByte : ∀ d < 16, hexDigit? (hexByte d) = some d := by decide

/-- The bytes of a control character that no short escape stands for. -/
theorem controlBytes : ∀ n < 0x20,
    (['\x5c', 'u', '0', '0'] ++ (if n < 16 then ['0'] else []) ++
        Nat.toDigits 16 n).flatMap String.utf8EncodeChar =
      [0x5C, 0x75, hexByte 0, hexByte 0, hexByte (n / 16), hexByte (n % 16)] := by
  decide

theorem charBytes_toNat (c : Char) : charBytes c.toNat = String.utf8EncodeChar c := by
  rw [charBytes, Char.ofNat_toNat, Text.Utf8.encode_eq, String.toList_singleton,
    List.flatMap_singleton]

/-- The bytes of a character beyond ASCII are no ASCII characters. -/
theorem utf8EncodeChar_cases (c : Char) :
    c.toNat < 0x80 ∧ String.utf8EncodeChar c = [UInt8.ofNat c.toNat] ∨
      ∀ b ∈ String.utf8EncodeChar c, 0x80 ≤ b.toNat := by
  have hnat (n : Nat) : (UInt8.ofNat n).toNat = n % 256 := UInt8.toNat_ofNat'
  unfold String.utf8EncodeChar
  rw [← Char.toNat]
  dsimp only
  split
  · next h => exact .inl ⟨by omega, rfl⟩
  · refine .inr fun b hb => ?_
    split at hb
    · rcases List.mem_pair.1 hb with rfl | rfl <;> rw [hnat] <;> omega
    · split at hb
      · simp only [List.mem_cons, List.not_mem_nil, or_false] at hb
        rcases hb with rfl | rfl | rfl <;> rw [hnat] <;> omega
      · simp only [List.mem_cons, List.not_mem_nil, or_false] at hb
        rcases hb with rfl | rfl | rfl | rfl <;> rw [hnat] <;> omega

/-- A character that needs no escape. -/
theorem spells_plain {c : Char} (hquote : c ≠ '\x22') (hslash : c ≠ '\x5c')
    (hcontrol : 0x20 ≤ c.toNat) : Spells (String.utf8EncodeChar c) (String.utf8EncodeChar c) := by
  refine Spells.bytes fun b hb => ?_
  rcases utf8EncodeChar_cases c with ⟨hascii, hbytes⟩ | hbytes
  · rw [hbytes, List.mem_singleton] at hb
    have hnat : b.toNat = c.toNat := by rw [hb, Text.Utf8.toNat_byte (by omega)]
    have hne {k : Char} (hk : c ≠ k) : b.toNat ≠ k.toNat := fun heq =>
      hk (Char.toNat_inj.1 (hnat.symm.trans heq))
    refine ⟨fun heq => hne hquote (heq ▸ rfl), fun heq => hne hslash (heq ▸ rfl), fun hlt => ?_⟩
    have hlt : b.toNat < 0x20 := UInt8.lt_iff_toNat_lt.1 hlt
    omega
  · have hb := hbytes b hb
    refine ⟨?_, ?_, fun hlt => ?_⟩
    · rintro rfl
      exact absurd hb (by decide)
    · rintro rfl
      exact absurd hb (by decide)
    · have hlt : b.toNat < 0x20 := UInt8.lt_iff_toNat_lt.1 hlt
      omega

/-- A character stands for itself, escaped where it has to be. -/
theorem spells_escapeChar (c : Char) :
    Spells ((escapeChar c).flatMap String.utf8EncodeChar) (String.utf8EncodeChar c) := by
  have hc {n : Nat} (h : c.toNat = n) : c = Char.ofNat n := h ▸ (Char.ofNat_toNat c).symm
  unfold escapeChar
  dsimp only
  split
  · next h =>
    subst h
    exact Spells.short (by decide) rfl
  next hquote =>
  split
  · next h =>
    subst h
    exact Spells.short (by decide) rfl
  next hslash =>
  split
  · next h => exact hc h ▸ Spells.short (by decide) rfl
  split
  · next h => exact hc h ▸ Spells.short (by decide) rfl
  split
  · next h => exact hc h ▸ Spells.short (by decide) rfl
  split
  · next h => exact hc h ▸ Spells.short (by decide) rfl
  split
  · next h => exact hc h ▸ Spells.short (by decide) rfl
  split
  · next h =>
    rw [controlBytes _ h, ← charBytes_toNat]
    exact Spells.unit (hexDigit?_hexByte 0 (by decide)) (hexDigit?_hexByte 0 (by decide))
      (hexDigit?_hexByte _ (by omega)) (hexDigit?_hexByte _ (by omega)) (by omega) (by omega)
  · next h =>
    rw [List.flatMap_singleton]
    exact spells_plain hquote hslash (Nat.le_of_not_lt h)

theorem spells_escaped (cs : List Char) :
    Spells ((cs.flatMap escapeChar).flatMap String.utf8EncodeChar)
      (cs.flatMap String.utf8EncodeChar) := by
  induction cs with
  | nil => exact Spells.nil
  | cons c cs ih =>
    rw [List.flatMap_cons, List.flatMap_append, List.flatMap_cons]
    exact (spells_escapeChar c).append ih

/-! ## Whole strings -/

/-- A string is read from where it is written, whatever follows. -/
theorem value_printString (s : String) (fuel level : Nat) (rest : List UInt8) :
    value (fuel + 1) level (Text.Utf8.encode (printString s) ++ rest) = some (.str s, rest) := by
  obtain ⟨ps, hread, hbytes⟩ := (spells_escaped s.toList).stringBody_eq rest
  have hwritten : Text.Utf8.encode (printString s) ++ rest =
      0x22 :: ((s.toList.flatMap escapeChar).flatMap String.utf8EncodeChar ++ 0x22 :: rest) := by
    have hquote : String.utf8EncodeChar '\x22' = [0x22] := by decide
    simp [Text.Utf8.encode_eq, printString, hquote]
  have htext : pieceText? ps = some s := by
    rw [pieceText?, hbytes, Option.bind_some, ← Text.Utf8.encode_eq, Text.Utf8.decodeText_encode]
  have hspace (bs : List UInt8) : skipSpace (0x22 :: bs) = 0x22 :: bs := rfl
  rw [hwritten, value, hspace]
  dsimp only
  rw [if_pos rfl, hread]
  dsimp only [Option.bind_eq_bind, Option.bind_some]
  rw [htext]
  rfl

/-- A string is read from its text. -/
theorem parse_print_str (s : String) : parse (print (.str s)) = some (.str s) := by
  have hread := value_printString s (2 * (Text.Utf8.encode (printString s)).length + 1) 0 []
  rw [List.append_nil] at hread
  rw [print, parse, parseBytes, hread]
  rfl

end ResultSearch.Json
