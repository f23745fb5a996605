import ResultSearch.Text.CaseTable

/-!
# Lower case

`lower` writes a text in small letters. Every character has its own small letters (one, or two for
the dotted capital I) except the capital sigma, which is a final sigma at the end of a word and a
plain one elsewhere; so the lower case of a text is not in general the lower case of its parts.
-/

namespace ResultSearch.Text

/-- The capital sigma. -/
def sigma : Char := 'Σ'

/-- The small letter of a capital beyond ASCII, by the table of capitals. -/
def tableSmall (n : Nat) : Option Nat :=
  (CaseTable.capitals.find? fun r =>
    decide (r.first ≤ n) && decide (n ≤ r.last) && (n - r.first) % r.step == 0).map
      fun r => ((n : Int) + r.shift).toNat

/-- The small letters of one character taken by itself. -/
def smallLetters (c : Char) : List Char :=
  if c.toNat < 0x80 then [c.toLower]
  else if c.toNat = 0x130 then ['i', Char.ofNat 0x307]
  else match tableSmall c.toNat with
    | some n => [Char.ofNat n]
    | none => [c]

/-- Whether a cased letter comes first once case-ignorable characters are skipped. -/
def startsCased (cs : List Char) : Bool :=
  match cs.dropWhile fun c => CaseTable.covers CaseTable.ignorable c.toNat with
  | [] => false
  | c :: _ => CaseTable.covers CaseTable.cased c.toNat

/-- The lower case of a text that follows `before`, which is given last character first. -/
def lowerFrom (before : List Char) : List Char → List Char
  | [] => []
  | c :: rest =>
    (if c = sigma then
      [if startsCased before && !startsCased rest then 'ς' else 'σ']
     else smallLetters c) ++ lowerFrom (c :: before) rest

/-- A text in small letters. -/
def lower (s : String) : String := String.ofList (lowerFrom [] s.toList)

/-- The ASCII capitals in small letters, all other characters as they are. -/
def lowerAscii (s : String) : String := String.ofList (s.toList.map Char.toLower)

/-- The ASCII small letters in capitals, all other characters as they are. -/
def upperAscii (s : String) : String := String.ofList (s.toList.map Char.toUpper)

/-- Whether `part` stands somewhere in `whole`. -/
def occursIn (part : List Char) : List Char → Bool
  | [] => part.isEmpty
  | c :: rest => part.isPrefixOf (c :: rest) || occursIn part rest

/-- Whether the text `part` stands somewhere in `whole`. -/
def contains (whole part : String) : Bool := occursIn part.toList whole.toList

/-- Whether `whole` begins with `part`. -/
def startsWith (whole part : String) : Bool := part.toList.isPrefixOf whole.toList

theorem occursIn_iff {part whole : List Char} : occursIn part whole = true ↔ part <:+: whole := by
  induction whole with
  | nil => cases part <;> simp [occursIn]
  | cons c rest ih =>
    simp [occursIn, ih, List.infix_cons_iff, List.isPrefixOf_iff_prefix]

end ResultSearch.Text
