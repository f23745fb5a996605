import ResultSearch.Json.Number
import ResultSearch.Text.Utf8

/-!
# Reading JSON texts

Strict JSON over bytes: white space only around tokens, no leading zeros, no raw control characters
in strings, nothing after the value. A part that is well formed but has no value is `unreadable`
(see the module on JSON values); arrays and objects may be nested 127 deep.
-/

namespace ResultSearch.Json

/-- How deeply arrays and objects that have a value may be nested. -/
def maxDepth : Nat := 127

/-- A character of a string as it is written: a byte, or a code unit given by its digits. -/
inductive Piece where
  | byte (b : UInt8)
  | unit (n : Nat)

/-- The bytes of a character. -/
def charBytes (n : Nat) : List UInt8 := Text.Utf8.encode (String.singleton (Char.ofNat n))

/-- The bytes that the pieces of a string stand for; half of a surrogate pair stands for none. -/
def pieceBytes? : List Piece → Option (List UInt8)
  | [] => some []
  | .byte b :: rest => do return b :: (← pieceBytes? rest)
  | .unit n :: rest =>
    if 0xD800 ≤ n ∧ n < 0xDC00 then
      match rest with
      | .unit m :: rest =>
        if 0xDC00 ≤ m ∧ m < 0xE000 then do
          return charBytes (0x10000 + (n - 0xD800) * 0x400 + (m - 0xDC00)) ++ (← pieceBytes? rest)
        else none
      | _ => none
    else if 0xDC00 ≤ n ∧ n < 0xE000 then none
    else do return charBytes n ++ (← pieceBytes? rest)

/-- The text that the pieces of a string spell. -/
def pieceText? (pieces : List Piece) : Option String :=
  (pieceBytes? pieces).bind Text.Utf8.decodeText

/-- White space between the parts of a document: blank, tab, line feed and carriage return. -/
def isSpace (b : UInt8) : Bool := b = 0x20 || b = 0x09 || b = 0x0A || b = 0x0D

/-- The bytes after white space. -/
def skipSpace (bs : List UInt8) : List UInt8 := bs.dropWhile isSpace

/-- The value of a decimal digit. -/
def digit? (b : UInt8) : Option Nat :=
  if 0x30 ≤ b ∧ b ≤ 0x39 then some (b.toNat - 0x30) else none

/-- The value of a hexadecimal digit. -/
def hexDigit? (b : UInt8) : Option Nat :=
  if 0x30 ≤ b ∧ b ≤ 0x39 then some (b.toNat - 0x30)
  else if 0x41 ≤ b ∧ b ≤ 0x46 then some (b.toNat - 0x41 + 10)
  else if 0x61 ≤ b ∧ b ≤ 0x66 then some (b.toNat - 0x61 + 10)
  else none

/-- The digits at the front of the bytes. -/
def takeDigits : List UInt8 → List Nat × List UInt8
  | [] => ([], [])
  | b :: rest =>
    match digit? b with
    | some d => let (ds, rest) := takeDigits rest; (d :: ds, rest)
    | none => ([], b :: rest)

/-- At least one digit. -/
def someDigits (bs : List UInt8) : Option (List Nat × List UInt8) :=
  match takeDigits bs with
  | ([], _) => none
  | p => some p

/-- The control character that a letter after a backslash stands for, or the sign itself. -/
def shortEscape? (b : UInt8) : Option UInt8 :=
  if b = 0x22 || b = 0x5C || b = 0x2F then some b
  else if b = 0x62 then some 0x08
  else if b = 0x66 then some 0x0C
  else if b = 0x6E then some 0x0A
  else if b = 0x72 then some 0x0D
  else if b = 0x74 then some 0x09
  else none

/-- The rest of a string after its opening quote, up to the closing one. -/
def stringBody : List UInt8 → Option (List Piece × List UInt8)
  | [] => none
  | b :: rest =>
    if b = 0x22 then some ([], rest)
    else if b = 0x5C then
      match rest with
      | [] => none
      | e :: rest =>
        if e = 0x75 then
          match rest with
          | a₁ :: a₂ :: a₃ :: a₄ :: rest => do
            let n := (((← hexDigit? a₁) * 16 + (← hexDigit? a₂)) * 16 + (← hexDigit? a₃)) * 16 +
              (← hexDigit? a₄)
            let (ps, rest) ← stringBody rest
            return (.unit n :: ps, rest)
          | _ => none
        else do
          let c ← shortEscape? e
          let (ps, rest) ← stringBody rest
          return (.byte c :: ps, rest)
    else if b < 0x20 then none
    else do
      let (ps, rest) ← stringBody rest
      return (.byte b :: ps, rest)

/-- The whole part of a number: one zero, or digits that do not begin with one. -/
def wholePart (bs : List UInt8) : Option (List Nat × List UInt8) := do
  let (ds, rest) ← someDigits bs
  if ds.head? = some 0 ∧ ds.length ≠ 1 then none else some (ds, rest)

/-- The digits after a point, if there is a point. -/
def fractionPart : List UInt8 → Option (Option (List Nat) × List UInt8)
  | 0x2E :: rest => do
    let (ds, rest) ← someDigits rest
    return (some ds, rest)
  | bs => some (none, bs)

/-- The sign and the digits of an exponent, if there is an exponent. -/
def exponentPart : List UInt8 → Option (Option (Bool × List Nat) × List UInt8)
  | [] => some (none, [])
  | b :: rest =>
    if b = 0x65 || b = 0x45 then
      match rest with
      | 0x2B :: rest => do
        let (ds, rest) ← someDigits rest
        return (some (false, ds), rest)
      | 0x2D :: rest => do
        let (ds, rest) ← someDigits rest
        return (some (true, ds), rest)
      | rest => do
        let (ds, rest) ← someDigits rest
        return (some (false, ds), rest)
    else some (none, b :: rest)

/-- A number after its sign. -/
def numberBody (negative : Bool) (bs : List UInt8) : Option (Json × List UInt8) := do
  let (whole, bs) ← wholePart bs
  let (fraction, bs) ← fractionPart bs
  let (exponent, bs) ← exponentPart bs
  return (ofNumberText ⟨negative, whole, fraction, exponent⟩, bs)

/-- A value nested too deeply is unreadable. -/
def atLevel (level : Nat) (j : Json) : Json := if level < maxDepth then j else .unreadable

/-- An object; unreadable if one of its keys is. -/
def object (members : List (Option String × Json)) : Json :=
  match members.mapM fun m => m.1.map fun k => (k, m.2) with
  | some ms => .obj ms
  | none => .unreadable

mutual

/-- One value at the front of the bytes; `level` arrays and objects are open around it. -/
def value : (fuel level : Nat) → List UInt8 → Option (Json × List UInt8)
  | 0, _, _ => none
  | fuel + 1, level, bs =>
    match skipSpace bs with
    | [] => none
    | b :: rest =>
      if b = 0x22 then do
        let (ps, rest) ← stringBody rest
        match pieceText? ps with
        | some s => return (.str s, rest)
        | none => return (.unreadable, rest)
      else if b = 0x5B then
        match skipSpace rest with
        | 0x5D :: rest => some (atLevel level (.arr []), rest)
        | rest => do
          let (items, rest) ← elements fuel (level + 1) rest
          return (atLevel level (.arr items), rest)
      else if b = 0x7B then
        match skipSpace rest with
        | 0x7D :: rest => some (atLevel level (.obj []), rest)
        | rest => do
          let (ms, rest) ← members fuel (level + 1) rest
          return (atLevel level (object ms), rest)
      else if b = 0x2D then numberBody true rest
      else if (digit? b).isSome then numberBody false (b :: rest)
      else
        match b :: rest with
        | 0x6E :: 0x75 :: 0x6C :: 0x6C :: rest => some (.null, rest)
        | 0x74 :: 0x72 :: 0x75 :: 0x65 :: rest => some (.bool true, rest)
        | 0x66 :: 0x61 :: 0x6C :: 0x73 :: 0x65 :: rest => some (.bool false, rest)
        | _ => none

/-- The values of an array up to its closing bracket. -/
def elements : (fuel level : Nat) → List UInt8 → Option (List Json × List UInt8)
  | 0, _, _ => none
  | fuel + 1, level, bs => do
    let (j, rest) ← value fuel level bs
    match skipSpace rest with
    | 0x2C :: rest => do
      let (js, rest) ← elements fuel level rest
      return (j :: js, rest)
    | 0x5D :: rest => return ([j], rest)
    | _ => none

/-- The members of an object up to its closing brace. -/
def members : (fuel level : Nat) → List UInt8 → Option (List (Option String × Json) × List UInt8)
  | 0, _, _ => none
  | fuel + 1, level, bs =>
    match skipSpace bs with
    | 0x22 :: rest => do
      let (ps, rest) ← stringBody rest
      match skipSpace rest with
      | 0x3A :: rest => do
        let (j, rest) ← value fuel level rest
        match skipSpace rest with
        | 0x2C :: rest => do
          let (ms, rest) ← members fuel level rest
          return ((pieceText? ps, j) :: ms, rest)
        | 0x7D :: rest => return ([(pieceText? ps, j)], rest)
        | _ => none
      | _ => none
    | _ => none

end

/-- The value of a text given as bytes. Every call of a reader within a call reads a byte or is
followed by one that does, so twice the length bounds the depth of calls. -/
def parseBytes (bs : List UInt8) : Option Json :=
  match value (2 * bs.length + 2) 0 bs with
  | some (j, rest) => if (skipSpace rest).isEmpty then some j else none
  | none => none

/-- The value of a text. -/
def parse (s : String) : Option Json := parseBytes (Text.Utf8.encode s)

end ResultSearch.Json
