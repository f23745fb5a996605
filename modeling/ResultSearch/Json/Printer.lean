import ResultSearch.Json.Basic
import ResultSearch.Decimal.Shortest

/-!
# Writing JSON texts

Compact: no white space outside strings, members in the order they have. Control characters,
quotes and backslashes are escaped, all other characters stand for themselves. A floating-point
number keeps a point, so that it is not read back as an integer.
-/

namespace ResultSearch.Json

/-- One character of a string. -/
def escapeChar (c : Char) : List Char :=
  let n := c.toNat
  if c = '\x22' then ['\x5c', '\x22']
  else if c = '\x5c' then ['\x5c', '\x5c']
  else if n = 0x08 then ['\x5c', 'b']
  else if n = 0x09 then ['\x5c', 't']
  else if n = 0x0A then ['\x5c', 'n']
  else if n = 0x0C then ['\x5c', 'f']
  else if n = 0x0D then ['\x5c', 'r']
  else if n < 0x20 then
    ['\x5c', 'u', '0', '0'] ++ (if n < 16 then ['0'] else []) ++ Nat.toDigits 16 n
  else [c]

/-- A string in quotes. -/
def printString (s : String) : String :=
  String.ofList ('\x22' :: (s.toList.flatMap escapeChar ++ ['\x22']))

/-- A floating-point number with its point; what is no number is `null`. -/
def printFloat (bits : UInt64) : String :=
  match Decimal.parts bits with
  | .nan => "null"
  | .infinite _ => "null"
  | _ =>
    let t := Decimal.textOfBits bits
    if t.toList.contains '.' then t else t ++ ".0"

/-- Texts with a comma between every two. -/
def commaSeparated : List String → String
  | [] => ""
  | [s] => s
  | s :: rest => s ++ "," ++ commaSeparated rest

mutual

/-- The text of a value; a part without a value is written as `null`. -/
def print : Json → String
  | .null => "null"
  | .bool true => "true"
  | .bool false => "false"
  | .int n => toString n
  | .float bits => printFloat bits
  | .str s => printString s
  | .arr items => "[" ++ commaSeparated (printItems items) ++ "]"
  | .obj members => "\x7b" ++ commaSeparated (printMembers members) ++ "\x7d"
  | .unreadable => "null"

/-- The texts of all items. -/
def printItems : List Json → List String
  | [] => []
  | j :: rest => print j :: printItems rest

/-- The texts of all members, each with its key. -/
def printMembers : List (String × Json) → List String
  | [] => []
  | (k, j) :: rest => (printString k ++ ":" ++ print j) :: printMembers rest

end

end ResultSearch.Json
