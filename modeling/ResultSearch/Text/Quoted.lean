import ResultSearch.Text.PrintTable

/-!
# Quoted text

A text between quotes in which nothing is left that would not show: the quote itself and the
backslash stand after a backslash, the common control characters have short names, and a character
that does not print, or only extends the one before it, is written by its code point in
hexadecimal.
-/

namespace ResultSearch.Text

/-- The hexadecimal digits of a number, without leading zeros. -/
def hexDigits (n : Nat) : List Char := Nat.toDigits 16 n

/-- Whether a character shows by itself. -/
def prints (c : Char) : Bool :=
  let n := c.toNat
  if n < 0x80 then decide (0x20 ≤ n) && decide (n < 0x7F)
  else
    !(PrintTable.extending.any fun r => decide (r.1 ≤ n) && decide (n ≤ r.2)) &&
    !(PrintTable.unprintable.any fun r => decide (r.1 ≤ n) && decide (n ≤ r.2))

/-- One character as it stands between two `quote`s. -/
def escape (quote c : Char) : List Char :=
  let n := c.toNat
  if n = 0 then ['\x5c', '0']
  else if n = 9 then ['\x5c', 't']
  else if n = 13 then ['\x5c', 'r']
  else if n = 10 then ['\x5c', 'n']
  else if c = '\x5c' then ['\x5c', '\x5c']
  else if c = quote then ['\x5c', quote]
  else if prints c then [c]
  else ['\x5c', 'u', '\x7b'] ++ hexDigits n ++ ['\x7d']

/-- A text between double quotes. -/
def quoted (s : String) : String :=
  String.ofList (['\x22'] ++ s.toList.flatMap (escape '\x22') ++ ['\x22'])

/-- A character between single quotes. -/
def quotedChar (c : Char) : String :=
  String.ofList (['\x27'] ++ escape '\x27' c ++ ['\x27'])

example : quoted "a\x22b\n" = "\x22a\\\x22b\\n\x22" := by decide +kernel

end ResultSearch.Text
