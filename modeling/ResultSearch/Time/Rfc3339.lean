import ResultSearch.Time.Timestamp
import ResultSearch.Text.Blank

/-!
# Timestamps as text

RFC 3339. Written in UTC: `2024-01-02T03:04:05Z`, with as many of 3, 6 or 9 places of the second as
the fraction needs, and a sign before a year that does not have four digits. Read somewhat more
freely: blanks may stand around numbers, numbers need no leading zeros, the date and the time may
be parted by a blank, the zone may be `UTC`, and a year may have a sign and then any number of
digits.
-/

namespace ResultSearch.Timestamp

/-- A number in at least `width` digits. -/
def padded (width n : Nat) : List Char :=
  let ds := Nat.toDigits 10 n
  List.replicate (width - ds.length) '0' ++ ds

/-- A year in four digits; one that needs more, or is negative, has a sign. -/
def writeYear (y : Int) : List Char :=
  if 0 ≤ y ∧ y ≤ 9999 then padded 4 y.toNat
  else (if 0 ≤ y then '+' else '-') :: padded 4 y.natAbs

/-- The fraction of a second in the fewest groups of three places. -/
def writeFraction (nanos : Nat) : List Char :=
  if nanos = 0 then []
  else if nanos % 1000000 = 0 then '.' :: padded 3 (nanos / 1000000)
  else if nanos % 1000 = 0 then '.' :: padded 6 (nanos / 1000)
  else '.' :: padded 9 nanos

/-- The text of a point in time. -/
def write (t : Timestamp) : String :=
  let days := t.seconds / secondsPerDay
  let inDay := (t.seconds - days * secondsPerDay).toNat
  let d := dateOf days
  let leap := decide (1000000000 ≤ t.nanos)
  let second := inDay % 60 + (if leap then 1 else 0)
  let nanos := if leap then t.nanos - 1000000000 else t.nanos
  String.ofList (writeYear d.year ++ ['-'] ++ padded 2 d.month ++ ['-'] ++ padded 2 d.day ++ ['T'] ++
    padded 2 (inDay / 3600) ++ [':'] ++ padded 2 (inDay / 60 % 60) ++ [':'] ++ padded 2 second ++
    writeFraction nanos ++ ['Z'])

/-! ## Reading -/

/-- Up to `most` decimal digits at the front. -/
def takeDigits : (most : Nat) → List Char → List Nat × List Char
  | 0, cs => ([], cs)
  | _ + 1, [] => ([], [])
  | most + 1, c :: rest =>
    if c.isDigit then
      let (ds, rest) := takeDigits most rest
      ((c.toNat - '0'.toNat) :: ds, rest)
    else ([], c :: rest)

/-- The number that decimal digits spell. -/
def ofDigits (ds : List Nat) : Nat := ds.foldl (fun n d => n * 10 + d) 0

/-- A number of one to `most` digits after blanks. -/
def number (most : Nat) (cs : List Char) : Option (Nat × List Char) :=
  match takeDigits most (Text.skipBlank cs) with
  | ([], _) => none
  | (ds, rest) => some (ofDigits ds, rest)

/-- A year: four digits at most, or a sign and any number of digits. -/
def year (cs : List Char) : Option (Int × List Char) :=
  match Text.skipBlank cs with
  | '-' :: rest =>
    match takeDigits rest.length rest with
    | ([], _) => none
    | (ds, rest) => some (-(ofDigits ds : Int), rest)
  | '+' :: rest =>
    match takeDigits rest.length rest with
    | ([], _) => none
    | (ds, rest) => some (ofDigits ds, rest)
  | rest => (number 4 rest).map fun p => ((p.1 : Int), p.2)

/-- A separator after blanks. -/
def separator (c : Char) (cs : List Char) : Option (List Char) :=
  match Text.skipBlank cs with
  | c' :: rest => if c' = c then some rest else none
  | [] => none

/-- The fraction of a second, if a point follows: nine digits count, further ones are skipped. -/
def fraction (cs : List Char) : Option (Nat × List Char) :=
  match cs with
  | '.' :: rest =>
    match takeDigits 9 rest with
    | ([], _) => none
    | (ds, rest) => some (ofDigits ds * Nat.pow 10 (9 - ds.length), rest.dropWhile Char.isDigit)
  | _ => some (0, cs)

/-- A number of exactly two digits, as zones have them. -/
def twoDigits (cs : List Char) : Option (Nat × List Char) :=
  match cs with
  | a :: b :: rest =>
    if a.isDigit && b.isDigit then
      some ((a.toNat - '0'.toNat) * 10 + (b.toNat - '0'.toNat), rest)
    else none
  | _ => none

/-- The distance of a zone from UTC in seconds. -/
def zone (cs : List Char) : Option (Int × List Char) :=
  match cs with
  | [] => none
  | c :: rest =>
    if c = 'Z' ∨ c = 'z' then some (0, rest)
    else if (cs.take 3).map Char.toUpper = ['U', 'T', 'C'] then some (0, cs.drop 3)
    else if c = '+' ∨ c = '-' ∨ c = Char.ofNat 0x2212 then do
      let (hours, rest) ← twoDigits rest
      let (minutes, rest) ← twoDigits (rest.dropWhile fun c => c = ':' || Text.isBlank c)
      if 59 < minutes then none
      else
        let seconds : Int := hours * 3600 + minutes * 60
        return (if c = '+' then seconds else -seconds, rest)
    else none

/-- The point in time of a date, a time of day and a zone, if there is one. -/
def ofParts (date : Date) (hour minute second nanos : Nat) (offset : Int) : Option Timestamp :=
  if !date.isValid ∨ 23 < hour ∨ 59 < minute ∨ 60 < second ∨ offset.natAbs ≥ 86400 then none
  else
    let leap := decide (second = 60)
    let inDay : Int := hour * 3600 + minute * 60 + (if leap then 59 else second : Nat)
    let seconds := daysOf date * secondsPerDay + inDay - offset
    let utc := dateOf (seconds / secondsPerDay)
    if minYear ≤ utc.year ∧ utc.year ≤ maxYear then
      some ⟨seconds, if leap then nanos + 1000000000 else nanos⟩
    else none

/-- The point in time that a text names. -/
def parse? (s : String) : Option Timestamp := do
  let (y, cs) ← year s.toList
  let cs ← separator '-' cs
  let (month, cs) ← number 2 cs
  let cs ← separator '-' cs
  let (day, cs) ← number 2 cs
  let cs ← match cs with
    | c :: rest => if c = 'T' ∨ c = 't' ∨ c = ' ' then some rest else none
    | [] => none
  let (hour, cs) ← number 2 cs
  let cs ← separator ':' cs
  let (minute, cs) ← number 2 cs
  let cs ← separator ':' cs
  let (second, cs) ← number 2 cs
  let (nanos, cs) ← fraction cs
  let (offset, cs) ← zone (Text.skipBlank cs)
  if (Text.skipBlank cs).isEmpty then
    ofParts ⟨y, month, day⟩ hour minute second nanos offset
  else none

end ResultSearch.Timestamp
