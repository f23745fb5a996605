import ResultSearch.Decimal.Nearest
import ResultSearch.Toml.Value

/-!
# TOML numbers, dates and times

Integers of 64 bits in base ten, sixteen, eight or two, floating-point numbers, and dates and times in
the form of RFC 3339. Underscores may stand between digits. Every reader gives back the characters
that follow.
-/

namespace ResultSearch.Toml

/-- The value of a digit in a base. -/
def digit? (base : Nat) (c : Char) : Option Nat :=
  let n := c.toNat
  let value :=
    if 0x30 ≤ n ∧ n ≤ 0x39 then n - 0x30
    else if 0x41 ≤ n ∧ n ≤ 0x46 then n - 0x41 + 10
    else if 0x61 ≤ n ∧ n ≤ 0x66 then n - 0x61 + 10
    else base
  if value < base then some value else none

/-- The digits after a first one; a single underscore may stand before each. -/
def moreDigits (base : Nat) : List Char → Option (List Nat × List Char)
  | [] => some ([], [])
  | c :: rest =>
    match digit? base c with
    | some d => do
      let (ds, rest) ← moreDigits base rest
      return (d :: ds, rest)
    | none =>
      if c = '_' then
        match rest with
        | [] => none
        | c :: rest => do
          let d ← digit? base c
          let (ds, rest) ← moreDigits base rest
          return (d :: ds, rest)
      else some ([], c :: rest)

/-- At least one digit. -/
def digits (base : Nat) : List Char → Option (List Nat × List Char)
  | [] => none
  | c :: rest => do
    let d ← digit? base c
    let (ds, rest) ← moreDigits base rest
    return (d :: ds, rest)

/-- The number that digits spell. -/
def ofDigits (base : Nat) (ds : List Nat) : Nat := ds.foldl (fun n d => n * base + d) 0

/-- An integer, if 64 bits hold it. -/
def int64? (n : Int) : Option Toml :=
  if -0x8000000000000000 ≤ n ∧ n ≤ 0x7FFFFFFFFFFFFFFF then some (.int n) else none

/-- The digits before the point: a zero stands alone. -/
def wholeDigits (cs : List Char) : Option (List Nat × List Char) :=
  match cs with
  | '0' :: rest => some ([0], rest)
  | cs => digits 10 cs

/-- The digits of an exponent with its sign, if there is an exponent. -/
def exponent (cs : List Char) : Option (Option Int × List Char) :=
  match cs with
  | c :: rest =>
    if c = 'e' ∨ c = 'E' then
      match rest with
      | '-' :: rest => do
        let (ds, rest) ← digits 10 rest
        return (some (-ofDigits 10 ds), rest)
      | '+' :: rest => do
        let (ds, rest) ← digits 10 rest
        return (some (ofDigits 10 ds), rest)
      | rest => do
        let (ds, rest) ← digits 10 rest
        return (some (ofDigits 10 ds), rest)
    else some (none, cs)
  | [] => some (none, [])

/-- A floating-point number; one that is too large is an error, one that is too small is not. -/
def nearest? (negative : Bool) (significand : List Nat) (places : Int) : Option Toml :=
  let x := Decimal.nearest negative (ofDigits 10 significand) places
  if x.isInf ∧ !negative then none else some (.float x.toBits)

/-- A number in base ten after its sign. -/
def decimal (negative : Bool) (cs : List Char) : Option (Toml × List Char) := do
  let (whole, cs) ← wholeDigits cs
  match cs with
  | '.' :: rest =>
    let (fraction, rest) ← digits 10 rest
    let (e, rest) ← exponent rest
    return (← nearest? negative (whole ++ fraction) (e.getD 0 - fraction.length), rest)
  | cs =>
    let (e, rest) ← exponent cs
    match e with
    | some e => return (← nearest? negative whole e, rest)
    | none =>
      let n : Int := ofDigits 10 whole
      return (← int64? (if negative then -n else n), rest)

/-- An integer in another base. -/
def inBase (base : Nat) (cs : List Char) : Option (Toml × List Char) := do
  let (ds, rest) ← digits base cs
  return (← int64? (ofDigits base ds), rest)

/-- What is no number, or infinite. -/
def special? (negative : Bool) : List Char → Option (Toml × List Char)
  | 'i' :: 'n' :: 'f' :: rest =>
    some (.float (if negative then 0xFFF0000000000000 else 0x7FF0000000000000), rest)
  | 'n' :: 'a' :: 'n' :: rest =>
    some (.float (if negative then 0xFFF8000000000000 else 0x7FF8000000000000), rest)
  | _ => none

/-- A number after its sign. -/
def signed (negative : Bool) (cs : List Char) : Option (Toml × List Char) :=
  match special? negative cs with
  | some r => some r
  | none => decimal negative cs

/-! ## Dates and times -/

/-- A number of exactly `width` digits between two bounds. -/
def fixed (width lo hi : Nat) (cs : List Char) : Option (Nat × List Char) := do
  let front := cs.take width
  if front.length = width then
    let n := ofDigits 10 (← front.mapM (digit? 10))
    if lo ≤ n ∧ n ≤ hi then return (n, cs.drop width) else none
  else none

/-- What follows one given character. -/
def sign (c : Char) : List Char → Option (List Char)
  | d :: rest => if d = c then some rest else none
  | [] => none

/-- A time of day after its hour and the colon: minute, second and perhaps a fraction. -/
def timeRest (cs : List Char) : Option (List Char) := do
  let (_, cs) ← fixed 2 0 59 cs
  let (_, cs) ← fixed 2 0 60 (← sign ':' cs)
  match cs with
  | '.' :: rest =>
    match rest.takeWhile Char.isDigit with
    | [] => return cs
    | _ :: _ => return rest.dropWhile Char.isDigit
  | cs => return cs

/-- The zone of a date with a time, if it is given. -/
def zone (cs : List Char) : Option (List Char) :=
  match cs with
  | c :: rest =>
    if c = 'Z' ∨ c = 'z' then some rest
    else if c = '+' ∨ c = '-' then do
      let (_, cs) ← fixed 2 0 23 rest
      let (_, cs) ← fixed 2 0 59 (← sign ':' cs)
      return cs
    else some cs
  | [] => some []

/-- Whether a year has a leap day. -/
def isLeap (year : Nat) : Bool := year % 4 == 0 && (year % 100 != 0 || year % 400 == 0)

/-- The number of days of a month. -/
def daysInMonth (year month : Nat) : Nat :=
  if month = 2 then if isLeap year then 29 else 28
  else if month = 4 ∨ month = 6 ∨ month = 9 ∨ month = 11 then 30
  else 31

/-- A date, and after a separator perhaps a time. -/
def date (cs : List Char) : Option (Toml × List Char) := do
  let (year, cs) ← fixed 4 0 9999 cs
  let (month, cs) ← fixed 2 1 12 (← sign '-' cs)
  let (_, cs) ← fixed 2 1 (daysInMonth year month) (← sign '-' cs)
  match cs with
  | c :: rest =>
    if c = 'T' ∨ c = 't' ∨ c = ' ' then
      match (fixed 2 0 23 rest).bind fun r => sign ':' r.2 with
      | some rest => return (.moment, ← zone (← timeRest rest))
      | none => return (.moment, cs)
    else return (.moment, cs)
  | [] => return (.moment, [])

/-- A time of day. -/
def time (cs : List Char) : Option (Toml × List Char) := do
  let (_, cs) ← fixed 2 0 23 cs
  return (.moment, ← timeRest (← sign ':' cs))

/-- Whether so many digits come first and then a sign. -/
def digitsThen (count : Nat) (c : Char) (cs : List Char) : Bool :=
  (cs.take count).length = count && (cs.take count).all Char.isDigit && cs[count]? = some c

/-- A number, a date or a time, which begins with a sign, a digit or a name. -/
def scalar (cs : List Char) : Option (Toml × List Char) :=
  if digitsThen 4 '-' cs then date cs
  else if digitsThen 2 ':' cs then time cs
  else
    match cs with
    | '+' :: rest => signed false rest
    | '-' :: rest => signed true rest
    | '0' :: 'x' :: rest => inBase 16 rest
    | '0' :: 'o' :: rest => inBase 8 rest
    | '0' :: 'b' :: rest => inBase 2 rest
    | cs => signed false cs

end ResultSearch.Toml
