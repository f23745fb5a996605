import ResultSearch.Json.Basic

/-!
# JSON numbers

A number without fraction and exponent that fits 64 bits is an integer; minus zero is not. Every
other number is a floating-point number, computed from as many leading digits as fit 64 bits,
scaled once by a power of ten. Digits beyond those are dropped (they only move the exponent when
they stand before the point). For up to seventeen digits and moderate exponents this is the number
nearest to the decimal; a number beyond the floating-point range has no value.
-/

namespace ResultSearch.Json

/-- The parts of a written number: the digits before the point, those after it if there is a point,
and the exponent's sign and digits if there is one. -/
structure NumberText where
  negative : Bool
  whole : List Nat
  fraction : Option (List Nat)
  exponent : Option (Bool × List Nat)

/-- The largest number of 64 bits. -/
def word : Nat := 0xFFFFFFFFFFFFFFFF

/-- The leading digits that fit 64 bits and what is left of the digits. -/
def gather (n : Nat) : List Nat → Nat × List Nat
  | [] => (n, [])
  | d :: rest => if n * 10 + d ≤ word then gather (n * 10 + d) rest else (n, d :: rest)

/-- Ten to a power, for the powers that a floating-point number can hold. -/
def powerOfTen (k : Nat) : Float := Float.ofScientific 1 false k

/-- `f * 10 ^ e` by one multiplication or division, or `none` beyond the range. A large negative
exponent is taken in steps of 308 places, of which two reach zero. -/
def scale (f : Float) (e : Int) : Option Float :=
  if 0 ≤ e then
    if e ≤ 308 then
      let x := f * powerOfTen e.toNat
      if x.isInf then none else some x
    else if f == 0.0 then some f else none
  else if -308 ≤ e then some (f / powerOfTen (-e).toNat)
  else
    let f₁ := f / powerOfTen 308
    let e₁ := e + 308
    if f == 0.0 then some f
    else if -308 ≤ e₁ then some (f₁ / powerOfTen (-e₁).toNat)
    else
      let f₂ := f₁ / powerOfTen 308
      let e₂ := e₁ + 308
      if f₁ == 0.0 then some f₁
      else if -308 ≤ e₂ then some (f₂ / powerOfTen (-e₂).toNat)
      else some 0.0

/-- The largest exponent that is read digit by digit. -/
def exponentCap : Nat := 0x7FFFFFFF

/-- An exponent keeps to the integers of 32 bits. -/
def clampExponent (e : Int) : Int := max (-0x80000000) (min 0x7FFFFFFF e)

/-- The floating-point value of digits and a decimal exponent. -/
def toFloat (t : NumberText) (significand : Nat) (places : Int) : Option Float :=
  let magnitude : Option Float :=
    match t.exponent with
    | none => scale (Float.ofNat significand) places
    | some (minus, digits) =>
      let e := digits.foldl (fun n d => n * 10 + d) 0
      if e ≤ exponentCap then
        scale (Float.ofNat significand) (clampExponent (if minus then places - e else places + e))
      else if significand ≠ 0 ∧ !minus then none
      else some 0.0
  magnitude.map fun x => if t.negative then -x else x

/-- The value of a written number. -/
def ofNumberText (t : NumberText) : Json :=
  let (whole, dropped) := gather 0 t.whole
  let float (significand : Nat) (places : Int) : Json :=
    match toFloat t significand places with
    | some x => .float x.toBits
    | none => .unreadable
  match t.fraction with
  | some digits =>
    let (significand, rest) := gather whole digits
    float significand (dropped.length - (digits.length - rest.length : Nat))
  | none =>
    if dropped ≠ [] ∨ t.exponent.isSome then float whole dropped.length
    else if !t.negative then .int whole
    else if whole = 0 ∨ 0x8000000000000000 < whole then .float (-(Float.ofNat whole)).toBits
    else .int (-whole)

end ResultSearch.Json
