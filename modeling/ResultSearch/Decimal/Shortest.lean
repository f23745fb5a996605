/-!
# Shortest decimals

The decimal text of a binary floating-point number: the fewest digits that read back as the same
number and, among those, the ones nearest to it, written positionally however large or small the
number is.

A finite number is `m * 2 ^ q`. The reals that round to it form an interval around it, which holds
its ends exactly when `m` is even. For 1, 2, … digits the two neighbours of the number on that
decimal grid are tried; the first grid with a neighbour in the interval gives the digits.
-/

namespace ResultSearch.Decimal

/-- A positive binary number `m * 2 ^ q`; `tight` says that the next number below is only half as
far away as the next one above. -/
structure Binary where
  m : Nat
  q : Int
  tight : Bool

/-- A positive decimal `digits * 10 ^ exponent`. -/
structure Scaled where
  digits : Nat
  exponent : Int
  deriving DecidableEq

/-- The number `a * 2 ^ e` over a common power of two, as numerator and denominator. -/
def ratio (a : Nat) (e : Int) : Nat × Nat := (a * Nat.pow 2 e.toNat, Nat.pow 2 (-e).toNat)

/-- Twice-doubled ends of the interval of a number: its lower end, itself and its upper end are
these times `2 ^ (q - 2)`. -/
def Binary.quarters (b : Binary) : Nat × Nat × Nat :=
  (4 * b.m - (if b.tight then 1 else 2), 4 * b.m, 4 * b.m + 2)

/-- Whether `c * 10 ^ e` lies in the interval of `b`. -/
def Binary.admits (b : Binary) (c : Nat) (e : Int) : Bool :=
  let (lo, _, hi) := b.quarters
  let (l, den) := ratio lo (b.q - 2)
  let (h, _) := ratio hi (b.q - 2)
  let x := c * Nat.pow 10 e.toNat * den
  let s := Nat.pow 10 (-e).toNat
  if b.m % 2 = 0 then decide (l * s ≤ x) && decide (x ≤ h * s)
  else decide (l * s < x) && decide (x < h * s)

/-- The exponent `k` with `10 ^ (k - 1) ≤ n / d < 10 ^ k`. -/
def magnitude (n d : Nat) : Int :=
  let guess : Int := (Nat.toDigits 10 n).length - (Nat.toDigits 10 d).length
  let reaches (k : Int) : Bool := decide (d * Nat.pow 10 k.toNat ≤ n * Nat.pow 10 (-k).toNat)
  if reaches guess then guess + 1 else guess

/-- The best decimal on the grid of step `10 ^ e`, if one lies in the interval. Of two equally near
ones the greater is taken. -/
def Binary.onGrid (b : Binary) (e : Int) : Option Scaled :=
  let (v, den) := ratio b.quarters.2.1 (b.q - 2)
  let n := v * Nat.pow 10 (-e).toNat
  let d := den * Nat.pow 10 e.toNat
  let below := n / d
  let fromBelow := n - below * d
  let nearerBelow := decide (2 * fromBelow < d)
  match b.admits below e, b.admits (below + 1) e with
  | true, true => some ⟨if nearerBelow then below else below + 1, e⟩
  | true, false => some ⟨below, e⟩
  | false, true => some ⟨below + 1, e⟩
  | false, false => none

/-- The same decimal with up to `n` zeros taken from the end of its digits. -/
def Scaled.dropZeros : Nat → Scaled → Scaled
  | 0, s => s
  | n + 1, s => if s.digits % 10 = 0 then dropZeros n ⟨s.digits / 10, s.exponent + 1⟩ else s

/-- The fewest digits that read back; seventeen always suffice. A neighbour may be a power of ten,
one place longer than its grid says, so the zeros at its end go. -/
def Binary.shortest (b : Binary) : Scaled :=
  let (v, den) := ratio b.quarters.2.1 (b.q - 2)
  let k := magnitude v den
  (((List.range 17).findSome? fun i => b.onGrid (k - (i + 1 : Nat))).getD ⟨0, 0⟩).dropZeros 17

/-- A decimal written positionally. -/
def Scaled.positional (s : Scaled) : List Char :=
  let ds := Nat.toDigits 10 s.digits
  if 0 ≤ s.exponent then ds ++ List.replicate s.exponent.toNat '0'
  else
    let places := (-s.exponent).toNat
    if places < ds.length then
      ds.take (ds.length - places) ++ '.' :: ds.drop (ds.length - places)
    else '0' :: '.' :: List.replicate (places - ds.length) '0' ++ ds

/-- The kinds of value that 64 bits stand for. -/
inductive Parts where
  | nan
  | infinite (negative : Bool)
  | zero (negative : Bool)
  | finite (negative : Bool) (value : Binary)

/-- Take apart the 64 bits of a number: sign, eleven bits of exponent, fifty-two of fraction. -/
def parts (bits : UInt64) : Parts :=
  let n := bits.toNat
  let negative := decide (0x8000000000000000 ≤ n)
  let exponent : Nat := n / 0x10000000000000 % 0x800
  let fraction : Nat := n % 0x10000000000000
  if exponent = 2047 then if fraction = 0 then .infinite negative else .nan
  else if exponent = 0 then
    if fraction = 0 then .zero negative else .finite negative ⟨fraction, -1074, false⟩
  else
    .finite negative ⟨0x10000000000000 + fraction, (exponent : Int) - 1075, fraction = 0 && exponent ≠ 1⟩

/-- The text of a number given by its bits. -/
def textOfBits (bits : UInt64) : String :=
  let signed (negative : Bool) (cs : List Char) : String :=
    String.ofList (if negative then '-' :: cs else cs)
  match parts bits with
  | .nan => "NaN"
  | .infinite negative => signed negative "inf".toList
  | .zero negative => signed negative ['0']
  | .finite negative b => signed negative b.shortest.positional

/-- The text of a floating-point number. -/
def text (x : Float) : String := textOfBits x.toBits

end ResultSearch.Decimal
