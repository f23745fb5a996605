/-!
# Floating-point numbers from decimals

The binary floating-point number nearest to a decimal, a tie going to the even neighbour. Beyond the
range it is infinite.
-/

namespace ResultSearch.Decimal

/-- No decimal with so many places before the point is finite, and none with so many zeros after it
differs from zero. -/
def farPlaces : Int := 400

/-- The number nearest to `digits * 10 ^ places`. -/
def nearest (negative : Bool) (digits : Nat) (places : Int) : Float :=
  let magnitude : Float :=
    if digits = 0 then 0
    else
      let leading : Int := (Nat.toDigits 10 digits).length + places
      if farPlaces < leading then 1 / 0
      else if leading < -farPlaces then 0
      else if 0 ≤ places then Float.ofScientific digits false places.toNat
      else Float.ofScientific digits true (-places).toNat
  if negative then -magnitude else magnitude

end ResultSearch.Decimal
