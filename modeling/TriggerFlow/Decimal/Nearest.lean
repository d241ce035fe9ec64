/-!
# From decimal to double

A decimal becomes the double nearest to it. **Beyond the range of doubles nothing is computed**: a
decimal with its first digit at the three hundred and tenth place or above is infinite, one with it
below the four hundredth after the point is zero, so a huge exponent costs nothing.
-/

set_option autoImplicit false

namespace TriggerFlow.Decimal

/-- The double nearest to `coefficient * 10 ^ exponent`. -/
def nearest (coefficient : Nat) (exponent : Int) : Float :=
  let place : Int := (Nat.toDigits 10 coefficient).length - 1 + exponent
  if coefficient = 0 ∨ place < -400 then 0.0
  else if 310 ≤ place then 1.0 / 0.0
  else Float.ofScientific coefficient (exponent < 0) exponent.natAbs

end TriggerFlow.Decimal
