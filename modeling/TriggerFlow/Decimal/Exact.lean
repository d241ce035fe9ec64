/-!
# The exact value of a double

Every finite double is a whole number times a power of two, and every decision about its decimal
digits is a comparison of such numbers. This module takes a double apart once, so that **the
modules that choose digits compute with whole numbers only** and never with the rounding operations
of `Float` itself.
-/

set_option autoImplicit false

namespace TriggerFlow.Decimal

/-- The size of a double without its sign. -/
inductive Magnitude where
  /-- The number `significand * 2 ^ exponent`; zero has significand zero. -/
  | finite (significand : Nat) (exponent : Int)
  | infinite
  | notANumber
  deriving DecidableEq, Repr

/-- The sign bit of a double, which zeros and infinities have too. -/
def isNegative (x : Float) : Bool :=
  1 <<< 63 ≤ x.toBits.toNat

/-- The size of a double: fifty-two stored bits of significand below eleven bits of exponent, the
highest exponent kept for what is not finite and the lowest for numbers without a leading one. -/
def magnitude (x : Float) : Magnitude :=
  let bits := x.toBits.toNat % (1 <<< 63)
  let fraction := bits % (1 <<< 52)
  match bits / (1 <<< 52) with
  | 0 => .finite fraction (-1074)
  | 2047 => if fraction = 0 then .infinite else .notANumber
  | stored => .finite (fraction + (1 <<< 52)) (stored - 1075)

/-- How many digits a whole number has in base ten; zero has one. -/
def decimalLength (n : Nat) : Nat :=
  (Nat.toDigits 10 n).length

end TriggerFlow.Decimal
