import TriggerFlow.Decimal.Shortest

/-!
# How a number is laid out

Three places write doubles, each with rules of its own: saved states, messages about
configuration, and the summary of a run. What they decide differently is one record, `Layout`; what
they share, the digits, is `Decimal.shortest`. The summary asks for a fixed number of places
instead, and there **the exact value is rounded once, a tie to the even neighbour**.
-/

set_option autoImplicit false

namespace TriggerFlow.Decimal

/-- What a format decides about its numbers. -/
structure Layout where
  /-- The places of the first digit for which no exponent is written. -/
  isPositional : Int → Bool
  tie : Tie
  /-- The texts of what is not finite. -/
  infinite : String
  notANumber : String

/-- Zeros on the left up to a width. -/
def padZeros (width : Nat) (s : String) : String :=
  String.ofList (List.replicate (width - s.length) '0') ++ s

/-- Digits without an exponent, with at least one on each side of the point. -/
def Digits.positional (d : Digits) : String :=
  let ds := Nat.toDigits 10 d.coefficient
  if 0 ≤ d.exponent then
    String.ofList (ds ++ List.replicate d.exponent.toNat '0') ++ ".0"
  else
    let places := (-d.exponent).toNat
    let padded := List.replicate (places + 1 - ds.length) '0' ++ ds
    let whole := padded.length - places
    String.ofList (padded.take whole) ++ "." ++ String.ofList (padded.drop whole)

/-- One digit, the others after a point if there are any, and a signed exponent. -/
def Digits.scientific (d : Digits) : String :=
  let mantissa := match Nat.toDigits 10 d.coefficient with
    | [] => "0"
    | [c] => c.toString
    | c :: cs => c.toString ++ "." ++ String.ofList cs
  let sign := if d.place < 0 then "-" else "+"
  mantissa ++ "e" ++ sign ++ toString d.place.natAbs

/-- The text of a double in a layout. -/
def Layout.render (l : Layout) (x : Float) : String :=
  let sign := if isNegative x then "-" else ""
  match magnitude x with
  | .notANumber => l.notANumber
  | .infinite => sign ++ l.infinite
  | .finite 0 _ => sign ++ "0.0"
  | .finite significand exponent =>
    let d := shortest l.tie significand exponent
    sign ++ if l.isPositional d.place then d.positional else d.scientific

/-- Every place positional and a tie away from zero: the layout of messages, where a number is read
by a person. -/
def plain : Layout where
  isPositional := fun _ => true
  tie := .away
  infinite := "inf"
  notANumber := "NaN"

/-- The quotient of two numbers rounded to the nearest whole one, a tie to the even neighbour. -/
def roundDiv (numerator denominator : Nat) : Nat :=
  let below := numerator / denominator
  let left := 2 * (numerator % denominator)
  if denominator < left || (left = denominator && Tie.toEven.goesUp below) then below + 1 else below

/-- The text of a double with a fixed number of places after the point, at least one. -/
def fixed (places : Nat) (x : Float) : String :=
  let sign := if isNegative x then "-" else ""
  match magnitude x with
  | .notANumber => "NaN"
  | .infinite => sign ++ "inf"
  | .finite significand exponent =>
    let one := Nat.pow 10 places
    let scaled := roundDiv (significand <<< exponent.toNat * one) (1 <<< (-exponent).toNat)
    sign ++ toString (scaled / one) ++ "." ++ padZeros places (toString (scaled % one))

end TriggerFlow.Decimal
