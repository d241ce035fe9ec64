import TriggerFlow.Decimal.Exact

/-!
# The fewest digits that read back

A number is saved with as few digits as tell it apart from its neighbours: of all decimals that
round to the double, **one with the least number of digits, and of those the nearest**; where two
are as near, the format says which. The decimals that round to it fill an interval around it; on the
grid of all decimals with a given number of digits it is enough to look at the two beside the value,
for if any point of the grid is in the interval then one of these is.
-/

set_option autoImplicit false

namespace TriggerFlow.Decimal

/-- A positive decimal `coefficient * 10 ^ exponent`. -/
structure Digits where
  coefficient : Nat
  exponent : Int
  deriving DecidableEq, Repr

/-- The place of the first digit: the decimal is at least `10 ^ place` and below ten times that. -/
def Digits.place (d : Digits) : Int :=
  d.exponent + decimalLength d.coefficient - 1

/-- Moves the zeros at the end of a coefficient into the exponent, at most `fuel` of them. -/
def Digits.stripZeros : Nat → Digits → Digits
  | 0, d => d
  | fuel + 1, d =>
    if d.coefficient ≠ 0 ∧ d.coefficient % 10 = 0 then
      stripZeros fuel ⟨d.coefficient / 10, d.exponent + 1⟩
    else d

/-- Which of two decimals is taken where a number lies midway between them. -/
inductive Tie where
  /-- The one with the even last digit. -/
  | toEven
  /-- The one that is further from zero. -/
  | away
  deriving DecidableEq, Repr

/-- Whether a tie goes to the upper one, where `below` is the coefficient of the lower one. -/
def Tie.goesUp (below : Nat) : Tie → Bool
  | .toEven => below % 2 = 1
  | .away => true

/-- The decimals that round to one double: three numerators over one denominator. -/
structure Interval where
  low : Nat
  value : Nat
  high : Nat
  denominator : Nat
  /-- Both ends round to the double itself. -/
  closed : Bool
  deriving DecidableEq, Repr

/-- Half a step up, and half a step down; the step below a power of two is half as long. The ends
belong to the double whose significand is even. -/
def interval (significand : Nat) (exponent : Int) : Interval :=
  let below := if significand = 1 <<< 52 ∧ exponent ≠ -1074 then 1 else 2
  let scale := 1 <<< (exponent - 2).toNat
  { low := (4 * significand - below) * scale
    value := 4 * significand * scale
    high := (4 * significand + 2) * scale
    denominator := 1 <<< (2 - exponent).toNat
    closed := significand % 2 = 0 }

/-- The place of the first digit of a positive quotient. -/
def placeOf (numerator denominator : Nat) : Int :=
  if denominator ≤ numerator then
    decimalLength (numerator / denominator) - 1
  else
    let zeros := decimalLength (denominator / numerator) - 1
    if numerator * Nat.pow 10 zeros = denominator then -zeros else -(zeros + 1)

/-- The best decimal with `count` digits, if one of the two beside the value is in the interval. -/
def Interval.onGrid (i : Interval) (tie : Tie) (first : Int) (count : Nat) : Option Digits :=
  let unit := first - count + 1
  let up := Nat.pow 10 unit.toNat
  let down := Nat.pow 10 (-unit).toNat
  let step := up * i.denominator
  let value := i.value * down
  let below := value / step
  let inside (c : Nat) : Bool :=
    if i.closed then i.low * down ≤ c * step && c * step ≤ i.high * down
    else i.low * down < c * step && c * step < i.high * down
  let nearerAbove : Bool :=
    let left := value - below * step
    let right := (below + 1) * step - value
    right < left || (right = left && tie.goesUp below)
  match inside below, inside (below + 1) with
  | false, false => none
  | true, false => some ⟨below, unit⟩
  | false, true => some ⟨below + 1, unit⟩
  | true, true => some ⟨if nearerAbove then below + 1 else below, unit⟩

/-- The fewest digits of a positive double; seventeen always suffice. -/
def shortest (tie : Tie) (significand : Nat) (exponent : Int) : Digits :=
  let i := interval significand exponent
  let first := placeOf i.value i.denominator
  match (List.range 17).findSome? fun n => i.onGrid tie first (n + 1) with
  | some d => d.stripZeros 20
  | none => ⟨0, 0⟩

end TriggerFlow.Decimal
