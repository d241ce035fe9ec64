import TriggerFlow.Json.Fault
import TriggerFlow.Text.Digits

/-!
# Numbers inside JSON

A whole number that fits in sixty-four bits is kept as it is. Any other becomes a double, and not
always the nearest one: **its first digits, as many as fit in sixty-four bits, are turned into a
double, which is then multiplied or divided by a power of ten once**. Both steps round. For a
significand below two to the fifty-third and a power below ten to the twenty-third nothing but the
last step rounds, and the result is the nearest double.
-/

set_option autoImplicit false

namespace TriggerFlow.Json

/-- A number as it was read. -/
inductive Number where
  /-- From zero up to `2 ^ 64 - 1`. -/
  | natural (n : Nat)
  /-- From `-2 ^ 63` up to `-1`; the field is the opposite. -/
  | negative (n : Nat)
  | real (x : Float)
  deriving Repr

def Number.met : Number → Met
  | .natural n => .integer n
  | .negative n => .integer (-n)
  | .real x => .number x

/-- A whole number below `2 ^ 64` as a double. -/
def ofSignificand (n : Nat) : Float :=
  (UInt64.ofNat n).toFloat

/-- A number as a double; minus zero keeps its sign. -/
def Number.toFloat : Number → Float
  | .natural n => ofSignificand n
  | .negative n => -ofSignificand n
  | .real x => x

/-! ## The value of the digits -/

/-- Takes digits into a significand as long as it stays below `2 ^ 64`; the rest is left. -/
def absorb : Nat → List Char → Nat × List Char
  | significand, [] => (significand, [])
  | significand, c :: cs =>
    let next := significand * 10 + Text.digitValue c
    if next < 1 <<< 64 then absorb next cs else (significand, c :: cs)

/-- A double times a power of ten, `none` if the result is too large. Powers are divided out in
steps of `10 ^ 308`, the largest power of ten that is a double. -/
def scale (x : Float) (exponent : Int) : Option Float :=
  if exponent.natAbs ≤ 308 then
    if 0 ≤ exponent then
      let y := x * Float.ofScientific 1 false exponent.natAbs
      if y.isInf then none else some y
    else some (x / Float.ofScientific 1 false exponent.natAbs)
  else if x == 0.0 then some x
  else if 0 ≤ exponent then none
  else scale (x / Float.ofScientific 1 false 308) (exponent + 308)
termination_by exponent.natAbs
decreasing_by omega

/-- A significand, a power of ten and a sign as a double. -/
def toDouble (negative : Bool) (significand : Nat) (exponent : Int) : Except Fault Number :=
  match scale (ofSignificand significand) exponent with
  | none => .error .malformed
  | some x => .ok (.real (if negative then -x else x))

/-! ## Reading -/

/-- The exponent after its mark: an optional sign and at least one digit. -/
def readExponent (cs : List Char) : Except Fault (Int × List Char) :=
  let (negative, cs) := match cs with
    | '+' :: rest => (false, rest)
    | '-' :: rest => (true, rest)
    | _ => (false, cs)
  let digits := cs.takeWhile Text.isDigit
  let rest := cs.dropWhile Text.isDigit
  match digits with
  | [] => .error (if rest = [] then .ended else .malformed)
  | _ =>
    let n := Text.decimalValue digits
    .ok (if negative then -n else n, rest)

/-- What follows the digits before and after the point: the exponent, if there is one. An exponent
of more than thirty-one bits makes any number but zero too large, or else nothing. -/
def finish (negative : Bool) (significand : Nat) (exponent : Int) (cs : List Char) :
    Except Fault (Number × List Char) :=
  match cs with
  | c :: rest =>
    if c = 'e' ∨ c = 'E' then
      match readExponent rest with
      | .error e => .error e
      | .ok (n, rest) =>
        if 1 <<< 31 ≤ n.natAbs then
          if significand ≠ 0 ∧ 0 ≤ n then .error .malformed
          else .ok (.real (if negative then -0.0 else 0.0), rest)
        else (toDouble negative significand (exponent + n)).map (·, rest)
    else (toDouble negative significand exponent).map (·, cs)
  | [] => (toDouble negative significand exponent).map (·, cs)

/-- The digits after a point, at least one. Digits that no longer fit are passed over. -/
def readFraction (negative : Bool) (significand : Nat) (exponent : Int) (cs : List Char) :
    Except Fault (Number × List Char) :=
  let digits := cs.takeWhile Text.isDigit
  let rest := cs.dropWhile Text.isDigit
  match digits with
  | [] => .error (if rest = [] then .ended else .malformed)
  | _ =>
    let (significand, left) := absorb significand digits
    finish negative significand (exponent - (digits.length - left.length)) rest

/-- Whether digits may stand before the point: at least one, and no zero before another digit. -/
def isWhole : List Char → Bool
  | [] => false
  | '0' :: _ :: _ => false
  | _ => true

/-- A number after its sign. Digits that no longer fit count as zeros. -/
def readUnsigned (negative : Bool) (cs : List Char) : Except Fault (Number × List Char) :=
  let digits := cs.takeWhile Text.isDigit
  let rest := cs.dropWhile Text.isDigit
  if digits = [] then .error (if rest = [] then .ended else .malformed)
  else if ¬ isWhole digits then .error .malformed
  else
    let (significand, left) := absorb 0 digits
    match rest with
    | '.' :: fraction => readFraction negative significand left.length fraction
    | _ =>
      if left = [] ∧ ¬ (rest.head? = some 'e' ∨ rest.head? = some 'E') then
        if negative then
          if significand = 0 ∨ 1 <<< 63 < significand then
            .ok (.real (-ofSignificand significand), rest)
          else .ok (.negative significand, rest)
        else .ok (.natural significand, rest)
      else finish negative significand left.length rest

/-- A number from its sign or first digit on. -/
def readNumber : List Char → Except Fault (Number × List Char)
  | '-' :: rest => readUnsigned true rest
  | cs => readUnsigned false cs

/-- Passes over the exponent of a number that is not decoded, if there is one. -/
def skipExponent : List Char → Except Fault (List Char)
  | [] => .ok []
  | c :: rest =>
    if c = 'e' ∨ c = 'E' then
      match readExponent rest with
      | .error _ => .error .malformed
      | .ok (_, rest) => .ok rest
    else .ok (c :: rest)

/-- Passes over a number of any size. It has to be complete: a number that breaks off is malformed
even where the text ends. -/
def skipNumber (cs : List Char) : Except Fault (List Char) :=
  let cs := if cs.head? = some '-' then cs.tail else cs
  if isWhole (cs.takeWhile Text.isDigit) then
    match cs.dropWhile Text.isDigit with
    | '.' :: fraction =>
      if fraction.takeWhile Text.isDigit = [] then .error .malformed
      else skipExponent (fraction.dropWhile Text.isDigit)
    | rest => skipExponent rest
  else .error .malformed

end TriggerFlow.Json
