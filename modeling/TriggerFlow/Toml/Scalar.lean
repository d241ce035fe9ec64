import TriggerFlow.Decimal.Nearest
import TriggerFlow.Toml.Text
import TriggerFlow.Toml.Value

/-!
# Numbers, dates and times in TOML

A value that starts with a digit or a sign is one word, and **the word as a whole is a whole number,
a decimal, a date or a time, or nothing at all**. Underscores may stand between two digits. Only a
date and a time with a blank between them are two words.
-/

set_option autoImplicit false

namespace TriggerFlow.Toml

/-! ## Numbers -/

/-- Digits without the underscores between them, if they are digits. -/
def digits? (isDigit : Char → Bool) : List Char → Option (List Char)
  | [] => none
  | [c] => if isDigit c then some [c] else none
  | c :: '_' :: rest => if isDigit c then (digits? isDigit rest).map (c :: ·) else none
  | c :: rest => if isDigit c then (digits? isDigit rest).map (c :: ·) else none

/-- Digits that may stand before the point: no zero before another one. -/
def wholeDigits? (cs : List Char) : Option (List Char) :=
  match digits? Text.isDigit cs with
  | some ('0' :: _ :: _) => none
  | ds => ds

/-- Whether there is a minus sign, and what follows the sign. -/
def splitSign : List Char → Bool × List Char
  | '+' :: cs => (false, cs)
  | '-' :: cs => (true, cs)
  | cs => (false, cs)

/-- A whole number that fits in sixty-four bits with its sign. -/
def bounded? (n : Int) : Option Value :=
  if -(1 <<< 63 : Nat) ≤ n ∧ n < (1 <<< 63 : Nat) then some (.integer n) else none

/-- A number of some base, after the mark of the base. -/
def basedInteger? (base : Nat) (cs : List Char) : Option Value :=
  let isDigit (c : Char) : Bool := (Text.hexValue? c).any (· < base)
  (digits? isDigit cs).bind fun ds =>
    bounded? ((ds.filterMap Text.hexValue?).foldl (fun n d => n * base + d) 0 : Nat)

def integer? (cs : List Char) : Option Value :=
  match cs with
  | '0' :: 'x' :: cs => basedInteger? 16 cs
  | '0' :: 'o' :: cs => basedInteger? 8 cs
  | '0' :: 'b' :: cs => basedInteger? 2 cs
  | _ =>
    let (negative, cs) := splitSign cs
    (wholeDigits? cs).bind fun ds =>
      let n : Int := Text.decimalValue ds
      bounded? (if negative then -n else n)

/-- The exponent with its mark, or zero where there is none. -/
def exponent? : List Char → Option Int
  | [] => some 0
  | c :: cs =>
    if c = 'e' ∨ c = 'E' then
      let (negative, cs) := splitSign cs
      (digits? Text.isDigit cs).map fun ds =>
        let n : Int := Text.decimalValue ds
        if negative then -n else n
    else none

/-- The digits after a point without the point, none where there is none, and what follows. -/
def fraction? : List Char → Option (List Char × List Char)
  | '.' :: cs =>
    let isPart (c : Char) : Bool := Text.isDigit c || c = '_'
    (digits? Text.isDigit (cs.takeWhile isPart)).map (·, cs.dropWhile isPart)
  | cs => some ([], cs)

/-- A double with a sign. Beyond the range of doubles there is only minus infinity. -/
def signed? (negative : Bool) (x : Float) : Option Value :=
  if negative then some (.number (-x)) else if x.isInf then none else some (.number x)

/-- A number with a fraction, an exponent or both, or one of those that are not finite. -/
def decimal? (cs : List Char) : Option Value :=
  let (negative, cs) := splitSign cs
  if cs = "inf".toList then some (.number (if negative then -(1.0 / 0.0) else 1.0 / 0.0))
  else if cs = "nan".toList then some (.number (0.0 / 0.0))
  else
    let isPart (c : Char) : Bool := Text.isDigit c || c = '_'
    let tail := cs.dropWhile isPart
    match wholeDigits? (cs.takeWhile isPart), fraction? tail with
    | some whole, some (fraction, rest) =>
      if tail = [] then none
      else (exponent? rest).bind fun exponent =>
        signed? negative
          (Decimal.nearest (Text.decimalValue (whole ++ fraction)) (exponent - fraction.length))
    | _, _ => none

/-! ## Dates and times -/

/-- The number of two digits, if they are digits. -/
def two? (a b : Char) : Option Nat :=
  if Text.isDigit a && Text.isDigit b then some (Text.decimalValue [a, b]) else none

/-- The number of days in a month. -/
def daysIn (year month : Nat) : Nat :=
  if month = 2 then
    if year % 4 = 0 ∧ (year % 100 ≠ 0 ∨ year % 400 = 0) then 29 else 28
  else if month ∈ [4, 6, 9, 11] then 30
  else 31

def isDate : List Char → Bool
  | [a, b, c, d, '-', e, f, '-', g, h] =>
    match two? a b, two? c d, two? e f, two? g h with
    | some century, some year, some month, some day =>
      1 ≤ month && month ≤ 12 && 1 ≤ day && day ≤ daysIn (century * 100 + year) month
    | _, _, _, _ => false
  | _ => false

/-- Hours and minutes. -/
def isHour (a b c d : Char) : Bool :=
  (two? a b).any (· ≤ 23) && (two? c d).any (· ≤ 59)

/-- A time of day. The last minute of a day may have a sixtieth second. -/
def isTime : List Char → Bool
  | a :: b :: ':' :: c :: d :: ':' :: e :: f :: rest =>
    isHour a b c d && (two? e f).any (· ≤ 60)
      && match rest with
        | [] => true
        | point :: places => point = '.' && !places.isEmpty && places.all Text.isDigit
  | _ => false

/-- How far a time is from the meridian. -/
def isOffset : List Char → Bool
  | [z] => z = 'Z' || z = 'z'
  | [sign, a, b, ':', c, d] => (sign = '+' || sign = '-') && isHour a b c d
  | _ => false

/-- A time of day, perhaps with its offset. -/
def isZonedTime (cs : List Char) : Bool :=
  let isPart (c : Char) : Bool := Text.isDigit c || c = ':' || c = '.'
  isTime (cs.takeWhile isPart) && ((cs.dropWhile isPart).isEmpty || isOffset (cs.dropWhile isPart))

/-- A date, a time, or both with a `T` between them. -/
def isMoment (cs : List Char) : Bool :=
  isTime cs || isDate cs
    || (isDate (cs.take 10) && (cs.drop 10).head?.any (fun t => t = 'T' || t = 't')
      && isZonedTime (cs.drop 11))

/-! ## Words -/

/-- What may stand in a word that is a number, a date or a time. -/
def isWordPart (c : Char) : Bool :=
  c.isAlphanum || c ∈ ['+', '-', '_', '.', ':']

/-- The value of a word. -/
def word? (cs : List Char) : Option Value :=
  if isMoment cs then some .moment else (integer? cs).or (decimal? cs)

/-- A number, a date or a time. A digit after a date and a blank begins a time. -/
def readWord : Reader Value := fun cs =>
  let word := cs.takeWhile isWordPart
  let rest := cs.dropWhile isWordPart
  match isDate word, rest with
  | true, ' ' :: c :: time =>
    if Text.isDigit c then
      if isZonedTime ((c :: time).takeWhile isWordPart) then
        .ok (.moment, (c :: time).dropWhile isWordPart)
      else .error .malformed
    else .ok (.moment, rest)
  | _, _ =>
    match word? word with
    | some v => .ok (v, rest)
    | none => .error .malformed

end TriggerFlow.Toml
