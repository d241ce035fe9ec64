import TriggerFlow.Mismatch

/-!
# Why a text could not be read

A text is read from left to right and **the first thing that cannot be right decides**: it ends too
early, it is not JSON, or it is JSON so far but not what belongs there. Only the last kind has a
message.
-/

set_option autoImplicit false

namespace TriggerFlow.Json

inductive Fault where
  /-- The text ends where more has to follow. -/
  | ended
  /-- The text is not JSON, whatever may follow. -/
  | malformed
  | mismatch (cause : Mismatch)
  deriving Repr

/-- Numbers in saved states and in messages about them: no exponent from a hundred-thousandth up to
ten to the sixteenth, and a tie to the even digit. -/
def numberLayout : Decimal.Layout where
  isPositional := fun place => -5 ≤ place && place < 16
  tie := .toEven
  infinite := "inf"
  notANumber := "NaN"

/-- The class a fault belongs to, which is all that is told of one without a message. -/
def Fault.category : Fault → String
  | .ended => "eof"
  | .malformed => "syntax"
  | .mismatch _ => "data"

/-- What is told of JSON of the wrong shape. -/
def Fault.message? : Fault → Option String
  | .ended | .malformed => none
  | .mismatch cause => some (cause.message numberLayout)

end TriggerFlow.Json
