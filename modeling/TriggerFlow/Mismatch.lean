import TriggerFlow.Decimal.Layout
import TriggerFlow.Text.Quoted

/-!
# Values of the wrong shape

A file may be well formed and still not hold what belongs there. What is told of it is the same for
every file format: **what was met, and what was expected in its place**. Only the layout of numbers
is the format's own.
-/

set_option autoImplicit false

namespace TriggerFlow

/-- What stood where something else was expected. -/
inductive Met where
  | null
  | bool (b : Bool)
  | integer (n : Int)
  | number (x : Float)
  | text (s : String)
  | list
  | object
  deriving Repr

inductive Mismatch where
  | wrongType (met : Met) (expected : String)
  /-- A value of the right type that is not one of those expected. -/
  | wrongValue (met : Met) (expected : String)
  | missingField (key : String)
  | duplicateField (key : String)
  | unknownVariant (name : String) (known : String)
  | wrongLength (length : Nat) (expected : String)
  deriving Repr

def Met.describe (l : Decimal.Layout) : Met → String
  | .null => "null"
  | .bool b => "boolean \x60" ++ toString b ++ "\x60"
  | .integer n => "integer \x60" ++ toString n ++ "\x60"
  | .number x => "floating point \x60" ++ l.render x ++ "\x60"
  | .text s => "string " ++ Text.quoted s
  | .list => "sequence"
  | .object => "map"

def Mismatch.message (l : Decimal.Layout) : Mismatch → String
  | .wrongType met expected => "invalid type: " ++ met.describe l ++ ", expected " ++ expected
  | .wrongValue met expected => "invalid value: " ++ met.describe l ++ ", expected " ++ expected
  | .missingField key => "missing field \x60" ++ key ++ "\x60"
  | .duplicateField key => "duplicate field \x60" ++ key ++ "\x60"
  | .unknownVariant name known => "unknown variant \x60" ++ name ++ "\x60, expected " ++ known
  | .wrongLength length expected =>
    "invalid length " ++ toString length ++ ", expected " ++ expected

end TriggerFlow
