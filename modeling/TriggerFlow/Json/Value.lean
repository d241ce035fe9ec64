/-!
# Values to be written

What the tool saves or prints as JSON is first a `Value` and then a text. An object is a list of
members and keeps their order, because **the order of the members is part of the saved form**.
-/

set_option autoImplicit false

namespace TriggerFlow.Json

inductive Value where
  | null
  | bool (b : Bool)
  | integer (n : Int)
  | number (x : Float)
  | text (s : String)
  | list (items : List Value)
  | object (members : List (String × Value))
  deriving Inhabited

/-- A text, or `null` in its place. -/
def Value.optional : Option String → Value
  | some s => .text s
  | none => .null

end TriggerFlow.Json
