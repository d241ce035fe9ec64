/-!
# What a configuration text holds

Tables keep their members in the order of the text. A table also knows **how it came about, because
that decides who may still add to it**: one between braces is closed, one made by a dotted key takes
further dotted keys, and one only passed through on the way to another may get a header of its own.
-/

set_option autoImplicit false

namespace TriggerFlow.Toml

inductive Origin where
  /-- Under a header of its own. -/
  | header
  /-- On the way to a table with a header. -/
  | passed
  /-- On the way of a dotted key. -/
  | dotted
  /-- Between braces. -/
  | braces
  deriving DecidableEq, Repr

inductive Value where
  | text (s : String)
  | integer (n : Int)
  | number (x : Float)
  | bool (b : Bool)
  /-- A date, a time or both; which one never matters. -/
  | moment
  | list (items : List Value)
  | table (origin : Origin) (members : List (String × Value))
  /-- Tables under headers in double brackets, each with its members. -/
  | tables (items : List (List (String × Value)))

/-- Members in order, no key twice. -/
abbrev Table := List (String × Value)

end TriggerFlow.Toml
