/-!
# Two ways to treat a storage parameter

An action that saves or reads a key may come with a parameter that names none. **The two modes
differ only in whether this is told**; what the action does is the same in both.
-/

set_option autoImplicit false

namespace TriggerFlow

inductive StorageMode where
  /-- A parameter that names no key is passed over in silence. -/
  | lenient
  /-- It is reported with the run. -/
  | strict
  deriving DecidableEq, Repr

namespace StorageMode

def name : StorageMode → String
  | .lenient => "lenient"
  | .strict => "strict"

def ofName? : String → Option StorageMode
  | "lenient" => some .lenient
  | "strict" => some .strict
  | _ => none

theorem ofName?_name (m : StorageMode) : ofName? m.name = some m := by
  cases m <;> rfl

end StorageMode

end TriggerFlow
