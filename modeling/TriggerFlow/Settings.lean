import TriggerFlow.StorageMode

/-!
# How documents are run

Two things can be set, and both have a value if nothing is said: the pause after each action, **long
enough to see the actions one by one**, and the way to treat storage parameters.
-/

set_option autoImplicit false

namespace TriggerFlow

structure Settings where
  /-- The milliseconds after each action that does not end the run. -/
  pacing : Nat
  mode : StorageMode
  deriving DecidableEq, Repr

/-- The milliseconds between two actions if nothing else is said. -/
def Settings.defaultPacing : Nat := 300

def Settings.default : Settings :=
  ⟨defaultPacing, .lenient⟩

end TriggerFlow
