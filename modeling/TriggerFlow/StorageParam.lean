import TriggerFlow.Failure
import TriggerFlow.Text.Blank

/-!
# Storage parameters

An action that saves a value takes `key:value`. **The first colon divides**, so a value may hold
colons and a key cannot; blanks around either are not part of it, and either may be empty.
-/

set_option autoImplicit false

namespace TriggerFlow

structure StorageParam where
  key : String
  value : String
  deriving DecidableEq, Repr

namespace StorageParam

/-- What stands before and after the first colon, if there is one. -/
def splitAtColon : List Char → Option (List Char × List Char)
  | [] => none
  | ':' :: rest => some ([], rest)
  | c :: rest => (splitAtColon rest).map fun (before, after) => (c :: before, after)

/-- The key and the value that a parameter names. -/
def parse (param : String) : Except Failure StorageParam :=
  match splitAtColon param.toList with
  | some (key, value) =>
    .ok ⟨String.ofList (Text.trimList key), String.ofList (Text.trimList value)⟩
  | none => .error (.malformedStorageParam param)

end StorageParam

end TriggerFlow
