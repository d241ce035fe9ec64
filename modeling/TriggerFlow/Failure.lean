import TriggerFlow.FileTree.Obstacle
import TriggerFlow.Json.Fault

/-!
# What can fail

Editing, saving and starting a workflow can fail, and each failure is a cause with what it was
about. A problem with a single action is not among them: **a run that has started does not fail**,
it goes on and notes the problem.
-/

set_option autoImplicit false

namespace TriggerFlow

inductive Failure where
  /-- A kind that is not in the catalog. -/
  | unknownKind (name : String)
  /-- A position that no action has. -/
  | indexOutOfRange (index size : Nat)
  /-- There is no document to run, or it is empty. -/
  | noActions
  | runInProgress
  /-- A storage parameter without a colon. -/
  | malformedStorageParam (param : String)
  | unreadable (path : String) (cause : Obstacle)
  | unwritable (path : String) (cause : Obstacle)
  /-- The directory of a file cannot be made. -/
  | noDirectory (path : String) (cause : Obstacle)
  /-- A store that does not do what it is asked. -/
  | refused (message : String)
  /-- A file that holds something else. -/
  | unreadableJson (fault : Json.Fault)

/-- What a failure of a store is about. -/
private def storage (message : String) : String :=
  "Storage error: " ++ message

/-- The text of a failure. What the reader of a file has to say about a text that is no JSON would
follow, and is left out. -/
def Failure.message : Failure → String
  | .unknownKind name => "Unknown action kind: " ++ name
  | .indexOutOfRange index size =>
    "Index " ++ toString index ++ " out of range for " ++ toString size ++ " action(s)"
  | .noActions => "No actions configured"
  | .runInProgress => "A workflow run is already in progress"
  | .malformedStorageParam param =>
    "Malformed storage parameter '" ++ param ++ "': expected key:value"
  | .unreadable path cause => storage ("Failed to read " ++ path ++ ": " ++ cause.message)
  | .unwritable path cause => storage ("Failed to write " ++ path ++ ": " ++ cause.message)
  | .noDirectory path cause =>
    storage ("Failed to create directory " ++ path ++ ": " ++ cause.message)
  | .refused message => storage message
  | .unreadableJson fault => "Serialization error: " ++ fault.message?.getD ""

end TriggerFlow
