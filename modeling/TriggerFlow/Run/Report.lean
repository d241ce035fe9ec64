import TriggerFlow.Json.Value
import TriggerFlow.Presentation.Codec
import TriggerFlow.Run

/-!
# A run as it is reported

For other programs a run is reported as one object: the label of the trigger, the outcome and what
is shown at the end. **Status and issues name their case in a member of their own**, and give what
belongs to the case in another one, if anything does.
-/

set_option autoImplicit false

namespace TriggerFlow

def Issue.toJson : Issue → Json.Value
  | .unknownKind => .object [("issue", .text "unknown_action_kind")]
  | .malformedStorageParam param =>
    .object [("issue", .text "malformed_storage_param"), ("detail", .text param)]
  | .storageFailed message =>
    .object [("issue", .text "storage_failed"), ("detail", .text message)]

def Diagnostic.toJson (d : Diagnostic) : Json.Value :=
  .object [("index", .integer d.index), ("kind", .text d.kind), ("issue", d.issue.toJson)]

def Status.toJson : Status → Json.Value
  | .completed => .object [("status", .text "completed")]
  | .terminated ending =>
    .object [("status", .text "terminated"), ("action", .text ending.name)]
  | .cancelled => .object [("status", .text "cancelled")]

def Outcome.toJson (o : Outcome) : Json.Value :=
  .object [("status", o.status.toJson), ("executed", .integer o.executed),
    ("pauses", .integer o.pauses), ("diagnostics", .list (o.diagnostics.map Diagnostic.toJson))]

/-- The report of a run. -/
def Outcome.report (o : Outcome) (label : String) (shown : Presentation) : Json.Value :=
  .object [("trigger_label", .text label), ("outcome", o.toJson), ("state", shown.toJson)]

end TriggerFlow
