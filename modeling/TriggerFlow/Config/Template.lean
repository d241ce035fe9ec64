import TriggerFlow.Config.Layers

/-!
# A configuration file to start from

The template says what can be set and sets it to what it is anyway. **It is written only where
nothing stands yet**, so that asking for it a second time does no harm.
-/

set_option autoImplicit false

namespace TriggerFlow.Config

def templateLines : List String :=
  ["# Clickflow Configuration",
    "",
    "[engine]",
    "# Pause after each action, in milliseconds",
    "pacing_ms = 300",
    "# \"lenient\" skips malformed set-storage parameters silently,",
    "# \"strict\" reports them after the run",
    "storage_mode = \"lenient\"",
    "",
    "# [paths]",
    "# data_dir = \"/path/to/clickflow-data\"",
    "",
    "[logging]",
    "# Daily-rolling JSON log next to the user config",
    "file = true"]

def template : String :=
  String.join (templateLines.map (· ++ "\n"))

/-- Writes the template and tells whether it did: not where something stands at the path. -/
def writeTemplate (path : String) (files : FileTree) : Except ConfigFailure Bool × FileTree :=
  if files.exists? path then (.ok false, files)
  else
    match files.makeParent path with
    | (.error e, files) => (.error (.unwritable e.1 e.2), files)
    | (.ok (), files) =>
      match files.write path (.text template) with
      | .ok files => (.ok true, files)
      | .error e => (.error (.unwritable path e), files)

end TriggerFlow.Config
