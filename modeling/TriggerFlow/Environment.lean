import TriggerFlow.FileTree.Path

/-!
# The environment

The surroundings of a command can name the directories it works in: its own variables come first,
then those that all programs of the platform share, then the home directory. **A variable that is
set to nothing counts as one that is not set**, and a shared one that does not name an absolute
path is not looked at.
-/

set_option autoImplicit false

namespace TriggerFlow

structure Environment where
  /-- The variables that are set. -/
  bindings : List (String × String)
  /-- The home directory that the system has on record for the user. -/
  accountHome : Option String
  deriving DecidableEq, Repr

namespace Environment

/-- The name of the program in shared directories. -/
def programName : String := "clickflow"

def dataVariable : String := "CLICKFLOW_DATA_DIR"

def configVariable : String := "CLICKFLOW_CONFIG_DIR"

def get? (e : Environment) (name : String) : Option String :=
  e.bindings.lookup name

/-- The value of a variable that is set to something. -/
def nonEmpty? (e : Environment) (name : String) : Option String :=
  (e.get? name).filter (· ≠ "")

def home? (e : Environment) : Option String :=
  (e.nonEmpty? "HOME").or e.accountHome

/-- A directory that all programs share: that of a variable, or one below the home directory. -/
def shared? (e : Environment) (name below : String) : Option String :=
  ((e.get? name).filter Path.isAbsolute).or (e.home?.map (Path.join · below))

/-- Where data goes if nothing else is said. -/
def defaultDataDirectory (e : Environment) : String :=
  match e.shared? "XDG_DATA_HOME" ".local/share" with
  | some directory => Path.join directory programName
  | none => ".clickflow"

/-- Where data goes: the variable says, or the configuration does. -/
def dataDirectory (e : Environment) (configured : Option String) : String :=
  (e.nonEmpty? dataVariable).getD (configured.getD e.defaultDataDirectory)

/-- Where the configuration of the user is. -/
def configDirectory? (e : Environment) : Option String :=
  (e.nonEmpty? configVariable).or
    ((e.shared? "XDG_CONFIG_HOME" ".config").map (Path.join · programName))

/-- The configuration file of the user. -/
def configPath? (e : Environment) : Option String :=
  e.configDirectory?.map (Path.join · "config.toml")

/-- Where the log files go: beside the configuration, or into the working directory. -/
def logDirectory (e : Environment) : String :=
  (e.configDirectory?.map (Path.join · "logs")).getD "logs"

end Environment

/-- The file of the document in the directory for data. -/
def workflowPath (dataDirectory : String) : String :=
  Path.join dataDirectory "workflow.json"

/-- The file of the store there. -/
def storagePath (dataDirectory : String) : String :=
  Path.join dataDirectory "storage.json"

end TriggerFlow
