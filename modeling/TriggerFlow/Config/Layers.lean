import TriggerFlow.Config.Codec
import TriggerFlow.FileTree.Saved

/-!
# Layers of configuration

The configuration of the user lies below that of the project, and both may be missing. **Loading
never fails**: a layer that cannot be read counts as one that is not there, and a warning says so.
What was looked for is remembered, lowest layer first.
-/

set_option autoImplicit false

namespace TriggerFlow

/-- Why a configuration file could not be read or written. -/
inductive ConfigFailure where
  | unreadable (path : String) (cause : Obstacle)
  | unwritable (path : String) (cause : Obstacle)
  | unparsable (cause : Toml.Fault)

/-- The text of a failure. What the reader of a file has to say about a text that is no TOML would
follow, and is left out. -/
def ConfigFailure.message : ConfigFailure → String
  | .unreadable path cause => "failed to read config file '" ++ path ++ "': " ++ cause.message
  | .unwritable path cause => "failed to write config file '" ++ path ++ "': " ++ cause.message
  | .unparsable cause => "failed to parse config: " ++ cause.message?.getD ""

/-- A layer that was looked for. -/
structure Source where
  path : String
  /-- There, and read without a problem. -/
  loaded : Bool
  deriving DecidableEq, Repr

/-- A configuration and where it came from. -/
structure LoadedConfig where
  config : Config
  sources : List Source
  warnings : List String
  deriving DecidableEq, Repr

namespace LoadedConfig

def empty : LoadedConfig :=
  ⟨.empty, [], []⟩

/-- The files that are part of the configuration. -/
def loadedFrom (l : LoadedConfig) : List String :=
  (l.sources.filter (·.loaded)).map (·.path)

/-- The configuration in a file. -/
def readLayer (files : FileTree) (path : String) : Except ConfigFailure Config :=
  match files.read path with
  | .error e => .error (.unreadable path e)
  | .ok text =>
    match Config.parse text with
    | .error e => .error (.unparsable e)
    | .ok c => .ok c

/-- Lays one more layer on top. Only a regular file is a layer. -/
def addLayer (files : FileTree) (l : LoadedConfig) (path : String) : LoadedConfig :=
  if files.isFile path then
    match readLayer files path with
    | .ok c => { l with config := l.config.merge c, sources := l.sources ++ [⟨path, true⟩] }
    | .error e =>
      { l with
        sources := l.sources ++ [⟨path, false⟩]
        warnings := l.warnings ++ ["Failed to load " ++ path ++ ": " ++ e.message] }
  else { l with sources := l.sources ++ [⟨path, false⟩] }

/-- Warns of settings that make a run hard to follow. -/
def addSettingsWarning (l : LoadedConfig) : LoadedConfig :=
  if l.config.engine.any (·.pacing = 0) then
    { l with
      warnings := l.warnings ++
        ["[engine] pacing_ms = 0 disables the pause between actions; "
          ++ "effects will not be visible one by one."] }
  else l

/-- The file of the project in its directory. -/
def projectFile : String := "clickflow.toml"

/-- Loads the layer of the user, if there is a place for it, and that of the project. -/
def load (user : Option String) (project : String) (files : FileTree) : LoadedConfig :=
  ((user.toList ++ [project]).foldl (addLayer files) empty).addSettingsWarning

end LoadedConfig

end TriggerFlow
