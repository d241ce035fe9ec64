import TriggerFlow.Config
import TriggerFlow.Toml.Decode
import TriggerFlow.Toml.Printer
import TriggerFlow.Toml.Reader

/-!
# The file form of a configuration

A configuration file has a table for each section. Reading takes them in the order of the text and
tells the first thing that is wrong; **unknown sections and keys are passed over, so that a file
may be meant for a later version**. Writing gives the sections that are there in a fixed order with
all they hold.
-/

set_option autoImplicit false

namespace TriggerFlow

/-! ## Reading -/

def Settings.fields : List (Toml.Field Settings) :=
  [{ key := "pacing_ms", decode := fun s v => v.natural.map fun pacing => { s with pacing } },
    { key := "storage_mode"
      decode := fun s v =>
        (v.variant StorageMode.ofName? "\x60lenient\x60 or \x60strict\x60").map fun mode =>
          { s with mode } }]

def PathsSection.fields : List (Toml.Field PathsSection) :=
  [{ key := "data_dir"
     decode := fun _ v => (v.textAs "path string").map fun path => ⟨some path⟩ }]

def LoggingSection.fields : List (Toml.Field LoggingSection) :=
  [{ key := "file", decode := fun _ v => v.flag.map fun file => ⟨file⟩ }]

namespace Config

def fields : List (Toml.Field Config) :=
  [{ key := "engine"
     decode := fun c v =>
       (v.record "struct EngineSection" Settings.fields .default).map fun s =>
         { c with engine := some s } },
    { key := "paths"
      decode := fun c v =>
        (v.record "struct PathsSection" PathsSection.fields .default).map fun s =>
          { c with paths := some s } },
    { key := "logging"
      decode := fun c v =>
        (v.record "struct LoggingSection" LoggingSection.fields .default).map fun s =>
          { c with logging := some s } }]

/-- The configuration that a text holds. -/
def parse (s : String) : Except Toml.Fault Config :=
  match Toml.parse s with
  | .error e => .error e
  | .ok t => Toml.decodeMembers fields .empty t

/-! ## Writing -/

/-- The largest whole number that a file can hold. -/
def largestInteger : Nat := (1 <<< 63) - 1

def sections (c : Config) : List (String × List (String × Toml.Written)) :=
  let engine := c.engine.map fun s =>
    ("engine", [("pacing_ms", .natural s.pacing), ("storage_mode", .text s.mode.name)])
  let paths := c.paths.map fun s =>
    ("paths", (s.dataDirectory.map fun path => ("data_dir", Toml.Written.text path)).toList)
  let logging := c.logging.map fun s => ("logging", [("file", .bool s.file)])
  engine.toList ++ paths.toList ++ logging.toList

/-- The text of a configuration, `none` if it holds a number too large for a file. -/
def render? (c : Config) : Option String :=
  if c.engine.any (largestInteger < ·.pacing) then none
  else some (Toml.render c.sections)

end Config

end TriggerFlow
