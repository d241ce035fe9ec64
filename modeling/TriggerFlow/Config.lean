import TriggerFlow.Settings

/-!
# Configuration

A configuration has three sections, each of which may be absent, and **an absent section is not one
with its defaults**: where two configurations are laid over one another, the upper one takes the
place of whole sections of the lower one, and of those it does not have it takes none.
-/

set_option autoImplicit false

namespace TriggerFlow

/-- Where documents and entries are kept. -/
structure PathsSection where
  dataDirectory : Option String
  deriving DecidableEq, Repr

def PathsSection.default : PathsSection :=
  ⟨none⟩

structure LoggingSection where
  /-- A log is kept in a file. -/
  file : Bool
  deriving DecidableEq, Repr

def LoggingSection.default : LoggingSection :=
  ⟨true⟩

structure Config where
  engine : Option Settings
  paths : Option PathsSection
  logging : Option LoggingSection
  deriving DecidableEq, Repr

namespace Config

def empty : Config :=
  ⟨none, none, none⟩

/-- Lays a configuration over another one. -/
def merge (lower upper : Config) : Config :=
  ⟨upper.engine.or lower.engine, upper.paths.or lower.paths, upper.logging.or lower.logging⟩

/-! ## Sections with their defaults -/

def settings (c : Config) : Settings :=
  c.engine.getD .default

def dataDirectory? (c : Config) : Option String :=
  (c.paths.getD .default).dataDirectory

def logsToFile (c : Config) : Bool :=
  (c.logging.getD .default).file

end Config

end TriggerFlow
