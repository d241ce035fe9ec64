import TriggerFlow.CommandLine.Arguments
import TriggerFlow.Config.Layers
import TriggerFlow.DocumentStore
import TriggerFlow.Environment
import TriggerFlow.Storage.FileStore

/-!
# What a command works with

The settings of a command come from the command line first, then from the environment, then from the
configuration. **The document and the store of one command lie in the same directory.**
-/

set_option autoImplicit false

namespace TriggerFlow.CommandLine

/-- Why a command failed. -/
inductive CommandFailure where
  | failed (cause : Failure)
  | notLoaded (path : String) (cause : Failure)
  | notSaved (path : String) (cause : Failure)
  | notOpened (path : String) (cause : Failure)
  | positionOutOfRange (position size : Nat)
  /-- There is no action to run. -/
  | nothingToRun
  | config (cause : ConfigFailure)
  | noConfigDirectory

namespace CommandFailure

def message : CommandFailure → String
  | .failed cause => cause.message
  | .notLoaded path _ => "Failed to load " ++ path
  | .notSaved path _ => "Failed to save " ++ path
  | .notOpened path _ => "Failed to open " ++ path
  | .positionOutOfRange position size =>
    "Position " ++ toString position ++ " out of range: workflow has " ++ toString size
      ++ " action(s)"
  | .nothingToRun => "No actions configured. Add one with: clickflow add <KIND> [PARAM]"
  | .config cause => cause.message
  | .noConfigDirectory => "Could not determine config directory"

/-- What the failure comes from, if the message does not say it. -/
def cause? : CommandFailure → Option String
  | .notLoaded _ cause | .notSaved _ cause | .notOpened _ cause => some cause.message
  | .config (.unreadable _ cause) | .config (.unwritable _ cause) => some cause.message
  | _ => none

/-- The text that ends a command that failed. -/
def report (f : CommandFailure) : String :=
  "Error: " ++ f.message ++ f.cause?.elim "" ("\n\nCaused by:\n    " ++ ·) ++ "\n"

end CommandFailure

structure Context where
  /-- Where the document and the store are. -/
  dataDirectory : String
  settings : Settings
  json : Bool
  verbose : Bool
  deriving DecidableEq, Repr

namespace Context

/-- What the command line says goes before what the environment and the configuration say. -/
def resolve (i : Invocation) (e : Environment) (c : Config) : Context where
  dataDirectory := i.dataDirectory.getD (e.dataDirectory c.dataDirectory?)
  settings :=
    ⟨i.pacing.getD c.settings.pacing, if i.strictStorage then .strict else c.settings.mode⟩
  json := i.json
  verbose := i.verbose

def workflowPath (c : Context) : String :=
  TriggerFlow.workflowPath c.dataDirectory

def storagePath (c : Context) : String :=
  TriggerFlow.storagePath c.dataDirectory

/-- The saved document, if there is one. -/
def loadDocument (c : Context) (files : FileTree) : Except CommandFailure (Option Document) :=
  match DocumentStore.load (⟨c.workflowPath, files⟩ : DocumentFile) with
  | .ok d => .ok d
  | .error e => .error (.notLoaded c.workflowPath e)

/-- The saved document, or an empty one to start from. -/
def documentToEdit (c : Context) (files : FileTree) : Except CommandFailure Document :=
  (c.loadDocument files).map (·.getD .empty)

/-- Saves a document. -/
def saveDocument (c : Context) (d : Document) (files : FileTree) :
    Except CommandFailure Unit × FileTree :=
  match DocumentStore.save d (⟨c.workflowPath, files⟩ : DocumentFile) with
  | (.ok (), s) => (.ok (), s.files)
  | (.error e, s) => (.error (.notSaved c.workflowPath e), s.files)

/-- Opens the store. -/
def openStore (c : Context) (files : FileTree) : Except CommandFailure FileStore :=
  match FileStore.load c.storagePath files with
  | .ok s => .ok s
  | .error e => .error (.notOpened c.storagePath e)

end Context

end TriggerFlow.CommandLine
