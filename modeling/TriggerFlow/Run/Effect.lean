import TriggerFlow.Color
import TriggerFlow.Document
import TriggerFlow.Host
import TriggerFlow.Presentation
import TriggerFlow.Storage
import TriggerFlow.StorageMode
import TriggerFlow.StorageParam

/-!
# What one action does

An action asks the world around it for something, or changes what is shown, or both; **it changes
what is shown at most once**. It cannot fail: what goes wrong is an issue to report, and the run
goes on. Its id and its label have no part in what it does.
-/

set_option autoImplicit false

namespace TriggerFlow

/-- What a run works with. -/
structure World (η κ γ : Type) where
  host : η
  store : κ
  colors : γ
  deriving DecidableEq

/-- Something that went wrong with an action. -/
inductive Issue where
  | unknownKind
  /-- A parameter that names no key, as it is written. -/
  | malformedStorageParam (param : String)
  /-- What the store says. -/
  | storageFailed (message : String)
  deriving DecidableEq, Repr

def Issue.message : Issue → String
  | .unknownKind => "unknown action kind"
  | .malformedStorageParam param => "malformed storage parameter '" ++ param ++ "'"
  | .storageFailed message => "storage failed: " ++ message

/-- What an action did. -/
structure Effect (η κ γ : Type) where
  world : World η κ γ
  change : Option Change
  issues : List Issue

/-! ## What actions use that were given nothing to use -/

namespace Default

def alertMessage : String := "Alert!"

def text : String := "No text provided"

def promptMessage : String := "Enter your input:"

/-- Shown in place of a value that is missing or empty. -/
def value : String := "Not found"

end Default

/-! ## Actions -/

namespace Action

variable {η κ γ : Type}

/-- The report of a parameter that names no key, which only the strict mode makes. -/
def malformed (mode : StorageMode) (a : Action) : List Issue :=
  match mode with
  | .lenient => []
  | .strict => [.malformedStorageParam a.paramOrEmpty]

/-- The text that the action was given, or the one to use without. -/
def given (a : Action) (default : String) : String :=
  a.nonEmptyParam?.getD default

/-- Saves a value. -/
def saveValue [KeyValueStore κ] (mode : StorageMode) (a : Action) (w : World η κ γ) :
    Effect η κ γ :=
  match StorageParam.parse a.paramOrEmpty with
  | .error _ => ⟨w, none, a.malformed mode⟩
  | .ok param =>
    match KeyValueStore.set param.key param.value w.store with
    | (.ok (), store) =>
      ⟨{ w with store }, some (.push (.text ("Saved: " ++ param.key ++ " = " ++ param.value))), []⟩
    | (.error e, store) => ⟨{ w with store }, none, [.storageFailed e.message]⟩

/-- The text that shows a value read from the store. -/
def valueLine (key : String) (value : Option String) : String :=
  key ++ ": " ++ (value.filter (· ≠ "")).getD Default.value

/-- Reads a value and shows it. A key without characters is malformed, but it is read. -/
def showValue [KeyValueStore κ] (mode : StorageMode) (a : Action) (w : World η κ γ) :
    Effect η κ γ :=
  let key := Text.trim a.paramOrEmpty
  let issues := if key = "" then a.malformed mode else []
  match KeyValueStore.get key w.store with
  | (.ok value, store) => ⟨{ w with store }, some (.push (.text (valueLine key value))), issues⟩
  | (.error e, store) => ⟨{ w with store }, none, issues ++ [.storageFailed e.message]⟩

/-- Asks for a line and shows it; a prompt that is cancelled shows nothing. -/
def promptAndShow [Host η] (a : Action) (w : World η κ γ) : Effect η κ γ :=
  match Host.prompt (a.given Default.promptMessage) w.host with
  | (answer, host) => ⟨{ w with host }, answer.map fun s => .push (.text s), []⟩

/-- Gives the trigger the color it was given, or the next one of the source. -/
def recolor [ColorSource γ] (a : Action) (w : World η κ γ) : Effect η κ γ :=
  match a.nonEmptyParam? with
  | some color => ⟨w, some (.recolor color), []⟩
  | none =>
    match ColorSource.next w.colors with
    | (color, colors) => ⟨{ w with colors }, some (.recolor color), []⟩

/-- Does what a kind of action does. -/
def performAs [Host η] [KeyValueStore κ] [ColorSource γ] (mode : StorageMode) (a : Action)
    (w : World η κ γ) : Kind → Effect η κ γ
  | .alert => ⟨{ w with host := Host.notify (a.given Default.alertMessage) w.host }, none, []⟩
  | .showText => ⟨w, some (.push (.text (a.given Default.text))), []⟩
  | .showImage => ⟨w, a.nonEmptyParam?.map fun url => .push (.image url), []⟩
  | .refresh => ⟨{ w with host := Host.reload w.host }, none, []⟩
  | .setStorage => a.saveValue mode w
  | .getStorage => a.showValue mode w
  | .growTrigger => ⟨w, some (.grow Presentation.scaleStep), []⟩
  | .close => ⟨{ w with host := Host.close w.host }, none, []⟩
  | .promptAndShow => a.promptAndShow w
  | .recolorTrigger => a.recolor w
  | .disableTrigger => ⟨w, some .disable, []⟩

/-- Does what the action does; one of an unknown kind is passed over. -/
def perform [Host η] [KeyValueStore κ] [ColorSource γ] (mode : StorageMode) (a : Action)
    (w : World η κ γ) : Effect η κ γ :=
  match a.kind? with
  | some kind => a.performAs mode w kind
  | none => ⟨w, none, [.unknownKind]⟩

/-- How the action ends the run, if it does. -/
def ending? (a : Action) : Option Ending :=
  a.kind?.bind Kind.ending?

end Action

end TriggerFlow
