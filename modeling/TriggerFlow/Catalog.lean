import TriggerFlow.Json.Value

/-!
# The catalog of actions

A workflow is built from eleven kinds of action and no others. Each has an id, which is what a
saved document holds, and a short name, which is easier to type; **both name the same entry, and no
text names two**. An entry also carries the label copied onto a new action and, if the action takes
a parameter, the prompt that asks for it.
-/

set_option autoImplicit false

namespace TriggerFlow

/-- What an action does. -/
inductive Kind where
  | alert
  | showText
  | showImage
  | refresh
  | setStorage
  | getStorage
  | growTrigger
  | close
  | promptAndShow
  | recolorTrigger
  | disableTrigger
  deriving DecidableEq, Repr

/-- An action that ends the context in which the workflow runs. -/
inductive Ending where
  | refresh
  | close
  deriving DecidableEq, Repr

def Ending.name : Ending → String
  | .refresh => "refresh"
  | .close => "close"

namespace Kind

/-- Every kind, in the order of the catalog. -/
def all : List Kind :=
  [.alert, .showText, .showImage, .refresh, .setStorage, .getStorage, .growTrigger, .close,
    .promptAndShow, .recolorTrigger, .disableTrigger]

/-- The name a saved document uses. -/
def id : Kind → String
  | .alert => "alert"
  | .showText => "showText"
  | .showImage => "showImage"
  | .refresh => "refreshPage"
  | .setStorage => "setLocalStorage"
  | .getStorage => "getLocalStorage"
  | .growTrigger => "increaseButtonSize"
  | .close => "closeWindow"
  | .promptAndShow => "promptAndShow"
  | .recolorTrigger => "changeButtonColor"
  | .disableTrigger => "disableButton"

/-- The name to type. -/
def shortName : Kind → String
  | .alert => "alert"
  | .showText => "show-text"
  | .showImage => "show-image"
  | .refresh => "refresh"
  | .setStorage => "set-storage"
  | .getStorage => "get-storage"
  | .growTrigger => "grow-trigger"
  | .close => "close"
  | .promptAndShow => "prompt-and-show"
  | .recolorTrigger => "recolor-trigger"
  | .disableTrigger => "disable-trigger"

/-- The label of a new action. -/
def label : Kind → String
  | .alert => "Alert"
  | .showText => "Show Text"
  | .showImage => "Show Image"
  | .refresh => "Refresh Page"
  | .setStorage => "Set LocalStorage"
  | .getStorage => "Get LocalStorage"
  | .growTrigger => "Increase Button Size"
  | .close => "Close Window"
  | .promptAndShow => "Prompt and Show"
  | .recolorTrigger => "Change Button Color"
  | .disableTrigger => "Disable Button"

/-- What asks for the parameter; an action without one takes no parameter. -/
def paramPrompt? : Kind → Option String
  | .alert => some "Message"
  | .showText => some "Text to display"
  | .showImage => some "Image URL"
  | .setStorage => some "Key:Value (e.g. name:John)"
  | .getStorage => some "Key to retrieve"
  | .promptAndShow => some "Prompt message"
  | .recolorTrigger => some "Color (empty for random)"
  | .refresh | .growTrigger | .close | .disableTrigger => none

def hasParam (k : Kind) : Bool :=
  k.paramPrompt?.isSome

/-- How the action ends the run, if it does. -/
def ending? : Kind → Option Ending
  | .refresh => some .refresh
  | .close => some .close
  | _ => none

/-- The kind that a text names, by id or by short name. -/
def ofName? (name : String) : Option Kind :=
  all.find? fun k => k.id = name || k.shortName = name

/-- A catalog entry as it is written. -/
def entry (k : Kind) : Json.Value :=
  .object [("kind", .text k.id), ("label", .text k.label),
    ("param_prompt", .optional k.paramPrompt?)]

theorem ofName?_id (k : Kind) : ofName? k.id = some k := by
  cases k <;> decide

theorem ofName?_shortName (k : Kind) : ofName? k.shortName = some k := by
  cases k <;> decide

end Kind

end TriggerFlow
