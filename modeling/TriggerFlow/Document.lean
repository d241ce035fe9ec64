import TriggerFlow.Catalog

/-!
# Workflow documents

A document binds a list of actions to the label of one trigger, and **the order of the list is the
order in which they run**. Kinds are kept as the texts that were saved: a document may hold a kind
the catalog does not know, and it is still a document.
-/

set_option autoImplicit false

namespace TriggerFlow

/-- One action of a document. -/
structure Action where
  /-- Tells it from the other actions of a document, if nothing else wrote the file. -/
  id : String
  /-- An id or a short name of the catalog, or a text that names nothing. -/
  kind : String
  label : String
  param : Option String
  deriving DecidableEq, Repr

namespace Action

def kind? (a : Action) : Option Kind :=
  Kind.ofName? a.kind

def paramOrEmpty (a : Action) : String :=
  a.param.getD ""

/-- The parameter, unless it is missing or empty. -/
def nonEmptyParam? (a : Action) : Option String :=
  a.param.filter (· ≠ "")

end Action

structure Document where
  label : String
  actions : List Action
  deriving DecidableEq, Repr

namespace Document

/-- No label and no actions. -/
def empty : Document :=
  ⟨"", []⟩

def size (d : Document) : Nat :=
  d.actions.length

/-- There is something to run. -/
def isRunnable (d : Document) : Bool :=
  !d.actions.isEmpty

/-- The ids of the actions in order. -/
def ids (d : Document) : List String :=
  d.actions.map (·.id)

def containsId (d : Document) (id : String) : Bool :=
  d.actions.any (·.id = id)

/-- Goes through ids that follow those in `seen` and adds each one that is there already to
`found`, once. -/
def repeated : List String → List String → List String → List String
  | _, found, [] => found
  | seen, found, id :: ids =>
    if id ∈ seen then repeated seen (if id ∈ found then found else found ++ [id]) ids
    else repeated (id :: seen) found ids

/-- The ids that more than one action has, in the order in which they occur a second time. -/
def duplicateIds (d : Document) : List String :=
  repeated [] [] d.ids

/-- One line of the preview: the position, the label and the parameter if there is one to show. -/
def previewLine (index : Nat) (a : Action) : String :=
  let head := toString (index + 1) ++ ". " ++ a.label
  match a.nonEmptyParam? with
  | some param => head ++ " → \"" ++ param ++ "\""
  | none => head

/-- One line for each action. -/
def preview (d : Document) : List String :=
  d.actions.mapIdx previewLine

end Document

end TriggerFlow
