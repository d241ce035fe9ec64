import TriggerFlow.Document
import TriggerFlow.Json.Printer
import TriggerFlow.Json.Record

/-!
# The saved form of a document

A document is saved as an object with the members `buttonLabel` and `actions`, an action as one with
`id`, `type`, `label` and `param`. Writing gives every member in this order. Reading is more
generous: members in any order, unknown ones passed over, the two of a document and the parameter of
an action left out. **A parameter that is missing and one that is the empty text stay apart**, the
first as `null`.
-/

set_option autoImplicit false

namespace TriggerFlow

/-! ## Writing -/

def Action.toJson (a : Action) : Json.Value :=
  .object [("id", .text a.id), ("type", .text a.kind), ("label", .text a.label),
    ("param", .optional a.param)]

def Document.toJson (d : Document) : Json.Value :=
  .object [("buttonLabel", .text d.label), ("actions", .list (d.actions.map Action.toJson))]

/-- The text that is saved. -/
def Document.render (d : Document) : String :=
  d.toJson.indentedText

/-! ## Reading -/

/-- An action of which some fields have been read. -/
structure Action.Partial where
  id : Option String
  kind : Option String
  label : Option String
  param : Option (Option String)

/-- The action, once every field it has to have is there. -/
def Action.Partial.complete (p : Action.Partial) : Action :=
  ⟨p.id.getD "", p.kind.getD "", p.label.getD "", p.param.getD none⟩

def Action.record : Json.Record Action.Partial where
  title := "struct ActionInstance"
  blank := ⟨none, none, none, none⟩
  fields := [
    { key := "id", isRequired := true, isSet := (·.id.isSome)
      read := fun p cs => (Json.readString cs).map fun (s, r) => ({ p with id := some s }, r) },
    { key := "type", isRequired := true, isSet := (·.kind.isSome)
      read := fun p cs => (Json.readString cs).map fun (s, r) => ({ p with kind := some s }, r) },
    { key := "label", isRequired := true, isSet := (·.label.isSome)
      read := fun p cs => (Json.readString cs).map fun (s, r) => ({ p with label := some s }, r) },
    { key := "param", isRequired := false, isSet := (·.param.isSome)
      read := fun p cs =>
        (Json.readOptionalString cs).map fun (s, r) => ({ p with param := some s }, r) }]

def Action.read : Json.Reader Action := fun cs =>
  (Action.record.read cs).map fun (p, rest) => (p.complete, rest)

/-- A document of which some fields have been read. -/
structure Document.Partial where
  label : Option String
  actions : Option (List Action)

def Document.Partial.complete (p : Document.Partial) : Document :=
  ⟨p.label.getD "", p.actions.getD []⟩

def Document.record : Json.Record Document.Partial where
  title := "struct WorkflowDocument"
  blank := ⟨none, none⟩
  fields := [
    { key := "buttonLabel", isRequired := false, isSet := (·.label.isSome)
      read := fun p cs => (Json.readString cs).map fun (s, r) => ({ p with label := some s }, r) },
    { key := "actions", isRequired := false, isSet := (·.actions.isSome)
      read := fun p cs =>
        (Json.readList Action.read cs).map fun (l, r) => ({ p with actions := some l }, r) }]

def Document.read : Json.Reader Document := fun cs =>
  (Document.record.read cs).map fun (p, rest) => (p.complete, rest)

/-- The document that a text holds. -/
def Document.parse (s : String) : Except Json.Fault Document :=
  Json.readAll Document.read s

end TriggerFlow
