import TriggerFlow.Builder
import TriggerFlow.CommandLine.Listing

/-!
# Editing commands

A command that edits loads the saved document, makes one edit and saves the result. **What is
refused leaves the saved file as it is.** Positions are counted from one, as they are shown.
-/

set_option autoImplicit false

namespace TriggerFlow.CommandLine

/-- What an edit makes of a document: the new one, what is told, and a remark beside it. -/
structure Edited where
  document : Document
  news : String
  remark : String

/-- The index of a position. -/
def indexOf (d : Document) (position : Nat) : Except CommandFailure Nat :=
  if position = 0 ∨ d.size < position then .error (.positionOutOfRange position d.size)
  else .ok (position - 1)

/-- A failure of an edit as one of a command. -/
def orFail {α : Type} : Except Failure α → Except CommandFailure α :=
  Except.mapError .failed

def relabel (label : String) (d : Document) : Except CommandFailure Edited :=
  .ok ⟨d.relabel label, "Label updated", ""⟩

/-- Adds an action. A parameter for a kind that takes none is remarked on. -/
def add (tokens : Serial) (kind param : String) (d : Document) : Except CommandFailure Edited := do
  let builder := Builder.new tokens Serial.token
  let next ← orFail (builder.append d kind param).1
  let remark := match Kind.ofName? kind with
    | some k =>
      if !k.hasParam && param ≠ "" then k.label ++ " takes no parameter; ignoring it\n" else ""
    | none => ""
  let label := next.actions.getLast?.elim "" (·.label)
  return ⟨next, "Added " ++ label ++ " at position " ++ toString next.size, remark⟩

def remove (position : Nat) (d : Document) : Except CommandFailure Edited := do
  let index ← indexOf d position
  let next ← orFail (d.remove index)
  let label := d.actions[index]?.elim "" (·.label)
  return ⟨next, "Removed " ++ label ++ " from position " ++ toString position, ""⟩

def move (source target : Nat) (d : Document) : Except CommandFailure Edited := do
  let sourceIndex ← indexOf d source
  let targetIndex ← indexOf d target
  let next ← orFail (d.move sourceIndex targetIndex)
  return ⟨next, "Moved position " ++ toString source ++ " to " ++ toString target, ""⟩

/-- An empty document, whatever was saved. -/
def cleared : Edited :=
  ⟨.empty, "Workflow cleared", ""⟩

end TriggerFlow.CommandLine
