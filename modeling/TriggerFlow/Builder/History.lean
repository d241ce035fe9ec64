import TriggerFlow.Builder

/-!
# The history of a document

Whoever edits keeps every document made on the way, and an edit may start from any of them, so the
documents form a tree. **No edit changes a document that is there**: one that succeeds adds a
document, one that fails adds none, and what all of them share is only the builder, whose tokens
are used up.
-/

set_option autoImplicit false

namespace TriggerFlow

/-- One edit of a document. -/
inductive Edit where
  | append (kind param : String)
  | remove (index : Nat)
  | move (source target : Nat)
  | relabel (label : String)
  deriving DecidableEq, Repr

variable {τ : Type}

/-- Makes an edit. Only appending asks for tokens. -/
def Builder.edit [TokenSource τ] (b : Builder τ) (d : Document) :
    Edit → Except Failure Document × Builder τ
  | .append kind param => b.append d kind param
  | .remove index => (d.remove index, b)
  | .move source target => (d.move source target, b)
  | .relabel label => (.ok (d.relabel label), b)

/-- The documents made so far, first one first, and the builder that they share. -/
structure History (τ : Type) where
  documents : List Document
  builder : Builder τ

namespace History

/-- Before any edit. -/
def start (d : Document) (b : Builder τ) : History τ :=
  ⟨[d], b⟩

/-- The number of the newest document. -/
def latest (h : History τ) : Nat :=
  h.documents.length - 1

/-- The document with a number; without one it is empty. -/
def document (h : History τ) (number : Nat) : Document :=
  h.documents.getD number .empty

/-- Edits the document with a number. -/
def edit [TokenSource τ] (h : History τ) (number : Nat) (e : Edit) :
    Except Failure Document × History τ :=
  match h.builder.edit (h.document number) e with
  | (.ok d, builder) => (.ok d, ⟨h.documents ++ [d], builder⟩)
  | (.error cause, builder) => (.error cause, { h with builder })

end History

end TriggerFlow
