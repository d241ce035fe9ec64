import TriggerFlow.Presentation

/-!
# Shared presentations

A display looks at the same state that a run changes, each through a handle of its own. Handles made
from one another name one cell, and **a change through one of them is seen through all of them and
through no other handle**.
-/

set_option autoImplicit false

namespace TriggerFlow

/-- Cells, and the handles that name them in the order in which they were made. -/
structure Shared where
  cells : List Presentation
  /-- The number of the cell that each handle names. -/
  handles : List Nat

namespace Shared

/-- One handle on one cell. -/
def initial : Shared :=
  ⟨[.initial], [0]⟩

/-- The number of the cell that a handle names; a handle that was never made names none. -/
def cell? (s : Shared) (handle : Nat) : Option Nat :=
  s.handles[handle]?

/-- What is seen through a handle. -/
def snapshot? (s : Shared) (handle : Nat) : Option Presentation :=
  (s.cell? handle).bind (s.cells[·]?)

/-- What is seen through every handle. -/
def snapshots (s : Shared) : List Presentation :=
  s.handles.filterMap (s.cells[·]?)

/-- Makes a change through a handle. -/
def apply (c : Change) (handle : Nat) (s : Shared) : Shared :=
  match s.cell? handle with
  | some cell => { s with cells := s.cells.modify cell (Presentation.apply c) }
  | none => s

/-- A further handle on the cell of a handle. -/
def clone (handle : Nat) (s : Shared) : Shared :=
  match s.cell? handle with
  | some cell => { s with handles := s.handles ++ [cell] }
  | none => s

/-- A handle on a cell of its own. -/
def create (s : Shared) : Shared :=
  { cells := s.cells ++ [.initial], handles := s.handles ++ [s.cells.length] }

end Shared

end TriggerFlow
