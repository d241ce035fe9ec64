import TriggerFlow.Failure
import TriggerFlow.Run.Effect

/-!
# Running a document, one action at a time

A run goes through the actions of a document in order. Each step does the next action and never
waits; when to step, and whether to cancel, is up to whoever drives the run. **The first step puts
what is shown back to its start**, so a run that is cancelled before it leaves everything as it was.

    idle ──step──▶ running 1 ──step──▶ running 2 … ──▶ done
                       ├── an action that ends the run ──▶ terminal
                       └── cancel ──▶ cancelled
-/

set_option autoImplicit false

namespace TriggerFlow

/-- Where a run is. -/
inductive Phase where
  /-- Nothing has been done yet. -/
  | idle
  /-- The position of the next action. -/
  | running (next : Nat)
  /-- An action has ended the run. -/
  | terminal (ending : Ending)
  /-- Every action has been done. -/
  | done
  /-- Stopped before the next action. -/
  | cancelled
  deriving DecidableEq, Repr

/-- No step can do anything any more. -/
def Phase.isFinished : Phase → Bool
  | .idle | .running _ => false
  | .terminal _ | .done | .cancelled => true

/-- The position of the action that the next step does. -/
def Phase.next? : Phase → Option Nat
  | .idle => some 0
  | .running next => some next
  | .terminal _ | .done | .cancelled => none

/-- What a step did. -/
inductive StepResult where
  /-- It did an action, after which there is a pause. -/
  | paced
  /-- It did an action that ends the run. -/
  | terminal (ending : Ending)
  /-- There was nothing left to do. -/
  | finished
  deriving DecidableEq, Repr

/-- An issue and the action it is about. -/
structure Diagnostic where
  /-- The position of the action. -/
  index : Nat
  /-- The kind of the action as it is written in the document. -/
  kind : String
  issue : Issue
  deriving DecidableEq, Repr

/-- How a run ended. -/
inductive Status where
  | completed
  | terminated (ending : Ending)
  | cancelled
  deriving DecidableEq, Repr

/-- What is told of a run at its end. -/
structure Outcome where
  status : Status
  /-- How many actions were done, those of an unknown kind included. -/
  executed : Nat
  /-- How many pauses were made. -/
  pauses : Nat
  diagnostics : List Diagnostic
  deriving DecidableEq, Repr

structure Run where
  actions : List Action
  mode : StorageMode
  phase : Phase
  executed : Nat
  /-- First diagnostic first. -/
  diagnostics : List Diagnostic
  deriving DecidableEq, Repr

/-- A run after a step, with what the step did to everything else. -/
structure Stepped (η κ γ : Type) where
  result : StepResult
  run : Run
  world : World η κ γ
  changes : List Change

namespace Run

variable {η κ γ : Type}

/-- A run of a document, which has to have an action. -/
def start (d : Document) (mode : StorageMode) : Except Failure Run :=
  if d.isRunnable then .ok ⟨d.actions, mode, .idle, 0, []⟩ else .error .noActions

/-- Stops a run before its next action. -/
def cancel (r : Run) : Run :=
  if r.phase.isFinished then r else { r with phase := .cancelled }

/-- The phase after the action at a position. -/
def phaseAfter (r : Run) (index : Nat) (a : Action) : Phase :=
  match a.ending? with
  | some ending => .terminal ending
  | none => if index + 1 < r.actions.length then .running (index + 1) else .done

/-- Does the next action. -/
def step [Host η] [KeyValueStore κ] [ColorSource γ] (r : Run) (w : World η κ γ) :
    Stepped η κ γ :=
  match r.phase.next? with
  | none => ⟨.finished, r, w, []⟩
  | some index =>
    match r.actions[index]? with
    | none => ⟨.finished, r, w, []⟩
    | some a =>
      let effect := a.perform r.mode w
      let reset := if r.phase = .idle then [Change.reset] else []
      { result := a.ending?.elim .paced .terminal
        run :=
          { r with
            phase := r.phaseAfter index a
            executed := r.executed + 1
            diagnostics := r.diagnostics ++ effect.issues.map (⟨index, a.kind, ·⟩) }
        world := effect.world
        changes := reset ++ effect.change.toList }

/-- How the run ended. One that has not is told as cancelled. -/
def status (r : Run) : Status :=
  match r.phase with
  | .done => .completed
  | .terminal ending => .terminated ending
  | .idle | .running _ | .cancelled => .cancelled

def outcome (r : Run) (pauses : Nat) : Outcome :=
  ⟨r.status, r.executed, pauses, r.diagnostics⟩

end Run

end TriggerFlow
