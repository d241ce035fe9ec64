import TriggerFlow.Run

/-!
# The course of a run

Whoever drives a run decides at every moment whether it takes a step or is cancelled, and a step
changes the world the run works in and what is shown. A `Course` is a run with both, and **all that
can be seen of a run is the list of its stages**, one after each order it was given.
-/

set_option autoImplicit false

namespace TriggerFlow

/-- A run with what it works with and what shows it. -/
structure Course (η κ γ σ : Type) where
  run : Run
  world : World η κ γ
  shown : σ

/-- What a run is told to do. -/
inductive Order where
  | step
  | cancel
  deriving DecidableEq, Repr

/-- What came of an order. A run that is cancelled has no result. -/
structure Stage (η κ γ σ : Type) where
  result : Option StepResult
  /-- The course after the order. -/
  course : Course η κ γ σ

namespace Course

variable {η κ γ σ : Type} [Host η] [KeyValueStore κ] [ColorSource γ] [Sink σ]

/-- Obeys one order. -/
def obey (c : Course η κ γ σ) : Order → Stage η κ γ σ
  | .step =>
    let s := c.run.step c.world
    ⟨some s.result, ⟨s.run, s.world, Sink.applyAll s.changes c.shown⟩⟩
  | .cancel => ⟨none, { c with run := c.run.cancel }⟩

/-- Obeys orders in turn. -/
def follow (c : Course η κ γ σ) : List Order → List (Stage η κ γ σ)
  | [] => []
  | order :: orders => c.obey order :: (c.obey order).course.follow orders

/-- Takes steps until one finds nothing left to do. `fuel` bounds how many they are. -/
def stepsToEnd (c : Course η κ γ σ) : Nat → List (Stage η κ γ σ)
  | 0 => []
  | fuel + 1 =>
    let s := c.obey .step
    if s.result = some .finished then [s] else s :: s.course.stepsToEnd fuel

/-- Takes every step there is: one for each action at most, and one that finds nothing left. -/
def finish (c : Course η κ γ σ) : List (Stage η κ γ σ) :=
  c.stepsToEnd (c.run.actions.length + 1)

end Course

end TriggerFlow
