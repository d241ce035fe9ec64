import TriggerFlow.Engine.Clock

/-!
# Schedules

A schedule says when calls are made, cancelled and given up, and when someone looks. It is played in
the order of time, **calls of one moment in the order in which they are planned**, and someone who
looks sees what has happened up to that moment. What is seen is told in the order in which the looks
are planned, which need not be that of time. Each moment is waited for from the beginning, so one
that is further off than the longest wait comes when that is over.
-/

set_option autoImplicit false

namespace TriggerFlow

/-- When a caller cancels. -/
inductive Firing where
  | never
  /-- Before anything else happens. -/
  | beforehand
  | at (time : Nat)
  deriving DecidableEq, Repr

/-- A call that is planned. -/
structure Planned where
  document : Option Document
  /-- The cell to show it in. -/
  cell : Nat
  start : Nat
  cancel : Firing
  /-- When the caller goes away, if ever. -/
  leave : Option Nat

structure Schedule where
  calls : List Planned
  /-- When someone looks. -/
  looks : List Nat

/-- What is seen, and the time for which the look was planned. -/
structure Observation (η κ γ σ : Type) where
  time : Nat
  engine : Engine η κ γ σ

namespace Schedule

/-- When a planned time comes. -/
def reached (time : Nat) : Nat := min time Clock.longestWait

/-- What happens at a moment; nothing does when someone only looks. -/
abbrev Moment := Nat × Option Event

/-- Everything that a schedule says, in the order of time; at one moment calls come before
cancellations, and looks last. -/
def moments (s : Schedule) : List Moment :=
  let calls := s.calls.zipIdx
  let starts : List Moment := calls.map fun (p, i) => (p.start, some (.call i p.document p.cell))
  let fires : List Moment := calls.filterMap fun (p, i) =>
    match p.cancel with
    | .at time => some (time, some (.fire i))
    | .never | .beforehand => none
  let leaves : List Moment :=
    calls.filterMap fun (p, i) => p.leave.map fun time => (time, some (.drop i))
  let looks := s.looks.map fun time => (time, none)
  let planned : List Moment := starts ++ fires ++ leaves ++ looks
  (planned.map fun m => (reached m.1, m.2)).mergeSort fun m n => m.1 ≤ n.1

/-- The callers who cancel before anything else happens. -/
def firedBeforehand (s : Schedule) : List Nat :=
  s.calls.zipIdx.filterMap fun (p, i) => if p.cancel = .beforehand then some i else none

variable {η κ γ σ : Type} [Host η] [KeyValueStore κ] [ColorSource γ] [Sink σ]

/-- Plays moments in order. The observations are in the order of time. -/
def playMoments : List Moment → Clock η κ γ σ → List (Observation η κ γ σ) × Clock η κ γ σ
  | [], c => ([], c)
  | (time, some event) :: moments, c => playMoments moments (c.happenAt time event)
  | (time, none) :: moments, c =>
    let c := c.advance time
    let (seen, last) := playMoments moments c
    (⟨time, c.engine⟩ :: seen, last)

/-- Plays a schedule from the moment at which time starts to the end of the last run. Looks at one
moment see the same. -/
def play (s : Schedule) (engine : Engine η κ γ σ) :
    List (Observation η κ γ σ) × Clock η κ γ σ :=
  let c := s.firedBeforehand.foldl (fun c caller => c.happen (.fire caller)) (Clock.start engine)
  let (seen, c) := playMoments s.moments c
  let look (time : Nat) : Option (Observation η κ γ σ) :=
    (seen.find? fun o => o.time = reached time).map fun o => { o with time }
  (s.looks.filterMap look, c.finish)

end Schedule

end TriggerFlow
