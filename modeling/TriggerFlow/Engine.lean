import TriggerFlow.Run
import TriggerFlow.Settings

/-!
# One run at a time

An engine runs documents for many callers, with one host, one store and one source of colors, and
**admits at most one of them at a time**: a call that comes while a run is in flight is refused and
changes nothing. Between two actions the run pauses; how long a pause takes is not decided here. An
engine is told what happens, one event after the other, and answers the call that an event ends.
-/

set_option autoImplicit false

namespace TriggerFlow

/-- A run that has begun and not ended; between two events it is in a pause. -/
structure Flight where
  /-- Who called. -/
  caller : Nat
  /-- Which of the cells the run changes. -/
  cell : Nat
  run : Run
  /-- The pauses so far, the one it is in included. -/
  pauses : Nat
  deriving DecidableEq, Repr

structure Engine (η κ γ σ : Type) where
  settings : Settings
  world : World η κ γ
  /-- What the callers look at, each at one of them. -/
  cells : List σ
  flight : Option Flight
  /-- The callers who have cancelled, some perhaps before they called. -/
  fired : List Nat

/-- Something that happens to an engine. -/
inductive Event where
  /-- A call to run a document, if there is one, and to show it in a cell. -/
  | call (caller : Nat) (document : Option Document) (cell : Nat)
  /-- The pause of the run in flight is over. -/
  | pauseEnd
  /-- A caller cancels. -/
  | fire (caller : Nat)
  /-- The run in flight notices in its pause that its caller has cancelled. -/
  | notice
  /-- A caller goes away and is not answered any more. -/
  | drop (caller : Nat)

/-- What a call is answered. -/
inductive Answer where
  | ended (outcome : Outcome)
  | refused (cause : Failure)

namespace Engine

variable {η κ γ σ : Type}

/-- An engine that has not run anything. -/
def new (settings : Settings) (world : World η κ γ) (cells : List σ) : Engine η κ γ σ :=
  ⟨settings, world, cells, none, []⟩

def isRunning (e : Engine η κ γ σ) : Bool :=
  e.flight.isSome

/-- The run in flight, if it was called by this caller. -/
def flightOf? (e : Engine η κ γ σ) (caller : Nat) : Option Flight :=
  e.flight.filter (·.caller = caller)

/-- An engine and the answer, if there is one, with the caller it is for. -/
abbrev Reply (η κ γ σ : Type) := Option (Nat × Answer) × Engine η κ γ σ

/-- Takes a run to its next pause or its end. A run whose caller has cancelled does nothing more. -/
def proceed [Host η] [KeyValueStore κ] [ColorSource γ] [Sink σ] (e : Engine η κ γ σ)
    (f : Flight) : Reply η κ γ σ :=
  let run := if f.caller ∈ e.fired then f.run.cancel else f.run
  let s := run.step e.world
  let e := { e with world := s.world, cells := e.cells.modify f.cell (Sink.applyAll s.changes) }
  match s.result with
  | .paced => (none, { e with flight := some { f with run := s.run, pauses := f.pauses + 1 } })
  | .terminal _ | .finished =>
    (some (f.caller, .ended (s.run.outcome f.pauses)), { e with flight := none })

/-- What comes of a call. That there is nothing to run is told first. -/
def call [Host η] [KeyValueStore κ] [ColorSource γ] [Sink σ] (e : Engine η κ γ σ) (caller : Nat)
    (document : Option Document) (cell : Nat) : Reply η κ γ σ :=
  match Run.start (document.getD .empty) e.settings.mode with
  | .error cause => (some (caller, .refused cause), e)
  | .ok run =>
    if e.isRunning then (some (caller, .refused .runInProgress), e)
    else e.proceed ⟨caller, cell, run, 0⟩

/-- What an event does. A pause ends when it is over or when the run notices that its caller has
cancelled; if both can happen, either may come first. -/
def handle [Host η] [KeyValueStore κ] [ColorSource γ] [Sink σ] (e : Engine η κ γ σ) :
    Event → Reply η κ γ σ
  | .call caller document cell => e.call caller document cell
  | .pauseEnd =>
    match e.flight with
    | some f => e.proceed f
    | none => (none, e)
  | .fire caller => (none, { e with fired := caller :: e.fired })
  | .notice =>
    match e.flight with
    | some f => if f.caller ∈ e.fired then e.proceed { f with run := f.run.cancel } else (none, e)
    | none => (none, e)
  | .drop caller =>
    match e.flightOf? caller with
    | some _ => (none, { e with flight := none })
    | none => (none, e)

end Engine

end TriggerFlow
