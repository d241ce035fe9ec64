import TriggerFlow.Engine

/-!
# Virtual time

Doing an action takes no time, and a pause takes as many milliseconds as the engine is set to, but
never more than `longestWait`. A `Clock` is an engine at a moment; letting time pass ends the pauses
that are over by then, one after the other, **each at the moment at which it is over**, so that what
is seen at any moment does not depend on when someone looked before.
-/

set_option autoImplicit false

namespace TriggerFlow

/-- What became of a call and when. -/
structure Ended where
  caller : Nat
  /-- The moment. -/
  time : Nat
  /-- Nothing, if the caller went away. -/
  answer : Option Answer

structure Clock (η κ γ σ : Type) where
  engine : Engine η κ γ σ
  now : Nat
  /-- When the pause in flight is over. -/
  wake : Nat
  /-- The calls that have ended, first one first. -/
  ended : List Ended

namespace Clock

/-- The longest that anything is waited for, in milliseconds: thirty years of 365 days. -/
def longestWait : Nat := 30 * 365 * 24 * 60 * 60 * 1000

variable {η κ γ σ : Type} [Host η] [KeyValueStore κ] [ColorSource γ] [Sink σ]

/-- An engine at the moment from which time is counted, nobody having called or cancelled yet. -/
def start (engine : Engine η κ γ σ) : Clock η κ γ σ :=
  ⟨{ engine with fired := [] }, 0, 0, []⟩

/-- What became of the call of a caller, once it has ended. -/
def endOf? (c : Clock η κ γ σ) (caller : Nat) : Option Ended :=
  c.ended.find? (·.caller = caller)

/-- An event may begin a pause if it lets a run proceed that is not in one. -/
def beginsPause (c : Clock η κ γ σ) : Event → Bool
  | .call _ _ _ => !c.engine.isRunning
  | .pauseEnd => true
  | .fire _ | .notice | .drop _ => false

/-- Lets an event happen now. -/
def happen (event : Event) (c : Clock η κ γ σ) : Clock η κ γ σ :=
  match c.engine.handle event with
  | (answer, engine) =>
    { c with
      engine
      wake :=
        if c.beginsPause event then c.now + min c.engine.settings.pacing longestWait else c.wake
      ended := c.ended ++ (answer.map fun a => ⟨a.1, c.now, some a.2⟩).toList }

/-- Ends pauses up to a moment, or to the end of the run in flight if there is none. `fuel` bounds
how many they are. -/
def endPauses (limit : Option Nat) : Nat → Clock η κ γ σ → Clock η κ γ σ
  | 0, c => c
  | fuel + 1, c =>
    if c.engine.isRunning && limit.all (c.wake ≤ ·) then
      endPauses limit fuel (({ c with now := c.wake } : Clock η κ γ σ).happen .pauseEnd)
    else c

/-- How many pauses there can still be: each is followed by an action or by the end. -/
def pausesLeft (c : Clock η κ γ σ) : Nat :=
  match c.engine.flight with
  | some f => f.run.actions.length - f.run.executed + 1
  | none => 0

/-- Lets time pass up to a moment. -/
def advance (time : Nat) (c : Clock η κ γ σ) : Clock η κ γ σ :=
  { c.endPauses (some time) c.pausesLeft with now := time }

/-- Lets time pass until nothing is in flight. -/
def finish (c : Clock η κ γ σ) : Clock η κ γ σ :=
  c.endPauses none c.pausesLeft

/-- Lets an event happen at a moment, and then the pauses end that take no time. A call of someone
who has gone away is not made; someone who goes away is not answered. Who cancels is noticed at
once. -/
def happenAt (time : Nat) (event : Event) (c : Clock η κ γ σ) : Clock η κ γ σ :=
  let c := c.advance time
  match event with
  | .call caller _ _ =>
    if (c.endOf? caller).isSome then c else (c.happen event).advance time
  | .drop caller =>
    if (c.endOf? caller).isSome then c
    else
      let c := c.happen event
      { c with ended := c.ended ++ [⟨caller, time, none⟩] }
  | .fire _ => ((c.happen event).happen .notice).advance time
  | .pauseEnd | .notice => (c.happen event).advance time

end Clock

end TriggerFlow
