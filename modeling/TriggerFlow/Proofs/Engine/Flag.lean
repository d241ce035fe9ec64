import TriggerFlow.Proofs.Engine.Admission

/-!
# The flag of an engine

Callers share an engine and cannot see what is in flight. What they all see is a flag: a call that
has something to run raises it, and is refused if it is up already; a guard lowers it when the call
is over, whether it is answered or its caller goes away. **The flag is up as long as a run is in
flight and no longer**, so an engine that goes by its flag alone answers as one that looks.
-/

set_option autoImplicit false

namespace TriggerFlow

/-- An engine with the flag by which it admits calls. -/
structure Flagged (η κ γ σ : Type) where
  engine : Engine η κ γ σ
  isUp : Bool

namespace Flagged

variable {η κ γ σ : Type}

def new (settings : Settings) (world : World η κ γ) (cells : List σ) : Flagged η κ γ σ :=
  ⟨.new settings world cells, false⟩

/-- Raises the flag, if it is down. To look and to raise it is one thing, so no other call comes
between. -/
def raise? (g : Flagged η κ γ σ) : Option (Flagged η κ γ σ) :=
  if g.isUp then none else some { g with isUp := true }

/-- What the guard of a call does when the call is over. -/
def lower (g : Flagged η κ γ σ) : Flagged η κ γ σ :=
  { g with isUp := false }

section Handling

variable [Host η] [KeyValueStore κ] [ColorSource γ] [Sink σ]

/-- Takes a run to its next pause or its end; who is answered holds the guard no more. -/
def proceed (g : Flagged η κ γ σ) (f : Flight) : Option (Nat × Answer) × Flagged η κ γ σ :=
  match g.engine.proceed f with
  | (none, engine) => (none, { g with engine })
  | (some answer, engine) => (some answer, lower { g with engine })

/-- What comes of a call, by the flag alone. -/
def call (g : Flagged η κ γ σ) (caller : Nat) (document : Option Document) (cell : Nat) :
    Option (Nat × Answer) × Flagged η κ γ σ :=
  match Run.start (document.getD .empty) g.engine.settings.mode with
  | .error cause => (some (caller, .refused cause), g)
  | .ok run =>
    match g.raise? with
    | none => (some (caller, .refused .runInProgress), g)
    | some g => g.proceed ⟨caller, cell, run, 0⟩

def handle (g : Flagged η κ γ σ) : Event → Option (Nat × Answer) × Flagged η κ γ σ
  | .call caller document cell => g.call caller document cell
  | .pauseEnd =>
    match g.engine.flight with
    | some f => g.proceed f
    | none => (none, g)
  | .fire caller =>
    (none, { g with engine := { g.engine with fired := caller :: g.engine.fired } })
  | .notice =>
    match g.engine.flight with
    | some f =>
      if f.caller ∈ g.engine.fired then g.proceed { f with run := f.run.cancel } else (none, g)
    | none => (none, g)
  | .drop caller =>
    match g.engine.flightOf? caller with
    | some _ => (none, lower { g with engine := { g.engine with flight := none } })
    | none => (none, g)

def handleAll (g : Flagged η κ γ σ) :
    List Event → List (Event × Option (Nat × Answer)) × Flagged η κ γ σ
  | [] => ([], g)
  | event :: events =>
    let (answer, g) := g.handle event
    let (history, g) := g.handleAll events
    ((event, answer) :: history, g)

end Handling

/-! ## The flag tells what is in flight -/

/-- The engine with its flag as it should be. -/
def of (e : Engine η κ γ σ) : Flagged η κ γ σ :=
  ⟨e, e.isRunning⟩

theorem engine_of (e : Engine η κ γ σ) : (of e).engine = e := rfl

theorem of_of_flight {e : Engine η κ γ σ} {f : Flight} (h : e.flight = some f) :
    of e = ⟨e, true⟩ := by
  unfold of
  rw [Engine.isRunning_of_flight h]

theorem of_of_free {e : Engine η κ γ σ} (h : e.flight = none) : of e = ⟨e, false⟩ := by
  unfold of
  rw [Engine.isRunning_of_free h]

variable [Host η] [KeyValueStore κ] [ColorSource γ] [Sink σ]

/-- While a call holds the guard, a run that goes on leaves the flag as it should be. -/
theorem proceed_eq (e : Engine η κ γ σ) (f : Flight) :
    proceed ⟨e, true⟩ f = ((e.proceed f).1, of (e.proceed f).2) := by
  unfold proceed
  rcases Engine.proceed_cases e f with ⟨e', f', heq, hflight, -⟩ | ⟨e', outcome, heq, hflight⟩
  · rw [heq, of_of_flight hflight]
  · rw [heq, of_of_free hflight]
    rfl

theorem call_eq (e : Engine η κ γ σ) (caller : Nat) (document : Option Document) (cell : Nat) :
    (of e).call caller document cell =
      ((e.call caller document cell).1, of (e.call caller document cell).2) := by
  unfold call Engine.call
  rw [engine_of]
  cases Run.start (document.getD .empty) e.settings.mode with
  | error cause => rfl
  | ok run =>
    dsimp only
    cases hf : e.flight with
    | some f =>
      rw [if_pos (Engine.isRunning_of_flight hf), of_of_flight hf]
      rfl
    | none =>
      rw [if_neg (by simp [Engine.isRunning_of_free hf]), of_of_free hf]
      exact proceed_eq e _

/-- **One event keeps the flag as it should be**, and is answered as by an engine that looks. -/
theorem handle_eq (e : Engine η κ γ σ) (event : Event) :
    (of e).handle event = ((e.handle event).1, of (e.handle event).2) := by
  cases event with
  | call caller document cell => exact call_eq e caller document cell
  | fire caller => rfl
  | pauseEnd =>
    cases hf : e.flight with
    | none => simp only [handle, Engine.handle, of, hf]
    | some f =>
      rw [of_of_flight hf]
      simp only [handle, Engine.handle, hf]
      exact proceed_eq e f
  | notice =>
    cases hf : e.flight with
    | none => simp only [handle, Engine.handle, of, hf]
    | some f =>
      rw [of_of_flight hf]
      simp only [handle, Engine.handle, hf]
      by_cases hfired : f.caller ∈ e.fired
      · rw [if_pos hfired, if_pos hfired]
        exact proceed_eq e _
      · rw [if_neg hfired, if_neg hfired, of_of_flight hf]
  | drop caller =>
    simp only [handle, Engine.handle, of]
    cases e.flightOf? caller <;> rfl

theorem handleAll_eq (e : Engine η κ γ σ) (events : List Event) :
    (of e).handleAll events = ((e.handleAll events).1, of (e.handleAll events).2) := by
  induction events generalizing e with
  | nil => rfl
  | cons event events ih =>
    unfold handleAll Engine.handleAll
    rw [handle_eq]
    dsimp only
    rw [ih]

/-- **An engine that goes by its flag is one that looks**, after every history: it gives the same
answers, and its flag is up exactly if a call is under way that these leave open. -/
theorem handleAll_new (settings : Settings) (w : World η κ γ) (cells : List σ)
    (events : List Event) :
    let flagged := (new settings w cells).handleAll events
    let looking := (Engine.new settings w cells).handleAll events
    flagged.1 = looking.1 ∧ flagged.2.engine = looking.2 ∧ flagged.2.isUp = looking.2.isRunning ∧
      (flagged.2.isUp = true ↔ ∃ caller, openCalls flagged.1 = [caller]) := by
  have hnew : (new settings w cells : Flagged η κ γ σ) = of (.new settings w cells) := rfl
  have hcalls : openCalls ((Engine.new settings w cells).handleAll events).1 =
      ((Engine.new settings w cells).handleAll events).2.callers :=
    Engine.foldl_openAfter (Engine.new settings w cells) events
  rw [hnew, handleAll_eq]
  refine ⟨rfl, rfl, rfl, ?_⟩
  rw [hcalls]
  exact (Engine.admitsOne_callers _).isRunning_iff

end Flagged
end TriggerFlow
