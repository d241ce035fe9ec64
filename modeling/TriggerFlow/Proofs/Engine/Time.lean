import TriggerFlow.Engine.Schedule
import TriggerFlow.Proofs.Engine.Admission

/-!
# Letting time pass

Time passes in stretches, from one thing that happens to the next, and pauses end on the way. **It
does not matter into how many stretches it is cut**: `advance_advance` says so of two, and
`finish_advance` of a stretch and the rest of time. A look is nothing but a cut, so nothing depends
on who looks and when.

Ends of pauses are counted by fuel. What makes the fuel enough is that a run has never done more
actions than its cursor has passed, so each end of a pause uses up one of the pauses that
`pausesLeft` allows for.
-/

set_option autoImplicit false

namespace TriggerFlow

variable {η κ γ σ : Type}

namespace Run

/-- A run has done no more actions than its cursor has passed. -/
def InStep (r : Run) : Prop :=
  ∀ next, r.phase.next? = some next → r.executed ≤ next

theorem inStep_cancel {r : Run} (h : r.InStep) : r.cancel.InStep := by
  unfold cancel
  split
  · exact h
  · exact fun next hnext => absurd hnext (by simp [Phase.next?])

theorem next?_cancel (r : Run) : r.cancel.phase.next? = none := by
  unfold cancel
  cases hp : r.phase <;> simp [hp, Phase.isFinished, Phase.next?]

variable [Host η] [KeyValueStore κ] [ColorSource γ]

theorem result_step_of_next? {r : Run} (h : r.phase.next? = none) (w : World η κ γ) :
    (r.step w).result = .finished := by
  unfold step
  rw [h]

/-- **A step before a pause** does the action at the cursor, which moves on by one. -/
theorem step_of_paced {r : Run} {w : World η κ γ} (h : (r.step w).result = .paced) :
    ∃ index, r.phase.next? = some index ∧ index < r.actions.length ∧
      (r.step w).run.actions = r.actions ∧ (r.step w).run.executed = r.executed + 1 ∧
      ∀ next, (r.step w).run.phase.next? = some next → next = index + 1 := by
  unfold step at h ⊢
  cases hnext : r.phase.next? with
  | none =>
    rw [hnext] at h
    exact absurd h (by simp)
  | some index =>
    rw [hnext] at h
    dsimp only at h ⊢
    cases hact : r.actions[index]? with
    | none =>
      rw [hact] at h
      exact absurd h (by simp)
    | some a =>
      refine ⟨index, rfl, (List.getElem?_eq_some_iff.mp hact).1, rfl, rfl, fun next hn => ?_⟩
      unfold phaseAfter at hn
      dsimp only at hn
      split at hn
      · exact absurd hn (by simp [Phase.next?])
      · split at hn
        · exact (Option.some.inj hn).symm
        · exact absurd hn (by simp [Phase.next?])

end Run

namespace Engine

def InStep (e : Engine η κ γ σ) : Prop :=
  ∀ f, e.flight = some f → f.run.InStep

variable [Host η] [KeyValueStore κ] [ColorSource γ] [Sink σ]

/-- **A run that pauses again** has done one more action and has not been cancelled. -/
theorem proceed_of_flight {e : Engine η κ γ σ} {f g : Flight}
    (h : (e.proceed f).2.flight = some g) :
    f.caller ∉ e.fired ∧ g.caller = f.caller ∧ ∃ index, f.run.phase.next? = some index ∧
      index < f.run.actions.length ∧ g.run.actions = f.run.actions ∧
      g.run.executed = f.run.executed + 1 ∧
      ∀ next, g.run.phase.next? = some next → next = index + 1 := by
  by_cases hfired : f.caller ∈ e.fired
  · unfold proceed at h
    -- A run whose caller has cancelled would have ended.
    rw [if_pos hfired] at h
    have hover := Run.result_step_of_next? (f.run.next?_cancel) e.world
    simp [hover] at h
  · unfold proceed at h
    rw [if_neg hfired] at h
    dsimp only at h
    split at h
    · case h_1 hpaced =>
      have hg := Option.some.inj h
      obtain ⟨index, hnext, hlt, hactions, hexecuted, hphase⟩ := Run.step_of_paced hpaced
      rw [← hg]
      exact ⟨hfired, rfl, index, hnext, hlt, hactions, hexecuted, hphase⟩
    · exact absurd h (by simp)
    · exact absurd h (by simp)

theorem inStep_proceed (e : Engine η κ γ σ) {f : Flight} (hf : f.run.InStep) :
    (e.proceed f).2.InStep := by
  intro g hg next hn
  obtain ⟨-, -, index, hnext, -, -, hexecuted, hphase⟩ := proceed_of_flight hg
  have hle := hf index hnext
  have heq := hphase next hn
  omega

theorem inStep_handle {e : Engine η κ γ σ} (h : e.InStep) (event : Event) :
    (e.handle event).2.InStep := by
  cases event with
  | call caller document cell =>
    dsimp only [handle, call]
    split
    · exact h
    · case h_2 run hrun =>
      split
      · exact h
      · obtain ⟨-, rfl⟩ := Run.start_eq_ok_iff.mp hrun
        exact inStep_proceed e fun next hn => Nat.zero_le next
  | pauseEnd =>
    dsimp only [handle]
    split
    · case h_1 f hf => exact inStep_proceed e (h f hf)
    · exact h
  | fire caller => exact h
  | notice =>
    dsimp only [handle]
    split
    · case h_1 f hf =>
      split
      · exact inStep_proceed e (Run.inStep_cancel (h f hf))
      · exact h
    · exact h
  | drop caller =>
    dsimp only [handle]
    split
    · exact fun f hf => absurd hf (by simp)
    · exact h

end Engine

namespace Clock

/-- There is a pause, and it is over by then. -/
def isDue (c : Clock η κ γ σ) (limit : Option Nat) : Bool :=
  c.engine.isRunning && limit.all (c.wake ≤ ·)

theorem isDue_of_free {c : Clock η κ γ σ} (h : c.engine.flight = none) (limit : Option Nat) :
    c.isDue limit = false := by
  unfold isDue
  rw [Engine.isRunning_of_free h]
  rfl

theorem isRunning_of_isDue {c : Clock η κ γ σ} {limit : Option Nat} (h : c.isDue limit = true) :
    c.engine.isRunning = true := by
  unfold isDue at h
  rw [Bool.and_eq_true] at h
  exact h.1

theorem isDue_of_later {limit limit' : Option Nat}
    (later : ∀ wake, limit.all (wake ≤ ·) = true → limit'.all (wake ≤ ·) = true)
    {c : Clock η κ γ σ} (h : c.isDue limit = true) : c.isDue limit' = true := by
  unfold isDue at h ⊢
  rw [Bool.and_eq_true] at h ⊢
  exact ⟨h.1, later _ h.2⟩

theorem not_isDue_of_pausesLeft {c : Clock η κ γ σ} (h : c.pausesLeft = 0) (limit : Option Nat) :
    c.isDue limit = false := by
  unfold pausesLeft at h
  cases hf : c.engine.flight with
  | none => exact isDue_of_free hf limit
  | some f =>
    rw [hf] at h
    exact absurd h (Nat.succ_ne_zero _)

variable [Host η] [KeyValueStore κ] [ColorSource γ] [Sink σ]

def endPause (c : Clock η κ γ σ) : Clock η κ γ σ :=
  ({ c with now := c.wake } : Clock η κ γ σ).happen .pauseEnd

theorem endPauses_succ (c : Clock η κ γ σ) (limit : Option Nat) (fuel : Nat) :
    c.endPauses limit (fuel + 1) =
      if c.isDue limit = true then c.endPause.endPauses limit fuel else c := rfl

theorem endPauses_of_not_isDue {c : Clock η κ γ σ} {limit : Option Nat}
    (h : c.isDue limit = false) (fuel : Nat) : c.endPauses limit fuel = c := by
  cases fuel with
  | zero => rfl
  | succ fuel => rw [endPauses_succ, if_neg (by simp [h])]

/-- **An end of a pause uses one up.** -/
theorem pausesLeft_endPause {c : Clock η κ γ σ} {limit : Option Nat} (h : c.engine.InStep)
    (due : c.isDue limit = true) : c.endPause.pausesLeft < c.pausesLeft := by
  obtain ⟨f, hf⟩ := Option.isSome_iff_exists.mp (isRunning_of_isDue due)
  have hbefore : c.pausesLeft = f.run.actions.length - f.run.executed + 1 := by
    unfold pausesLeft
    rw [hf]
  have hafter : c.endPause.engine = (c.engine.proceed f).2 := by
    unfold endPause happen
    dsimp only [Engine.handle]
    rw [hf]
  rw [hbefore]
  unfold pausesLeft
  rw [hafter]
  cases hg : (c.engine.proceed f).2.flight with
  | none => exact Nat.succ_pos _
  | some g =>
    obtain ⟨-, -, index, hnext, hlt, hactions, hexecuted, -⟩ := Engine.proceed_of_flight hg
    have hle := h f hf index hnext
    dsimp only
    rw [hactions, hexecuted]
    omega

theorem inStep_happen {c : Clock η κ γ σ} (h : c.engine.InStep) (event : Event) :
    (c.happen event).engine.InStep :=
  Engine.inStep_handle h event

theorem inStep_endPauses {c : Clock η κ γ σ} (h : c.engine.InStep) (limit : Option Nat)
    (fuel : Nat) : (c.endPauses limit fuel).engine.InStep := by
  induction fuel generalizing c with
  | zero => exact h
  | succ fuel ih =>
    rw [endPauses_succ]
    split
    · exact ih (inStep_happen h .pauseEnd)
    · exact h

/-- **Pauses that end in two stretches end as in one**, whatever the fuel of the first. -/
theorem endPauses_endPauses {c : Clock η κ γ σ} {limit limit' : Option Nat}
    (later : ∀ wake, limit.all (wake ≤ ·) = true → limit'.all (wake ≤ ·) = true)
    (h : c.engine.InStep) {fuel fuel₁ fuel₂ : Nat}
    (h₁ : (c.endPauses limit fuel).pausesLeft ≤ fuel₁) (h₂ : c.pausesLeft ≤ fuel₂) :
    (c.endPauses limit fuel).endPauses limit' fuel₁ = c.endPauses limit' fuel₂ := by
  -- The longer stretch is what is gone through; it may end pauses of the first one or its own.
  induction fuel₂ generalizing c fuel fuel₁ with
  | zero =>
    have hnone := Nat.le_zero.mp h₂
    rw [endPauses_of_not_isDue (not_isDue_of_pausesLeft hnone limit)] at h₁ ⊢
    exact endPauses_of_not_isDue (not_isDue_of_pausesLeft hnone limit') fuel₁
  | succ fuel₂ ih =>
    rw [endPauses_succ]
    by_cases hdue' : c.isDue limit' = true
    · rw [if_pos hdue']
      have hless := pausesLeft_endPause h hdue'
      have hstep : c.endPause.engine.InStep := inStep_happen h .pauseEnd
      -- Either both stretches end this pause, or the first one is over before it.
      by_cases hdue : c.isDue limit = true ∧ fuel ≠ 0
      · obtain ⟨k, rfl⟩ := Nat.exists_eq_succ_of_ne_zero hdue.2
        rw [endPauses_succ, if_pos hdue.1] at h₁ ⊢
        exact ih hstep h₁ (by omega)
      · have hstay : c.endPauses limit fuel = c := by
          cases fuel with
          | zero => rfl
          | succ k =>
            exact endPauses_of_not_isDue (by simpa using hdue) _
        rw [hstay] at h₁ ⊢
        obtain ⟨k, rfl⟩ : ∃ k, fuel₁ = k + 1 := ⟨fuel₁ - 1, by omega⟩
        rw [endPauses_succ, if_pos hdue']
        have hleft : (c.endPause.endPauses limit 0).pausesLeft ≤ k := by
          show c.endPause.pausesLeft ≤ k
          omega
        exact ih hstep hleft (by omega)
    · have hnot : c.isDue limit = false := by
        cases hd : c.isDue limit with
        | false => rfl
        | true => exact absurd (isDue_of_later later hd) hdue'
      rw [if_neg hdue', endPauses_of_not_isDue hnot]
      exact endPauses_of_not_isDue (by simpa using hdue') fuel₁

/-- When a stretch begins is told by the pauses, not by the clock. -/
theorem endPauses_now (c : Clock η κ γ σ) (now time : Nat) (limit : Option Nat) (fuel : Nat) :
    { ({ c with now } : Clock η κ γ σ).endPauses limit fuel with now := time } =
      { c.endPauses limit fuel with now := time } := by
  cases fuel with
  | zero => rfl
  | succ fuel =>
    rw [endPauses_succ, endPauses_succ]
    show { (if c.isDue limit = true then c.endPause.endPauses limit fuel else { c with now }) with
      now := time } = _
    split <;> rfl

/-- **Two stretches of time are one.** -/
theorem advance_advance {c : Clock η κ γ σ} (h : c.engine.InStep) {s t : Nat} (hst : s ≤ t) :
    (c.advance s).advance t = c.advance t := by
  have hnow := endPauses_now (c.endPauses (some s) c.pausesLeft) s t (some t)
    (c.advance s).pausesLeft
  have hjoin : (c.endPauses (some s) c.pausesLeft).endPauses (some t) (c.advance s).pausesLeft =
      c.endPauses (some t) c.pausesLeft :=
    endPauses_endPauses (fun wake hw => by simp at hw ⊢; omega) h (Nat.le_refl _) (Nat.le_refl _)
  rw [hjoin] at hnow
  exact hnow

/-- A stretch and the rest of time are all of time. -/
theorem finish_advance {c : Clock η κ γ σ} (h : c.engine.InStep) (s t : Nat) :
    { (c.advance s).finish with now := t } = { c.finish with now := t } := by
  have hnow := endPauses_now (c.endPauses (some s) c.pausesLeft) s t none
    (c.advance s).pausesLeft
  have hjoin : (c.endPauses (some s) c.pausesLeft).endPauses none (c.advance s).pausesLeft =
      c.endPauses none c.pausesLeft :=
    endPauses_endPauses (fun _ _ => rfl) h (Nat.le_refl _) (Nat.le_refl _)
  rw [hjoin] at hnow
  exact hnow

theorem inStep_advance {c : Clock η κ γ σ} (h : c.engine.InStep) (time : Nat) :
    (c.advance time).engine.InStep :=
  inStep_endPauses h _ _

theorem inStep_happenAt {c : Clock η κ γ σ} (h : c.engine.InStep) (time : Nat) (event : Event) :
    (c.happenAt time event).engine.InStep := by
  have hadvance := inStep_advance h time
  cases event with
  | call caller document cell =>
    dsimp only [happenAt]
    split
    · exact hadvance
    · exact inStep_advance (inStep_happen hadvance _) time
  | drop caller =>
    dsimp only [happenAt]
    split
    · exact hadvance
    · exact inStep_happen hadvance (.drop caller)
  | fire caller => exact inStep_advance (inStep_happen (inStep_happen hadvance _) _) time
  | pauseEnd | notice => exact inStep_advance (inStep_happen hadvance _) time

end Clock
end TriggerFlow
