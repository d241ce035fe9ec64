import Mathlib.Data.List.Induction
import TriggerFlow.Proofs.Run.Steps

/-!
# What a run changes

Of the changes that can be made to what is shown a run makes one, the reset, before its first action
and never again. **An action makes at most one of the others**, and only an action that grows the
trigger touches its scale, so after the reset entries are added to the log and none is taken away.
-/

set_option autoImplicit false

namespace TriggerFlow

variable {η κ γ σ : Type}

/-- The entry that a change adds. -/
def Change.item? : Change → Option Content
  | .push item => some item
  | _ => none

section OneAction

variable [Host η] [KeyValueStore κ] [ColorSource γ]

/-- **The change that an action makes**, if it makes one. -/
theorem Action.change_cases (mode : StorageMode) (a : Action) (w : World η κ γ) :
    (a.kind? = some .growTrigger ∧
      (a.perform mode w).change = some (.grow Presentation.scaleStep)) ∨
    a.kind? ≠ some .growTrigger ∧ ((a.perform mode w).change = none ∨
      (∃ item, (a.perform mode w).change = some (.push item)) ∨
      (∃ color, (a.perform mode w).change = some (.recolor color)) ∨
      (a.perform mode w).change = some .disable) := by
  unfold perform
  cases a.kind? with
  | none => simp
  | some kind =>
    cases kind with
    | setStorage =>
      dsimp only [performAs, saveValue]
      split
      · simp
      · split <;> simp
    | getStorage =>
      dsimp only [performAs, showValue]
      split <;> simp
    | recolorTrigger =>
      dsimp only [performAs, recolor]
      split <;> simp
    | showImage => cases hurl : a.nonEmptyParam? <;> simp [performAs, hurl]
    | promptAndShow =>
      cases hanswer : (Host.prompt (a.given Default.promptMessage) w.host).1 <;>
        simp [performAs, promptAndShow, hanswer]
    | alert | showText | refresh | growTrigger | close | disableTrigger => simp [performAs]

theorem Action.change_ne_reset (mode : StorageMode) (a : Action) (w : World η κ γ) :
    (a.perform mode w).change ≠ some .reset := by
  rcases a.change_cases mode w with
    ⟨-, hgrow⟩ | ⟨-, hnone | ⟨item, hpush⟩ | ⟨color, hcolor⟩ | hdisable⟩ <;> simp [*]

theorem Progress.not_mem_changes_of (mode : StorageMode) (w : World η κ γ) (as : List Action) :
    Change.reset ∉ (Progress.of mode w as).changes := by
  induction as using List.reverseRecOn with
  | nil => exact List.not_mem_nil
  | append_singleton as a ih =>
    rw [of_concat]
    dsimp only [add]
    rw [List.mem_append, Option.mem_toList, not_or]
    exact ⟨ih, a.change_ne_reset mode _⟩

/-- **What some actions have called for, cut anywhere**, is what the first of them have. -/
theorem Progress.changes_of_prefix (mode : StorageMode) (w : World η κ γ) (as : List Action) :
    ∀ changes, changes <+: (Progress.of mode w as).changes →
      ∃ n ≤ as.length, changes = (Progress.of mode w (as.take n)).changes := by
  induction as using List.reverseRecOn with
  | nil =>
    intro changes h
    exact ⟨0, Nat.le_refl 0, List.prefix_nil.mp h⟩
  | append_singleton as a ih =>
    intro changes h
    -- Either the last action has not made its change yet, or all are there.
    have hcases : changes <+: (Progress.of mode w as).changes ∨
        changes = (Progress.of mode w (as ++ [a])).changes := by
      rw [of_concat] at h ⊢
      dsimp only [add] at h ⊢
      cases hchange : (a.perform mode (Progress.of mode w as).world).change with
      | none =>
        rw [hchange] at h
        exact .inl (by simpa using h)
      | some c =>
        rw [hchange] at h
        exact (List.prefix_concat_iff.mp h).symm
    rcases hcases with hbefore | hall
    · obtain ⟨n, hn, heq⟩ := ih changes hbefore
      refine ⟨n, Nat.le_trans hn (by simp), ?_⟩
      rw [heq, List.take_append_of_le_length hn]
    · exact ⟨(as ++ [a]).length, Nat.le_refl _, by rw [hall, List.take_length]⟩

end OneAction

/-! ## The log -/

/-- One change adds its entry to the log. -/
theorem log_apply {c : Change} (h : c ≠ .reset) (p : Presentation) :
    (Sink.apply c p).log = p.log ++ c.item?.toList := by
  cases c with
  | reset => exact absurd rfl h
  | push item => rfl
  | grow delta =>
    have hlog : (if delta > 0.0 then { p with scale := p.scale + delta } else p).log = p.log := by
      split <;> rfl
    exact hlog.trans (List.append_nil _).symm
  | recolor | disable => exact (List.append_nil _).symm

end TriggerFlow
