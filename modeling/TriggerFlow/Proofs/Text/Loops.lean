import TriggerFlow.Text.Reader

/-!
# Loops of rounds

A loop that ends well is followed round by round: `Rounds` are its rounds, each shorter than the one
before, so there are always enough characters to spare. **What every round keeps, the loop keeps**,
however it ends.
-/

set_option autoImplicit false

namespace TriggerFlow.Text

variable {ε σ α : Type}

theorem eq_ok_of_map {β : Type} {f : α → β} {result : Except ε α} {b : β}
    (h : result.map f = .ok b) : ∃ a, result = .ok a ∧ f a = b := by
  cases result with
  | error e => cases h
  | ok a =>
    cases h
    exact ⟨a, rfl, rfl⟩

/-- A failure need not have decidable equality for a success to be checked. -/
theorem eq_ok_of_toOption {result : Except ε α} {a : α} (h : result.toOption = some a) :
    result = .ok a := by
  cases result <;> cases h
  rfl

theorem eq_error_of_toOption {result : Except ε α} (h : result.toOption = none) :
    ∃ e, result = .error e := by
  cases result <;> cases h
  exact ⟨_, rfl⟩

/-! ## Where characters of a kind end -/

/-- Characters of a kind, up to the first that is of another one. -/
theorem span_append {ofKind : Char → Bool} {cs rest : List Char} (h : ∀ c ∈ cs, ofKind c = true)
    (hrest : ∀ c ∈ rest.head?, ofKind c = false) :
    (cs ++ rest).takeWhile ofKind = cs ∧ (cs ++ rest).dropWhile ofKind = rest := by
  rw [List.takeWhile_append_of_pos h, List.dropWhile_append_of_pos h]
  cases rest with
  | nil => exact ⟨List.append_nil _, rfl⟩
  | cons c rest =>
    have hc := hrest c rfl
    rw [List.takeWhile_cons_of_neg (by simp [hc]), List.dropWhile_cons_of_neg (by simp [hc])]
    exact ⟨List.append_nil _, rfl⟩

/-! ## Loops that end well -/

/-- The rounds of a loop from a state to what it gives, with what it leaves. -/
inductive Rounds (round : σ → Reader ε (Round σ α)) :
    σ → List Char → α → List Char → Prop where
  | done {state : σ} {cs : List Char} {a : α} {rest : List Char}
      (last : round state cs = .ok (.done a, rest)) : Rounds round state cs a rest
  | more {state next : σ} {cs left : List Char} {a : α} {rest : List Char}
      (first : round state cs = .ok (.more next, left)) (shorter : left.length < cs.length)
      (others : Rounds round next left a rest) : Rounds round state cs a rest

theorem Rounds.loopWithin {round : σ → Reader ε (Round σ α)} {state : σ} {cs rest : List Char}
    {a : α} (h : Rounds round state cs a rest) (stuck : ε) :
    ∀ {spare : List Char}, cs.length ≤ spare.length →
      loopWithin stuck round spare state cs = .ok (a, rest) := by
  induction h with
  | done last =>
    intro spare _
    unfold Text.loopWithin
    rw [last]
  | more first shorter others ih =>
    intro spare hspare
    cases spare with
    | nil =>
      rw [List.length_nil] at hspare
      omega
    | cons c spare =>
      unfold Text.loopWithin
      rw [first]
      rw [List.length_cons] at hspare
      exact ih (by omega)

theorem Rounds.loop {round : σ → Reader ε (Round σ α)} {state : σ} {cs rest : List Char} {a : α}
    (h : Rounds round state cs a rest) (stuck : ε) :
    Text.loop stuck round state cs = .ok (a, rest) :=
  h.loopWithin stuck (Nat.le_refl _)

/-! ## Loops that end either way -/

/-- What the rounds of a loop come to: what it gives with what it leaves, or nothing where one of
them fails. -/
inductive Ends (round : σ → Reader ε (Round σ α)) :
    σ → List Char → Option (α × List Char) → Prop where
  | done {state : σ} {cs : List Char} {a : α} {rest : List Char}
      (last : round state cs = .ok (.done a, rest)) : Ends round state cs (some (a, rest))
  | broken {state : σ} {cs : List Char} {e : ε} (last : round state cs = .error e) :
      Ends round state cs none
  | more {state next : σ} {cs left : List Char} {result : Option (α × List Char)}
      (first : round state cs = .ok (.more next, left)) (shorter : left.length < cs.length)
      (others : Ends round next left result) : Ends round state cs result

theorem Ends.loopWithin {round : σ → Reader ε (Round σ α)} {state : σ} {cs : List Char}
    {result : Option (α × List Char)} (h : Ends round state cs result) (stuck : ε) :
    ∀ {spare : List Char}, cs.length ≤ spare.length →
      (loopWithin stuck round spare state cs).toOption = result := by
  induction h with
  | done last =>
    intro spare _
    unfold Text.loopWithin
    rw [last]
    rfl
  | broken last =>
    intro spare _
    unfold Text.loopWithin
    rw [last]
    rfl
  | more first shorter others ih =>
    intro spare hspare
    cases spare with
    | nil =>
      rw [List.length_nil] at hspare
      omega
    | cons c spare =>
      unfold Text.loopWithin
      rw [first]
      rw [List.length_cons] at hspare
      exact ih (by omega)

theorem Ends.loop {round : σ → Reader ε (Round σ α)} {state : σ} {cs : List Char}
    {result : Option (α × List Char)} (h : Ends round state cs result) (stuck : ε) :
    (Text.loop stuck round state cs).toOption = result :=
  h.loopWithin stuck (Nat.le_refl _)

/-! ## What a loop keeps -/

/-- What a round comes to is as it is said of a state, or of a value. -/
def Round.Holds (During : σ → Prop) (After : α → Prop) : Round σ α → Prop
  | .more state => During state
  | .done a => After a

theorem loopWithin_keeps {stuck : ε} {round : σ → Reader ε (Round σ α)} {During : σ → Prop}
    {After : α → Prop}
    (hround : ∀ state cs step rest, During state → round state cs = .ok (step, rest) →
      step.Holds During After) :
    ∀ {spare : List Char} {state : σ} {cs rest : List Char} {a : α}, During state →
      loopWithin stuck round spare state cs = .ok (a, rest) → After a := by
  intro spare
  induction spare with
  | nil =>
    intro state cs rest a hstate h
    unfold loopWithin at h
    split at h
    · cases h
    · rename_i hstep
      cases h
      exact hround _ _ _ _ hstate hstep
    · rename_i hspare
      cases hspare
    · cases h
  | cons c spare ih =>
    intro state cs rest a hstate h
    unfold loopWithin at h
    split at h
    · cases h
    · rename_i hstep
      cases h
      exact hround _ _ _ _ hstate hstep
    · rename_i hstep hspare
      cases hspare
      exact ih (hround _ _ _ _ hstate hstep) h
    · cases h

/-- **A loop keeps what its rounds keep.** -/
theorem loop_keeps {stuck : ε} {round : σ → Reader ε (Round σ α)} {During : σ → Prop}
    {After : α → Prop}
    (hround : ∀ state cs step rest, During state → round state cs = .ok (step, rest) →
      step.Holds During After)
    {state : σ} (hstate : During state) {cs rest : List Char} {a : α}
    (h : loop stuck round state cs = .ok (a, rest)) : After a :=
  loopWithin_keeps hround hstate h

end TriggerFlow.Text
