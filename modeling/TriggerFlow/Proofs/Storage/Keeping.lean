import TriggerFlow.Proofs.Storage.FileStore

/-!
# Stores that keep what they accept

A store may refuse anything, and then nothing is promised of the call but that it was refused.
**Between calls, a store that keeps is a table**: a value that it accepts replaces the one before,
and no other call moves anything, a refused one no more than one that reads. The stores of this
library are all of this kind, and one of them that refuses some of what it is given still is.
-/

set_option autoImplicit false

namespace TriggerFlow

/-- The entries with one more value, as they are found. -/
theorem Entries.get?_insert (key value : String) (e : Entries) (other : String) :
    (e.insert key value).get? other = if other = key then some value else e.get? other := by
  by_cases h : other = key
  · rw [if_pos h, h, get?_insert_self]
  · rw [if_neg h, get?_insert_of_ne value h]

/-- A store of which it can be told, at any moment, what it holds. -/
class KeepingStore (κ : Type) [KeyValueStore κ] where
  held : κ → String → Option String
  get_ok : ∀ {key : String} {s : κ} {value : Option String},
    (KeyValueStore.get key s).1 = .ok value → value = held s key
  held_get : ∀ (key : String) (s : κ), held (KeyValueStore.get key s).2 = held s
  held_set_ok : ∀ {key value : String} {s : κ}, (KeyValueStore.set key value s).1 = .ok () →
    ∀ other, held (KeyValueStore.set key value s).2 other =
      if other = key then some value else held s other
  held_set_error : ∀ {key value : String} {s : κ} {e : Failure},
    (KeyValueStore.set key value s).1 = .error e → held (KeyValueStore.set key value s).2 = held s

instance : KeepingStore MemoryStore where
  held s := s.entries.get?
  get_ok := by
    intro key s value h
    cases h
    rfl
  held_get key s := rfl
  held_set_ok := by
    intro key value s _
    exact Entries.get?_insert key value s.entries
  held_set_error := by
    intro key value s e h
    cases h

instance : KeepingStore RefusingStore where
  held s := s.entries.get?
  get_ok := by
    intro key s value h
    simp only [KeyValueStore.get, RefusingStore.get] at h
    split at h <;> cases h
    rfl
  held_get key s := by
    simp only [KeyValueStore.get, RefusingStore.get]
    split <;> rfl
  held_set_ok := by
    intro key value s h
    simp only [KeyValueStore.set, RefusingStore.set] at h ⊢
    split at h <;> cases h
    rename_i hset
    rw [if_neg hset]
    exact Entries.get?_insert key value s.entries
  held_set_error := by
    intro key value s e h
    simp only [KeyValueStore.set, RefusingStore.set] at h ⊢
    split at h <;> cases h
    rename_i hset
    rw [if_pos hset]

instance : KeepingStore FileStore where
  held s := s.entries.get?
  get_ok := by
    intro key s value h
    cases h
    rfl
  held_get key s := rfl
  held_set_ok := by
    intro key value s h
    have hset : s.set key value = (.ok (), (s.set key value).2) := Prod.ext h rfl
    obtain ⟨files, -, hafter⟩ := FileStore.set_eq_ok hset
    intro other
    show (s.set key value).2.entries.get? other = _
    rw [hafter]
    exact Entries.get?_insert key value s.entries other
  held_set_error := by
    intro key value s e h
    have hset : s.set key value = (.error e, (s.set key value).2) := Prod.ext h rfl
    obtain ⟨files, -, hafter⟩ := FileStore.set_eq_error hset
    show (s.set key value).2.entries.get? = _
    rw [hafter]

/-! ## A store that refuses now and then -/

/-- A store behind which another one stands, and which does not let everything through to it that
is to be saved. -/
structure FitfulStore (κ : Type) where
  behind : κ
  /-- For each value that is still to come, what a refusal says, if it is one. The values after
  these are let through. -/
  refusals : List (Option String)

namespace FitfulStore

variable {κ : Type} [KeyValueStore κ]

def get (key : String) (s : FitfulStore κ) : Except Failure (Option String) × FitfulStore κ :=
  let (answer, behind) := KeyValueStore.get key s.behind
  (answer, { s with behind })

def set (key value : String) (s : FitfulStore κ) : Except Failure Unit × FitfulStore κ :=
  match s.refusals with
  | some message :: refusals => (.error (.refused message), { s with refusals })
  | refusals =>
    let (answer, behind) := KeyValueStore.set key value s.behind
    (answer, ⟨behind, refusals.tail⟩)

instance : KeyValueStore (FitfulStore κ) := ⟨get, set⟩

/-- A value is refused, or it reaches the store behind. -/
theorem set_cases (key value : String) (s : FitfulStore κ) :
    (∃ message, (KeyValueStore.set key value s).1 = .error (.refused message) ∧
      (KeyValueStore.set key value s).2.behind = s.behind) ∨
    (KeyValueStore.set key value s).1 = (KeyValueStore.set key value s.behind).1 ∧
      (KeyValueStore.set key value s).2.behind = (KeyValueStore.set key value s.behind).2 := by
  show (∃ message, (set key value s).1 = _ ∧ (set key value s).2.behind = _) ∨
    (set key value s).1 = _ ∧ (set key value s).2.behind = _
  unfold set
  split
  · exact .inl ⟨_, rfl, rfl⟩
  · exact .inr ⟨rfl, rfl⟩

instance [KeepingStore κ] : KeepingStore (FitfulStore κ) where
  held s := KeepingStore.held s.behind
  get_ok := by
    intro key s value h
    exact KeepingStore.get_ok (s := s.behind) h
  held_get key s := KeepingStore.held_get key s.behind
  held_set_ok := by
    intro key value s h
    rcases set_cases key value s with ⟨message, hanswer, -⟩ | ⟨hanswer, hbehind⟩
    · rw [hanswer] at h
      cases h
    · rw [hbehind]
      exact KeepingStore.held_set_ok (hanswer ▸ h)
  held_set_error := by
    intro key value s e h
    rcases set_cases key value s with ⟨message, -, hbehind⟩ | ⟨hanswer, hbehind⟩
    · rw [hbehind]
    · rw [hbehind]
      exact KeepingStore.held_set_error (hanswer ▸ h)

end FitfulStore
end TriggerFlow
