import Mathlib.Data.List.Perm.Basic
import TriggerFlow.Builder

/-!
# What an edit makes of a document

Two edits look at positions, and **each succeeds exactly if all its positions are those of
actions**. What a move makes holds the same actions as before.
-/

set_option autoImplicit false

namespace TriggerFlow.Document

theorem checkIndex_eq_ok_iff {d : Document} {index : Nat} :
    d.checkIndex index = .ok () ↔ index < d.size := by
  unfold checkIndex
  split <;> simp [*]

theorem remove_eq_ok_iff {d d' : Document} {index : Nat} :
    d.remove index = .ok d' ↔
      index < d.size ∧ d' = { d with actions := d.actions.eraseIdx index } := by
  unfold remove checkIndex
  by_cases h : index < d.size
  · rw [if_pos h]
    constructor
    · intro heq
      exact ⟨h, (Except.ok.inj heq).symm⟩
    · rintro ⟨-, rfl⟩
      rfl
  · rw [if_neg h]
    constructor
    · intro heq
      cases heq
    · rintro ⟨hlt, -⟩
      exact absurd hlt h

theorem move_eq_ok_iff {d d' : Document} {source target : Nat} :
    d.move source target = .ok d' ↔
      target < d.size ∧ ∃ a, d.actions[source]? = some a ∧
        d' = { d with actions := (d.actions.eraseIdx source).insertIdx target a } := by
  unfold move checkIndex
  by_cases hsource : source < d.size
  · by_cases htarget : target < d.size
    · have hget : d.actions[source]? = some d.actions[source] := List.getElem?_eq_getElem hsource
      rw [if_pos hsource, if_pos htarget, hget]
      constructor
      · intro heq
        exact ⟨htarget, _, rfl, (Except.ok.inj heq).symm⟩
      · rintro ⟨-, a, ha, rfl⟩
        cases ha
        rfl
    · rw [if_pos hsource, if_neg htarget]
      constructor
      · intro heq
        cases heq
      · rintro ⟨hlt, -⟩
        exact absurd hlt htarget
  · rw [if_neg hsource]
    constructor
    · intro heq
      cases heq
    · rintro ⟨-, a, ha, -⟩
      exact absurd (List.getElem?_eq_some_iff.mp ha).1 hsource

theorem perm_of_move {d d' : Document} {source target : Nat} (h : d.move source target = .ok d') :
    d'.actions.Perm d.actions := by
  obtain ⟨htarget, a, ha, rfl⟩ := move_eq_ok_iff.mp h
  obtain ⟨hsource, rfl⟩ := List.getElem?_eq_some_iff.mp ha
  have hlength : target ≤ (d.actions.eraseIdx source).length := by
    rw [List.length_eraseIdx_of_lt hsource]
    exact Nat.le_sub_one_of_lt htarget
  exact (List.perm_insertIdx _ _ hlength).trans (List.getElem_cons_eraseIdx_perm hsource)

end TriggerFlow.Document
