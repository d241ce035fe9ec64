import TriggerFlow.Presentation.Shared
import TriggerFlow.Proofs.Run.Sinks

/-!
# What is seen through a handle

Whoever shares a presentation holds a handle of their own, and may clone it. **A cell is what the
changes make of it that come through any of its handles**, in the order in which they come, and
whatever is done with handles on other cells is nothing to it. So a handle shows what a presentation
shows that is in nobody else's hands, through every clone.
-/

set_option autoImplicit false

namespace TriggerFlow

namespace Shared

variable {s : Shared} {p : Presentation} {cell handle : Nat}

/-- Something that is done with handles. -/
inductive Act where
  | change (c : Change) (handle : Nat)
  | clone (handle : Nat)
  | create

def act : Act → Shared → Shared
  | .change c handle, s => s.apply c handle
  | .clone handle, s => s.clone handle
  | .create, s => s.create

/-- The change that an act makes to a cell, through whichever handle. -/
def changeTo? (cell : Nat) (s : Shared) : Act → Option Change
  | .change c handle => if s.cell? handle = some cell then some c else none
  | .clone _ | .create => none

theorem snapshot?_eq (h : s.cell? handle = some cell) : s.snapshot? handle = s.cells[cell]? := by
  unfold snapshot?
  rw [h, Option.bind_some]

theorem cell?_apply (c : Change) (handle other : Nat) (s : Shared) :
    (s.apply c handle).cell? other = s.cell? other := by
  unfold apply
  split <;> rfl

/-- **One act makes its change to a cell** and does nothing else to it. -/
theorem getElem?_act (h : s.cells[cell]? = some p) (a : Act) :
    (s.act a).cells[cell]? = some (Sink.applyAll (s.changeTo? cell a).toList p) := by
  cases a with
  | change c other =>
    show (s.apply c other).cells[cell]? = some
      (Sink.applyAll (if s.cell? other = some cell then some c else none).toList p)
    unfold apply
    cases s.cell? other with
    | none => simpa [Sink.applyAll] using h
    | some named =>
      dsimp only
      rw [List.getElem?_modify, h]
      by_cases hnamed : named = cell
      · simp [hnamed, Sink.applyAll, Sink.apply]
      · simp [hnamed, Sink.applyAll]
  | clone other =>
    show (s.clone other).cells[cell]? = some p
    unfold clone
    split <;> exact h
  | create =>
    have hlt : cell < s.cells.length := (List.getElem?_eq_some_iff.mp h).1
    exact (List.getElem?_append_left hlt).trans h

end Shared

/-- A handle together with what it is a handle on. -/
structure Handle where
  shared : Shared
  number : Nat

namespace Handle

def apply (c : Change) (h : Handle) : Handle :=
  { h with shared := h.shared.apply c h.number }

instance : Sink Handle := ⟨apply⟩

/-- The same is seen through it and through all its clones. -/
def Shows (p : Presentation) (h : Handle) : Prop :=
  ∃ cell, h.shared.cell? h.number = some cell ∧
    ∀ clone, h.shared.cell? clone = some cell → h.shared.snapshot? clone = some p

theorem shows_of_snapshot? {h : Handle} {p : Presentation}
    (hseen : h.shared.snapshot? h.number = some p) : h.Shows p := by
  obtain ⟨cell, hcell, -⟩ := Option.bind_eq_some_iff.mp hseen
  refine ⟨cell, hcell, fun clone hclone => ?_⟩
  rw [Shared.snapshot?_eq hclone, ← Shared.snapshot?_eq hcell]
  exact hseen

/-- **No change tells a handle from a presentation** that nobody shares. -/
theorem keeps_shows : Sink.Keeps fun (p : Presentation) (h : Handle) => h.Shows p := by
  rintro c p h ⟨cell, hcell, hshows⟩
  have hseen := hshows h.number hcell
  rw [Shared.snapshot?_eq hcell] at hseen
  have hchange : h.shared.changeTo? cell (.change c h.number) = some c := if_pos hcell
  have hnext := Shared.getElem?_act hseen (.change c h.number)
  rw [hchange] at hnext
  have hnamed : (h.shared.apply c h.number).cell? h.number = some cell :=
    (Shared.cell?_apply c _ _ _).trans hcell
  exact shows_of_snapshot? ((Shared.snapshot?_eq hnamed).trans hnext)

end Handle
end TriggerFlow
