import TriggerFlow.Proofs.CommandLine.Given

/-!
# A flag in front

The options of the program may stand at any level, and whether one is there is asked of all levels
at once. **A flag that is put in front of a command line changes nothing but that it is there**,
unless it was there before: what each argument adds to a level does not hang on what has been taken,
except that nothing may be taken twice.
-/

set_option autoImplicit false

namespace TriggerFlow.CommandLine

variable {o o' : Opt} {l : Level}

namespace Taken

/-- With a flag before all that was taken. -/
def flagged (o : Opt) (t : Taken) : Taken :=
  { t with options := t.options ++ [(o, "")] }

end Taken

namespace State

def flagged (o : Opt) (s : State) : State :=
  { s with taken := s.taken.flagged o }

/-- What makes the same of a state with a flag before all that was taken, if it does not take the
flag itself. -/
def Carries (o : Opt) (f : State → Except Halt State) : Prop :=
  ∀ s t, f s = .ok t → t.taken.has o = false →
    s.taken.has o = false ∧ f (s.flagged o) = .ok (t.flagged o)

theorem Carries.bind {f g : State → Except Halt State} (hf : Carries o f) (hg : Carries o g) :
    Carries o fun s => f s >>= g := by
  intro s u h hu
  obtain ⟨t, ht, hgt⟩ := exists_of_bind_eq_ok h
  obtain ⟨hlacks, hcarried⟩ := hg t u hgt hu
  obtain ⟨hfirst, hstep⟩ := hf s t ht hlacks
  refine ⟨hfirst, ?_⟩
  dsimp only
  rw [hstep]
  exact hcarried

end State

variable {fallback? : Option String}

end TriggerFlow.CommandLine
