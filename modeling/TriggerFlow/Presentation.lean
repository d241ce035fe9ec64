/-!
# What a run shows

A run writes texts and images into a log and changes the trigger: its scale, its color, whether it
is enabled. Everything it does to them is one of five changes, and **a run is seen only through the
changes it makes**: whoever shows them, keeps them or shares them folds the same list.
-/

set_option autoImplicit false

namespace TriggerFlow

/-- One entry of the log. -/
inductive Content where
  | text (s : String)
  /-- An image by its address. -/
  | image (url : String)
  deriving DecidableEq, Repr

structure Presentation where
  /-- First entry first. -/
  log : List Content
  /-- How large the trigger is. -/
  scale : Float
  color : String
  enabled : Bool
  deriving Repr

namespace Presentation

/-- How much one grow action adds to the scale. -/
def scaleStep : Float := 0.2

/-- Before any action. -/
def initial : Presentation :=
  ⟨[], 1.0, "#3498db", true⟩

end Presentation

/-- One change to what is shown. -/
inductive Change where
  /-- Back to the state before any action. -/
  | reset
  | push (item : Content)
  /-- A change that is not positive has no effect, not a number included. -/
  | grow (delta : Float)
  | recolor (color : String)
  | disable
  deriving Repr

/-- Something that follows the changes of a run. -/
class Sink (σ : Type) where
  apply : Change → σ → σ

/-- Follows several changes in order. -/
def Sink.applyAll {σ : Type} [Sink σ] (changes : List Change) (s : σ) : σ :=
  changes.foldl (fun s c => Sink.apply c s) s

namespace Presentation

def apply : Change → Presentation → Presentation
  | .reset, _ => initial
  | .push item, p => { p with log := p.log ++ [item] }
  | .grow delta, p => if delta > 0.0 then { p with scale := p.scale + delta } else p
  | .recolor color, p => { p with color := color }
  | .disable, p => { p with enabled := false }

instance : Sink Presentation := ⟨apply⟩

end Presentation

end TriggerFlow
