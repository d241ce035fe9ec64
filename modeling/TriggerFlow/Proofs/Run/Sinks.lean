import TriggerFlow.Proofs.Run.Meaning

/-!
# Whoever follows a run

A run knows nothing of what follows it: it makes its changes, and every sink makes of them what it
does. So **two sinks that no change tells apart, no run tells apart**, whatever it is told and
whenever one looks. One sink does nothing but write down what is called; all others can be told from
what it has written.
-/

set_option autoImplicit false

namespace TriggerFlow

variable {η κ γ σ σ' : Type} [Sink σ] [Sink σ']

/-- What every change keeps of two sinks. -/
def Sink.Keeps (R : σ → σ' → Prop) : Prop :=
  ∀ (c : Change) (s : σ) (s' : σ'), R s s' → R (Sink.apply c s) (Sink.apply c s')

theorem Sink.Keeps.applyAll {R : σ → σ' → Prop} (hR : Sink.Keeps R) (changes : List Change) :
    ∀ {s : σ} {s' : σ'}, R s s' → R (Sink.applyAll changes s) (Sink.applyAll changes s') := by
  induction changes with
  | nil =>
    intro s s' h
    exact h
  | cons c changes ih =>
    intro s s' h
    exact ih (hR c s s' h)

namespace Course

/-- The same run in the same world, with sinks of which something holds. -/
structure Related (R : σ → σ' → Prop) (c : Course η κ γ σ) (c' : Course η κ γ σ') : Prop where
  run : c.run = c'.run
  world : c.world = c'.world
  shown : R c.shown c'.shown

variable [Host η] [KeyValueStore κ] [ColorSource γ] {R : σ → σ' → Prop}

theorem Related.obey (hR : Sink.Keeps R) {c : Course η κ γ σ} {c' : Course η κ γ σ'}
    (h : c.Related R c') (order : Order) :
    (c.obey order).result = (c'.obey order).result ∧
      (c.obey order).course.Related R (c'.obey order).course := by
  cases order with
  | cancel => exact ⟨rfl, by rw [Course.obey, h.run]; rfl, h.world, h.shown⟩
  | step =>
    dsimp only [Course.obey]
    rw [h.run, h.world]
    exact ⟨rfl, rfl, rfl, hR.applyAll _ h.shown⟩

/-- **Under any orders, at every moment**, what changes keep of two sinks holds, and the runs are
the same. -/
theorem Related.follow (hR : Sink.Keeps R) (orders : List Order) :
    ∀ {c : Course η κ γ σ} {c' : Course η κ γ σ'}, c.Related R c' →
      List.Forall₂ (fun s s' => s.result = s'.result ∧ s.course.Related R s'.course)
        (c.follow orders) (c'.follow orders) := by
  induction orders with
  | nil =>
    intro c c' _
    exact .nil
  | cons order orders ih =>
    intro c c' h
    exact .cons (h.obey hR order) (ih (h.obey hR order).2)

end Course

/-- Writes down what is called. -/
structure Recorder where
  calls : List Change

namespace Recorder

def apply (c : Change) (r : Recorder) : Recorder :=
  ⟨r.calls ++ [c]⟩

instance : Sink Recorder := ⟨apply⟩

theorem applyAll_eq (changes : List Change) :
    ∀ r : Recorder, Sink.applyAll changes r = ⟨r.calls ++ changes⟩ := by
  induction changes with
  | nil =>
    intro r
    rw [List.append_nil]
    rfl
  | cons c changes ih =>
    intro r
    refine (ih (Sink.apply c r)).trans ?_
    rw [show (Sink.apply c r).calls = r.calls ++ [c] from rfl, List.append_assoc,
      List.singleton_append]

/-- What any sink shows is what the calls make of what it has shown at first. -/
theorem keeps (first : σ) :
    Sink.Keeps fun (r : Recorder) (s : σ) => s = Sink.applyAll r.calls first := by
  rintro c r s rfl
  show Sink.apply c _ = Sink.applyAll (r.calls ++ [c]) first
  rw [Sink.applyAll_append]
  rfl

end Recorder
end TriggerFlow
