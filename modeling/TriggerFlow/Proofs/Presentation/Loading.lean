import TriggerFlow.Proofs.Presentation.Scale
import TriggerFlow.Proofs.Run.Changes

/-!
# What a run has shown, saved and read back

A run grows the trigger by one fixed step at a time, so **every scale it can reach lies between one
and the number at which a further step is lost**. One change preserves that, and so do all of them.
For such a scale the text has a point and no exponent, and what is read from it is at most a
neighbour. Everything else that is shown comes back as it was.

That the very same scale comes back is too much to say: the third step leads to one whose text has
seventeen digits, and the text is read as the next double.
-/

set_option autoImplicit false

namespace TriggerFlow

open Decimal

/-- A change that a run can make: it adds the same to the scale every time. -/
def Change.IsOfRun : Change → Prop
  | .grow delta => delta = Presentation.scaleStep
  | .reset | .push _ | .recolor _ | .disable => True

/-! ## The changes of a run -/

section

variable {η κ γ : Type} [Host η] [KeyValueStore κ] [ColorSource γ]

theorem Action.isOfRun_perform (mode : StorageMode) (a : Action) (w : World η κ γ) :
    ∀ c ∈ (a.perform mode w).change, c.IsOfRun := by
  intro c hc
  rcases a.change_cases mode w with
    ⟨-, hgrow⟩ | ⟨-, hnone | ⟨item, hpush⟩ | ⟨color, hcolor⟩ | hdisable⟩
  · obtain rfl := Option.some.inj (hgrow.symm.trans hc)
    rfl
  · cases hnone.symm.trans hc
  · obtain rfl := Option.some.inj (hpush.symm.trans hc)
    trivial
  · obtain rfl := Option.some.inj (hcolor.symm.trans hc)
    trivial
  · obtain rfl := Option.some.inj (hdisable.symm.trans hc)
    trivial

/-- **A step makes no other changes.** -/
theorem Run.isOfRun_step (r : Run) (w : World η κ γ) : ∀ c ∈ (r.step w).changes, c.IsOfRun := by
  intro c hc
  unfold step at hc
  split at hc
  · cases hc
  · split at hc
    · cases hc
    · rename_i index _ a _
      rcases List.mem_append.mp hc with hc | hc
      · split at hc
        · obtain rfl := List.mem_singleton.mp hc
          trivial
        · cases hc
      · exact a.isOfRun_perform r.mode w c (Option.mem_toList.mp hc)

end

/-! ## The scales that they lead to -/

namespace Presentation

theorem isGrown_apply {c : Change} (hc : c.IsOfRun) {p : Presentation} (h : IsGrown p.scale) :
    IsGrown (apply c p).scale := by
  cases c with
  | reset => exact isGrown_one
  | push item => exact h
  | grow delta =>
    obtain rfl : delta = scaleStep := hc
    -- That the step is positive plays no part: a scale that is left alone has grown enough.
    unfold apply
    dsimp only
    split
    · exact h.add_scaleStep
    · exact h
  | recolor color => exact h
  | disable => exact h

theorem isGrown_applyAll {changes : List Change} :
    (∀ c ∈ changes, c.IsOfRun) → ∀ {p : Presentation}, IsGrown p.scale →
      IsGrown (Sink.applyAll changes p).scale := by
  -- Each change is made to what the ones before it left, so the start is general.
  induction changes with
  | nil =>
    intro _ p h
    exact h
  | cons c changes ih =>
    intro hall p h
    obtain ⟨hc, hrest⟩ := List.forall_mem_cons.mp hall
    exact ih hrest (isGrown_apply hc h)

/-! ## Saving and reading -/

theorem filter_isDigit_of_pointed {text whole fraction : List Char}
    (h : Pointed text whole fraction) : text.filter Text.isDigit = whole ++ fraction := by
  have hpoint : Text.isDigit '.' = false := by decide
  rw [h.eq, List.filter_append, List.filter_cons_of_neg (by simp [hpoint]),
    List.filter_eq_self.mpr h.before, List.filter_eq_self.mpr h.after]

/-- **What a run has shown is read back, and all of it but the scale is the same.** The scale is the
same one too if the digits of its text make a whole number of at most fifty-three bits; if they do
not, it may be the next double or the one before. -/
theorem parse_render_of_run {changes : List Change} (h : ∀ c ∈ changes, c.IsOfRun) :
    let p := Sink.applyAll changes initial
    ∃ q, parse p.render = .ok q ∧ q.log = p.log ∧ q.color = p.color ∧ q.enabled = p.enabled ∧
      (Text.decimalValue ((Json.numberChars p.scale).filter Text.isDigit) < 2 ^ 53 →
        q.scale = p.scale) ∧
      q.scale.toBits.toNat ≤ p.scale.toBits.toNat + 1 ∧
      p.scale.toBits.toNat ≤ q.scale.toBits.toNat + 1 := by
  intro p
  have hgrown : IsGrown p.scale := isGrown_applyAll h isGrown_one
  obtain ⟨whole, fraction, hpointed, hplaces, ⟨hpos, hmost⟩, hrounds⟩ := hgrown.text
  have hscale := Json.readsInside_pointed hpointed (hmost.trans_lt (by norm_num)) (by omega)
  obtain ⟨⟨hle, hge⟩, hsame⟩ := rank_div_near hpos hmost hplaces hgrown hrounds
  refine ⟨_, parse_render hscale, rfl, rfl, rfl, ?_, hge, hle⟩
  rw [filter_isDigit_of_pointed hpointed]
  exact hsame

theorem parse_render_grown_twice :
    let changes : List Change :=
      [.push (.text "hi"), .grow scaleStep, .recolor "red", .grow scaleStep, .disable]
    let p := Sink.applyAll changes initial
    (∀ c ∈ changes, c.IsOfRun) ∧ p.scale.toBits = 0x3ff6666666666666 ∧
      ∃ q, parse p.render = .ok q ∧ q.log = p.log ∧ q.color = "red" ∧ q.enabled = false ∧
        q.scale = p.scale := by
  intro changes p
  have hchanges : ∀ c ∈ changes, c.IsOfRun := by simp [changes, Change.IsOfRun]
  obtain ⟨q, hparse, hlog, hcolor, henabled, hscale, -⟩ := parse_render_of_run hchanges
  exact ⟨hchanges, by decide +kernel, q, hparse, hlog, hcolor, henabled,
    hscale (by decide +kernel)⟩

/-- **The scale of three steps is read back as the next double.** -/
theorem parse_render_grown_thrice :
    ¬ ∀ changes : List Change, (∀ c ∈ changes, c.IsOfRun) →
      parse (Sink.applyAll changes initial).render = .ok (Sink.applyAll changes initial) := by
  intro h
  let changes : List Change := [.grow scaleStep, .grow scaleStep, .grow scaleStep]
  have hsame := h changes (by simp [changes, Change.IsOfRun])
  have hread : (parse (Sink.applyAll changes initial).render).toOption.map (·.scale.toBits) =
      some 0x3ff999999999999a := by
    decide +kernel
  have hsaved : (Sink.applyAll changes initial).scale.toBits = 0x3ff9999999999999 := by
    decide +kernel
  rw [hsame] at hread
  exact absurd (hsaved.symm.trans (Option.some.inj hread)) (by decide)

end Presentation

end TriggerFlow
