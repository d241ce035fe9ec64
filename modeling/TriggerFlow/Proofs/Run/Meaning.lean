import Mathlib.Data.List.Forall2
import TriggerFlow.Proofs.Run.Interpretation

/-!
# What a run depends on

Most of what a document holds is there for whoever edits it: ids, labels, the one or the other name
of a kind, a parameter that is empty or left out. **None of it can be told from a run.** Two
documents whose actions mean the same are run alike under any orders, in the same world and with the
same reports, but for the name of the kind that a report repeats; and what was shown before the
first step makes no difference after it.

The two runs are compared order by order. What they have in common at a moment is `Course.Alike`,
which one order preserves.
-/

set_option autoImplicit false

namespace TriggerFlow

variable {η κ γ σ : Type}

/-! ## Actions that mean the same -/

/-- The kinds are one entry of the catalog, or neither is one; a parameter that is missing counts as
an empty one. -/
structure Action.MeansAs (a b : Action) : Prop where
  kind : a.kind? = b.kind?
  param : a.param.getD "" = b.param.getD ""

namespace Action.MeansAs

variable {a b : Action}

theorem paramOrEmpty (h : a.MeansAs b) : a.paramOrEmpty = b.paramOrEmpty :=
  h.param

theorem nonEmptyParam? (h : a.MeansAs b) : a.nonEmptyParam? = b.nonEmptyParam? := by
  rw [nonEmptyParam?_eq, nonEmptyParam?_eq, h.param]

theorem given (h : a.MeansAs b) (otherwise : String) : a.given otherwise = b.given otherwise := by
  unfold Action.given
  rw [h.nonEmptyParam?]

theorem malformed (h : a.MeansAs b) (mode : StorageMode) : a.malformed mode = b.malformed mode := by
  unfold Action.malformed
  rw [h.paramOrEmpty]

theorem ending? (h : a.MeansAs b) : a.ending? = b.ending? := by
  unfold Action.ending?
  rw [h.kind]

variable [Host η] [KeyValueStore κ] [ColorSource γ]

theorem performAs (h : a.MeansAs b) (mode : StorageMode) (w : World η κ γ) (kind : Kind) :
    a.performAs mode w kind = b.performAs mode w kind := by
  cases kind with
  | alert => simp only [Action.performAs, h.given]
  | showText => simp only [Action.performAs, h.given]
  | showImage => simp only [Action.performAs, h.nonEmptyParam?]
  | setStorage => simp only [Action.performAs, saveValue, h.paramOrEmpty, h.malformed]
  | getStorage => simp only [Action.performAs, showValue, h.paramOrEmpty, h.malformed]
  | promptAndShow => simp only [Action.performAs, Action.promptAndShow, h.given]
  | recolorTrigger => simp only [Action.performAs, recolor, h.nonEmptyParam?]
  | refresh | growTrigger | close | disableTrigger => rfl

/-- **Actions that mean the same do the same.** -/
theorem perform (h : a.MeansAs b) (mode : StorageMode) (w : World η κ γ) :
    a.perform mode w = b.perform mode w := by
  unfold Action.perform
  rw [h.kind]
  cases b.kind? with
  | none => rfl
  | some kind => exact h.performAs mode w kind

end Action.MeansAs

/-! ## Runs that are alike -/

/-- Two reports are of the same issue at the same position. -/
structure Diagnostic.Alike (x y : Diagnostic) : Prop where
  index : x.index = y.index
  issue : x.issue = y.issue

/-- Two runs of actions that mean the same, at the same point. -/
structure Run.Alike (r r' : Run) : Prop where
  actions : List.Forall₂ Action.MeansAs r.actions r'.actions
  mode : r.mode = r'.mode
  phase : r.phase = r'.phase
  executed : r.executed = r'.executed
  diagnostics : List.Forall₂ Diagnostic.Alike r.diagnostics r'.diagnostics

namespace Run

variable {r r' : Run}

theorem Alike.status (h : r.Alike r') : r.status = r'.status := by
  unfold Run.status
  rw [h.phase]

theorem Alike.cancel (h : r.Alike r') : r.cancel.Alike r'.cancel := by
  unfold Run.cancel
  rw [← h.phase]
  split
  · exact h
  · exact ⟨h.actions, h.mode, rfl, h.executed, h.diagnostics⟩

theorem Alike.phaseAfter (h : r.Alike r') {a b : Action} (hab : a.MeansAs b) (index : Nat) :
    r.phaseAfter index a = r'.phaseAfter index b := by
  unfold Run.phaseAfter
  rw [hab.ending?, h.actions.length_eq]

/-- At a position there is an action in both runs or in neither. -/
theorem Alike.getElem? (h : r.Alike r') (index : Nat) :
    (r.actions[index]? = none ∧ r'.actions[index]? = none) ∨
      ∃ a b, r.actions[index]? = some a ∧ r'.actions[index]? = some b ∧ a.MeansAs b := by
  have hlength := h.actions.length_eq
  by_cases hlt : index < r.actions.length
  · have hlt' : index < r'.actions.length := by omega
    refine .inr ⟨_, _, List.getElem?_eq_getElem hlt, List.getElem?_eq_getElem hlt', ?_⟩
    exact h.actions.get hlt hlt'
  · exact .inl ⟨List.getElem?_eq_none (by omega), List.getElem?_eq_none (by omega)⟩

variable [Host η] [KeyValueStore κ] [ColorSource γ]

/-- **One step of runs that are alike** does the same to everything around them. -/
theorem Alike.step (h : r.Alike r') (w : World η κ γ) :
    (r.step w).result = (r'.step w).result ∧ (r.step w).world = (r'.step w).world ∧
      (r.step w).changes = (r'.step w).changes ∧ (r.step w).run.Alike (r'.step w).run := by
  unfold Run.step
  rw [← h.phase]
  cases r.phase.next? with
  | none => exact ⟨rfl, rfl, rfl, h⟩
  | some index =>
    dsimp only
    rcases h.getElem? index with ⟨ha, hb⟩ | ⟨a, b, ha, hb, hab⟩
    · rw [ha, hb]
      exact ⟨rfl, rfl, rfl, h⟩
    · rw [ha, hb]
      dsimp only
      rw [← h.mode, ← h.executed, hab.perform, hab.ending?]
      refine ⟨rfl, rfl, rfl, h.actions, rfl, h.phaseAfter hab index, rfl, ?_⟩
      apply List.rel_append h.diagnostics
      rw [List.forall₂_map_left_iff, List.forall₂_map_right_iff, List.forall₂_same]
      intro issue _
      exact ⟨rfl, rfl⟩

/-- A step that does an action begins with the reset if it is the first one. -/
theorem step_cases (r : Run) (w : World η κ γ) :
    (r.step w = ⟨.finished, r, w, []⟩) ∨
      ∃ more, (r.step w).run.executed = r.executed + 1 ∧
        (r.step w).changes = (if r.phase = .idle then [Change.reset] else []) ++ more ∧
        r.phase.isFinished = false := by
  unfold Run.step
  cases hphase : r.phase with
  | terminal ending => exact .inl rfl
  | done => exact .inl rfl
  | cancelled => exact .inl rfl
  | idle =>
    dsimp only [Phase.next?]
    split
    · exact .inl rfl
    · exact .inr ⟨_, rfl, rfl, rfl⟩
  | running next =>
    dsimp only [Phase.next?]
    split
    · exact .inl rfl
    · exact .inr ⟨_, rfl, rfl, rfl⟩

end Run

/-! ## Courses that are alike -/

/-- A reset puts everything back to one and the same state. -/
def Sink.Forgets (σ : Type) [Sink σ] : Prop :=
  ∀ s s' : σ, Sink.apply .reset s = Sink.apply .reset s'

theorem Presentation.forgets : Sink.Forgets Presentation := by
  intro p p'
  rfl

theorem Sink.applyAll_append [Sink σ] (changes more : List Change) (s : σ) :
    Sink.applyAll (changes ++ more) s = Sink.applyAll more (Sink.applyAll changes s) :=
  List.foldl_append ..

namespace Course

variable [Sink σ]

/-- What two runs that began with something shown have in common. Both have made the same changes to
it, none before the first action and a reset before all others. -/
structure Alike (before before' : σ) (c c' : Course η κ γ σ) : Prop where
  run : c.run.Alike c'.run
  world : c.world = c'.world
  idle : c.run.executed = 0 → c.run.phase = .idle ∨ c.run.phase.isFinished = true
  shown : ∃ changes, (if c.run.executed = 0 then changes = [] else changes.head? = some .reset) ∧
    c.shown = Sink.applyAll changes before ∧ c'.shown = Sink.applyAll changes before'

/-- What can be told of two runs that began with something shown: the same, but for the names of
kinds in the reports. What is shown differs at most in what was shown at first, and not even in that
after the first step, if a reset leaves nothing of it. -/
structure Agree (before before' : σ) (c c' : Course η κ γ σ) : Prop where
  phase : c.run.phase = c'.run.phase
  executed : c.run.executed = c'.run.executed
  status : c.run.status = c'.run.status
  world : c.world = c'.world
  diagnostics : List.Forall₂ Diagnostic.Alike c.run.diagnostics c'.run.diagnostics
  untouched : c.run.executed = 0 → c.shown = before ∧ c'.shown = before'
  shown : before = before' ∨ Sink.Forgets σ ∧ c.run.executed ≠ 0 → c.shown = c'.shown

variable {before before' : σ} {c c' : Course η κ γ σ}

theorem Alike.agree (h : Alike before before' c c') : Agree before before' c c' := by
  obtain ⟨changes, hchanges, hshown, hshown'⟩ := h.shown
  refine ⟨h.run.phase, h.run.executed, h.run.status, h.world, h.run.diagnostics, ?_, ?_⟩
  · intro hnone
    rw [if_pos hnone] at hchanges
    rw [hshown, hshown', hchanges]
    exact ⟨rfl, rfl⟩
  · intro hsame
    rw [hshown, hshown']
    rcases hsame with rfl | ⟨hforgets, hsome⟩
    · rfl
    · rw [if_neg hsome] at hchanges
      obtain ⟨more, rfl⟩ := List.head?_eq_some_iff.mp hchanges
      show Sink.applyAll more (Sink.apply .reset before) =
        Sink.applyAll more (Sink.apply .reset before')
      rw [hforgets before before']

variable [Host η] [KeyValueStore κ] [ColorSource γ]

/-- **One order keeps two courses alike**, and it has the same result in both. -/
theorem Alike.obey (h : Alike before before' c c') (order : Order) :
    (c.obey order).result = (c'.obey order).result ∧
      Alike before before' (c.obey order).course (c'.obey order).course := by
  cases order with
  | cancel =>
    refine ⟨rfl, h.run.cancel, h.world, ?_, ?_⟩
    · intro hnone
      show c.run.cancel.phase = .idle ∨ c.run.cancel.phase.isFinished = true
      unfold Run.cancel
      split
      · case isTrue hover => exact .inr hover
      · exact .inr rfl
    · have hexecuted : c.run.cancel.executed = c.run.executed := by
        unfold Run.cancel
        split <;> rfl
      show ∃ changes, (if c.run.cancel.executed = 0 then _ else _) ∧ _
      rw [hexecuted]
      exact h.shown
  | step =>
    obtain ⟨hresult, hworld, hchanges, hrun⟩ := h.run.step c.world
    obtain ⟨changes, hfirst, hshown, hshown'⟩ := h.shown
    simp only [Course.obey]
    rw [← h.world, ← hchanges, ← hworld, ← hresult]
    refine ⟨rfl, hrun, rfl, ?_, ?_⟩
    · rcases c.run.step_cases c.world with hstay | ⟨more, hexecuted, -⟩
      · simpa only [hstay] using h.idle
      · intro hnone
        exact absurd (hexecuted.symm.trans hnone) (Nat.succ_ne_zero _)
    · refine ⟨changes ++ (c.run.step c.world).changes, ?_, ?_, ?_⟩
      · rcases c.run.step_cases c.world with hstay | ⟨more, hexecuted, hmore, hgoes⟩
        · simpa only [hstay, List.append_nil] using hfirst
        · rw [if_neg (hexecuted ▸ Nat.succ_ne_zero _)]
          by_cases hnone : c.run.executed = 0
          · -- Nothing was done before this step, so it is the first one.
            have hidle := (h.idle hnone).resolve_right (by simp [hgoes])
            rw [if_pos hnone] at hfirst
            rw [hfirst, hmore, if_pos hidle]
            rfl
          · rw [if_neg hnone] at hfirst
            rw [List.head?_append, hfirst]
            rfl
      · rw [Sink.applyAll_append, ← hshown]
      · rw [Sink.applyAll_append, ← hshown']

theorem Alike.follow (orders : List Order) :
    ∀ {c c' : Course η κ γ σ}, Alike before before' c c' →
      List.Forall₂ (fun s s' : Stage η κ γ σ => s.result = s'.result ∧
        Alike before before' s.course s'.course) (c.follow orders) (c'.follow orders) := by
  induction orders with
  | nil =>
    intro c c' _
    exact .nil
  | cons order orders ih =>
    intro c c' h
    exact .cons (h.obey order) (ih (h.obey order).2)

/-- **A run depends only on what its actions mean.** Documents of which the actions mean the same,
one by one, either both have nothing to run or are run alike: after each of any orders the results,
the phases, the counters, the whole world and what is shown are the same, and so are the reports but
for the names of kinds. Labels and ids have no part in it, nor has what was shown before the first
step, where a reset leaves nothing of it. -/
theorem follow_of_meansAs {d d' : Document} (h : List.Forall₂ Action.MeansAs d.actions d'.actions)
    (mode : StorageMode) (w : World η κ γ) (before before' : σ) (orders : List Order) :
    (Run.start d mode = .error .noActions ∧ Run.start d' mode = .error .noActions) ∨
    ∃ r r', Run.start d mode = .ok r ∧ Run.start d' mode = .ok r' ∧
      Agree before before' (⟨r, w, before⟩ : Course η κ γ σ) ⟨r', w, before'⟩ ∧
      List.Forall₂
        (fun s s' : Stage η κ γ σ => s.result = s'.result ∧
          Agree before before' s.course s'.course)
        ((⟨r, w, before⟩ : Course η κ γ σ).follow orders)
        ((⟨r', w, before'⟩ : Course η κ γ σ).follow orders) := by
  have hsame : d.isRunnable = d'.isRunnable := by
    unfold Document.isRunnable
    rw [Bool.eq_iff_iff]
    simp only [Bool.not_eq_true', List.isEmpty_eq_false_iff, ne_eq, ← List.length_eq_zero_iff]
    rw [h.length_eq]
  cases hd : d.isRunnable with
  | false =>
    have hd' : d'.isRunnable = false := by rw [← hsame, hd]
    exact .inl ⟨Run.start_of_not_isRunnable hd mode, Run.start_of_not_isRunnable hd' mode⟩
  | true =>
    have hd' : d'.isRunnable = true := by rw [← hsame, hd]
    refine .inr ⟨_, _, Run.start_of_isRunnable hd mode, Run.start_of_isRunnable hd' mode, ?_⟩
    have halike : Alike before before'
        (⟨⟨d.actions, mode, .idle, 0, []⟩, w, before⟩ : Course η κ γ σ)
        ⟨⟨d'.actions, mode, .idle, 0, []⟩, w, before'⟩ :=
      ⟨⟨h, rfl, rfl, rfl, .nil⟩, rfl, fun _ => .inl rfl, [], rfl, rfl, rfl⟩
    refine ⟨halike.agree, (halike.follow orders).imp ?_⟩
    rintro s s' ⟨hresult, hcourse⟩
    exact ⟨hresult, hcourse.agree⟩

def spelledOut : Document :=
  ⟨"Go", [⟨"1", "setLocalStorage", "Set LocalStorage", some "nothing"⟩,
    ⟨"2", "changeButtonColor", "Change Button Color", some ""⟩, ⟨"3", "dance", "", none⟩]⟩

def abbreviated : Document :=
  ⟨"", [⟨"x", "set-storage", "", some "nothing"⟩, ⟨"x", "recolor-trigger", "?", none⟩,
    ⟨"x", "jump", "", some ""⟩]⟩

/-- Other names for the kinds, other ids, no labels, a parameter left out and something else shown
at first: two steps and a cancellation come to the same. -/
theorem follow_abbreviated :
    let w : World ScriptedHost RefusingStore Palette :=
      ⟨.withAnswers [], ⟨.empty, "gone", true, true⟩, .ofList ["#ff0000"]⟩
    let old : Presentation := ⟨[.text "old"], 7.0, "red", false⟩
    let orders : List Order := [.step, .step, .cancel]
    List.Forall₂ Action.MeansAs spelledOut.actions abbreviated.actions ∧
    ∃ r r', Run.start spelledOut .strict = .ok r ∧ Run.start abbreviated .strict = .ok r' ∧
      ∃ last last', ((⟨r, w, .initial⟩ : Course ScriptedHost RefusingStore Palette
          Presentation).follow orders).getLast? = some last ∧
        ((⟨r', w, old⟩ : Course ScriptedHost RefusingStore Palette
          Presentation).follow orders).getLast? = some last' ∧
        last.result = last'.result ∧ last.course.shown = last'.course.shown ∧
        last.course.world = last'.course.world ∧
        List.Forall₂ Diagnostic.Alike last.course.run.diagnostics last'.course.run.diagnostics := by
  intro w old orders
  have hmeans : List.Forall₂ Action.MeansAs spelledOut.actions abbreviated.actions := by
    refine .cons ⟨by decide, rfl⟩ (.cons ⟨by decide, rfl⟩ (.cons ⟨by decide, rfl⟩ .nil))
  refine ⟨hmeans, ?_⟩
  have hfollow := follow_of_meansAs hmeans .strict w .initial old orders
  rcases hfollow with ⟨hnone, -⟩ | ⟨r, r', hstart, hstart', -, hstages⟩
  · rw [Run.start_of_isRunnable (by decide)] at hnone
    cases hnone
  · refine ⟨r, r', hstart, hstart', ?_⟩
    obtain rfl := Except.ok.inj ((Run.start_of_isRunnable (by decide) _).symm.trans hstart)
    obtain rfl := Except.ok.inj ((Run.start_of_isRunnable (by decide) _).symm.trans hstart')
    simp only [orders, follow, List.forall₂_cons, List.forall₂_nil_left_iff, and_true] at hstages
    obtain ⟨-, -, hresult, hagree⟩ := hstages
    refine ⟨_, _, rfl, rfl, hresult, ?_, hagree.world, hagree.diagnostics⟩
    exact hagree.shown (.inr ⟨Presentation.forgets, by decide +kernel⟩)

end Course
end TriggerFlow
