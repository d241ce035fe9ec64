import Mathlib.Data.List.Forall2
import TriggerFlow.Proofs.Run.Orders
import TriggerFlow.Proofs.StorageParam

/-!
# One run in two modes

The mode is asked in two places, and they are not alike: an action that saves gives up on a
parameter without a key, while one that reads goes on and may fail a second time. **All the same a
lenient run is a strict one of which some reports were struck out.** `Run.hushed` strikes them out
of a run at any moment. To do so before a step or after it comes to the same, so it comes to the
same before or after any orders.

Which reports these are is told from the document alone: they are about the actions that have been
done and that name no key, and there is one for each.
-/

set_option autoImplicit false

namespace TriggerFlow

variable {η κ γ σ : Type}

/-- A report that only the strict mode makes. -/
def Issue.isMalformed : Issue → Bool
  | .malformedStorageParam _ => true
  | .unknownKind | .storageFailed _ => false

/-! ## One action -/

namespace Action

/-- The action saves and its parameter has no colon, or it reads and its parameter is blank. -/
def namesNoKey (a : Action) : Bool :=
  match a.kind? with
  | some .setStorage => !a.paramOrEmpty.toList.contains ':'
  | some .getStorage => a.paramOrEmpty.toList.all Text.isBlank
  | _ => false

theorem filter_not_malformed (mode : StorageMode) (a : Action) :
    (a.malformed mode).filter (!·.isMalformed) = [] := by
  cases mode <;> simp [malformed, Issue.isMalformed]

variable [KeyValueStore κ]

theorem saveValue_lenient (mode : StorageMode) (a : Action) (w : World η κ γ) :
    a.saveValue .lenient w =
      { a.saveValue mode w with
        issues := (a.saveValue mode w).issues.filter (!·.isMalformed) } := by
  unfold saveValue
  split
  · rw [filter_not_malformed]
    rfl
  · split <;> simp [Issue.isMalformed]

theorem showValue_lenient (mode : StorageMode) (a : Action) (w : World η κ γ) :
    a.showValue .lenient w =
      { a.showValue mode w with
        issues := (a.showValue mode w).issues.filter (!·.isMalformed) } := by
  have hissues : (if Text.trim a.paramOrEmpty = "" then a.malformed .lenient else []) =
      (if Text.trim a.paramOrEmpty = "" then a.malformed mode else []).filter
        (!·.isMalformed) := by
    split
    · rw [filter_not_malformed]
      rfl
    · rfl
  unfold showValue
  dsimp only
  rw [hissues]
  split
  · rfl
  · simp [Issue.isMalformed]

theorem malformed_saveValue (a : Action) (w : World η κ γ) :
    (a.saveValue .strict w).issues.filter Issue.isMalformed =
      if ':' ∈ a.paramOrEmpty.toList then [] else [.malformedStorageParam a.paramOrEmpty] := by
  unfold saveValue
  rw [StorageParam.parse_eq]
  by_cases h : ':' ∈ a.paramOrEmpty.toList
  · rw [if_pos h, if_pos h]
    dsimp only
    split <;> simp [Issue.isMalformed]
  · rw [if_neg h, if_neg h]
    simp [malformed, Issue.isMalformed]

theorem malformed_showValue (a : Action) (w : World η κ γ) :
    (a.showValue .strict w).issues.filter Issue.isMalformed =
      if Text.trim a.paramOrEmpty = "" then [.malformedStorageParam a.paramOrEmpty] else [] := by
  unfold showValue
  dsimp only
  split <;> split <;> simp [malformed, Issue.isMalformed, List.filter_cons]

variable [Host η] [ColorSource γ]

/-- **An action does the same in both modes**, and in the lenient one it reports the rest. -/
theorem perform_lenient (mode : StorageMode) (a : Action) (w : World η κ γ) :
    a.perform .lenient w =
      { a.perform mode w with issues := (a.perform mode w).issues.filter (!·.isMalformed) } := by
  unfold perform
  cases a.kind? with
  | none => simp [Issue.isMalformed]
  | some kind =>
    cases kind with
    | setStorage => exact saveValue_lenient mode a w
    | getStorage => exact showValue_lenient mode a w
    | recolorTrigger =>
      simp only [performAs, recolor]
      split <;> rfl
    | alert | showText | showImage | refresh | growTrigger | close | promptAndShow
    | disableTrigger => rfl

/-- In the strict mode an action reports once that it names no key, if it does not. -/
theorem malformed_perform (a : Action) (w : World η κ γ) :
    (a.perform .strict w).issues.filter Issue.isMalformed =
      if a.namesNoKey then [.malformedStorageParam a.paramOrEmpty] else [] := by
  unfold perform namesNoKey
  cases a.kind? with
  | none => simp [Issue.isMalformed]
  | some kind =>
    cases kind with
    | setStorage =>
      simp only [performAs]
      rw [malformed_saveValue]
      by_cases h : ':' ∈ a.paramOrEmpty.toList <;> simp [h]
    | getStorage =>
      simp only [performAs]
      rw [malformed_showValue]
      simp only [Text.trim_eq_empty_iff]
    | recolorTrigger =>
      simp only [performAs, recolor]
      split <;> rfl
    | alert | showText | showImage | refresh | growTrigger | close | promptAndShow
    | disableTrigger => rfl

/-- One report for each of some actions that names no key, in order. -/
def malformedReports (as : List Action) : List Diagnostic :=
  as.zipIdx.filterMap fun (a, i) =>
    if a.namesNoKey then some ⟨i, a.kind, .malformedStorageParam a.paramOrEmpty⟩ else none

theorem malformedReports_concat (as : List Action) (a : Action) :
    malformedReports (as ++ [a]) =
      malformedReports as ++
        if a.namesNoKey then [⟨as.length, a.kind, .malformedStorageParam a.paramOrEmpty⟩]
        else [] := by
  unfold malformedReports
  rw [List.zipIdx_append, List.filterMap_append]
  by_cases h : a.namesNoKey = true <;> simp [h]

end Action

/-! ## A run -/

/-- Without the reports that only the strict mode makes. -/
def hush (noted : List Diagnostic) : List Diagnostic :=
  noted.filter (!·.issue.isMalformed)

theorem hush_append (noted more : List Diagnostic) :
    hush (noted ++ more) = hush noted ++ hush more :=
  List.filter_append ..

theorem hush_map (index : Nat) (kind : String) (issues : List Issue) :
    hush (issues.map (⟨index, kind, ·⟩)) =
      (issues.filter (!·.isMalformed)).map (⟨index, kind, ·⟩) := by
  unfold hush
  rw [List.filter_map]
  rfl

variable [Host η] [KeyValueStore κ] [ColorSource γ]

/-- The reports of the strict mode are those that the actions call for. -/
theorem Progress.malformed_of (w : World η κ γ) (as : List Action) :
    (Progress.of .strict w as).diagnostics.filter (·.issue.isMalformed) =
      Action.malformedReports as := by
  induction as using List.reverseRecOn with
  | nil => rfl
  | append_singleton as a ih =>
    have hone := Action.malformed_perform a (Progress.of .strict w as).world
    rw [of_concat, add, executed_of, List.filter_append, ih, Action.malformedReports_concat,
      List.filter_map]
    simp only [Function.comp_def]
    rw [hone]
    split <;> rfl

namespace Run

/-- The run as it would be if it had been lenient from the start. -/
def hushed (r : Run) : Run :=
  { r with mode := .lenient, diagnostics := hush r.diagnostics }

/-- **To hush a run and then step it is to step it and then hush it.** -/
theorem step_hushed (r : Run) (w : World η κ γ) :
    r.hushed.step w = { r.step w with run := (r.step w).run.hushed } := by
  have hnext : r.hushed.phase.next? = r.phase.next? := rfl
  unfold step
  rw [hnext]
  cases r.phase.next? with
  | none => rfl
  | some index =>
    have hactions : r.hushed.actions[index]? = r.actions[index]? := rfl
    dsimp only
    rw [hactions]
    cases r.actions[index]? with
    | none => rfl
    | some a =>
      have hperform : a.perform r.hushed.mode w = _ := Action.perform_lenient r.mode a w
      dsimp only
      rw [hperform]
      simp only [hushed, hush_append, hush_map]
      rfl

theorem cancel_hushed (r : Run) : r.hushed.cancel = r.cancel.hushed := by
  have hphase : r.hushed.phase = r.phase := rfl
  unfold cancel
  rw [hphase]
  split <;> rfl

end Run

/-! ## Orders -/

namespace Course

variable [Sink σ]

def hushed (c : Course η κ γ σ) : Course η κ γ σ :=
  { c with run := c.run.hushed }

theorem obey_hushed (c : Course η κ γ σ) (order : Order) :
    c.hushed.obey order = ⟨(c.obey order).result, (c.obey order).course.hushed⟩ := by
  cases order with
  | step =>
    simp only [obey, hushed, Run.step_hushed]
  | cancel =>
    simp only [obey, hushed, Run.cancel_hushed]

theorem follow_hushed (orders : List Order) :
    ∀ c : Course η κ γ σ,
      c.hushed.follow orders =
        (c.follow orders).map fun stage => ⟨stage.result, stage.course.hushed⟩ := by
  induction orders with
  | nil =>
    intro c
    rfl
  | cons order orders ih =>
    intro c
    rw [follow, obey_hushed, ih, follow, List.map_cons]

/-- The course of a document in the strict mode, and the one in the lenient mode after the same
orders. -/
structure Differ (d : Document) (strict lenient : Course η κ γ σ) : Prop where
  phase : lenient.run.phase = strict.run.phase
  executed : lenient.run.executed = strict.run.executed
  world : lenient.world = strict.world
  shown : lenient.shown = strict.shown
  /-- The lenient run reports what the strict one does, but for the malformed parameters. -/
  rest : lenient.run.diagnostics = strict.run.diagnostics.filter (!·.issue.isMalformed)
  /-- The strict run reports each of these once, and reports nothing else as malformed. -/
  malformed : strict.run.diagnostics.filter (·.issue.isMalformed) =
    Action.malformedReports (d.actions.take strict.run.executed)

theorem Standing.differ {d : Document} {w : World η κ γ} {shown : σ} {c : Course η κ γ σ}
    (h : Standing d.actions .strict w shown c) : Differ d c c.hushed where
  phase := rfl
  executed := rfl
  world := rfl
  shown := rfl
  rest := rfl
  malformed := by
    obtain ⟨n, hexecuted, hdiagnostics⟩ := h.executed_eq
    rw [hexecuted, hdiagnostics]
    exact Progress.malformed_of w _

/-- **The two modes differ only in what they report**, under any orders and at every moment: the
results, the phase, the counter, what is shown and the whole world are the same, whatever the host
answers and whatever the store refuses. A document without actions starts in neither mode. -/
theorem follow_strict_lenient (d : Document) (w : World η κ γ) (shown : σ) (orders : List Order) :
    (d.actions = [] ∧ ∀ mode, Run.start d mode = .error .noActions) ∨
    ∃ strict lenient, Run.start d .strict = .ok strict ∧ Run.start d .lenient = .ok lenient ∧
      Differ d ⟨strict, w, shown⟩ ⟨lenient, w, shown⟩ ∧
      List.Forall₂
        (fun s l : Stage η κ γ σ => l.result = s.result ∧ Differ d s.course l.course)
        ((⟨strict, w, shown⟩ : Course η κ γ σ).follow orders)
        ((⟨lenient, w, shown⟩ : Course η κ γ σ).follow orders) := by
  cases hd : d.isRunnable with
  | false =>
    refine .inl ⟨?_, Run.start_of_not_isRunnable hd⟩
    simpa [Document.isRunnable] using hd
  | true =>
    have hstrict := Run.start_of_isRunnable hd .strict
    have hlenient := Run.start_of_isRunnable hd .lenient
    have hne : d.actions ≠ [] := (Run.start_eq_ok_iff.mp hstrict).1
    refine .inr ⟨_, _, hstrict, hlenient, ?_, ?_⟩
    · have horigin : Standing d.actions .strict w shown
          (⟨⟨d.actions, .strict, .idle, 0, []⟩, w, shown⟩ : Course η κ γ σ) := .stepped 0
      exact horigin.differ
    · have hfollow := follow_hushed orders
        (⟨⟨d.actions, .strict, .idle, 0, []⟩, w, shown⟩ : Course η κ γ σ)
      have horigin : Standing d.actions .strict w shown
          (⟨⟨d.actions, .strict, .idle, 0, []⟩, w, shown⟩ : Course η κ γ σ) := .stepped 0
      have hstages := horigin.follow hne orders
      refine hfollow ▸ List.forall₂_map_right_iff.mpr ?_
      exact List.forall₂_same.mpr fun stage hstage => ⟨rfl, (hstages stage hstage).differ⟩

end Course
end TriggerFlow
