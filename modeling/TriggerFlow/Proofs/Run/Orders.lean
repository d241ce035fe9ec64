import TriggerFlow.Proofs.Run.Steps

/-!
# A run under any orders

Whoever holds a run may step it and cancel it in any order and as often as they like, also after it
is over. **The phase, the counter and the diagnostics stay in step all the same.** No order leads
anywhere but to a run that was only ever stepped, or to one that was cancelled before it was over;
`Standing` says so, one order preserves it, and what each phase promises is read off from there.

The obvious count of diagnostics is wrong: an action that reads a key without characters from a
store that cannot be read is reported twice.
-/

set_option autoImplicit false

namespace TriggerFlow

variable {η κ γ σ : Type}

/-- The kind of the actions that end a run in this way. -/
def Ending.kind : Ending → Kind
  | .refresh => .refresh
  | .close => .close

namespace Action

theorem ending?_eq_some_iff {a : Action} {e : Ending} :
    a.ending? = some e ↔ a.kind? = some e.kind := by
  unfold ending?
  cases a.kind? with
  | none => simp
  | some kind => cases kind <;> cases e <;> simp [Kind.ending?, Ending.kind]

/-- Only the last action that is reached can end the run. -/
theorem endsRun_of_mem_take_upToEnd {as : List Action} {n : Nat}
    (h : n < (upToEnd as).length) : ∀ a ∈ (upToEnd as).take n, a.endsRun = false := by
  intro a ha
  obtain ⟨i, hi, rfl⟩ := List.mem_take_iff_getElem.mp ha
  have hget : (upToEnd as)[i]? = some (upToEnd as)[i] := List.getElem?_eq_getElem (by omega)
  exact ((succ_lt_length_upToEnd_iff hget).mp (by omega)).1

theorem take_upToEnd {as : List Action} {n : Nat} (h : n ≤ (upToEnd as).length) :
    (upToEnd as).take n = as.take n := by
  obtain ⟨rest, hrest⟩ := isPrefix_upToEnd as
  conv_rhs => rw [← hrest]
  rw [List.take_append_of_le_length h]

/-- A run that no action ends reaches all of them. -/
theorem length_upToEnd_of_last {as : List Action} (hne : as ≠ [])
    (h : (upToEnd as).getLast?.bind ending? = none) : (upToEnd as).length = as.length := by
  have hpos := length_upToEnd_pos hne
  have hget : (upToEnd as)[(upToEnd as).length - 1]? =
      some (upToEnd as)[(upToEnd as).length - 1] := List.getElem?_eq_getElem (by omega)
  rw [List.getLast?_eq_getElem?, hget, Option.bind_some, ending?_eq_none_iff] at h
  have hgo := (succ_lt_length_upToEnd_iff hget).not.mp (by omega)
  have hle := length_upToEnd_le as
  by_contra hlt
  exact hgo ⟨h, by omega⟩

variable [Host η] [KeyValueStore κ] [ColorSource γ]

theorem length_malformed_le (mode : StorageMode) (a : Action) : (a.malformed mode).length ≤ 1 := by
  cases mode <;> simp [malformed]

/-- An action has at most two things to report, and two only if it reads from the store. -/
theorem length_issues_perform_le (mode : StorageMode) (a : Action) (w : World η κ γ) :
    (a.perform mode w).issues.length ≤ 2 := by
  have hmalformed := length_malformed_le mode a
  unfold perform
  cases a.kind? with
  | none => simp
  | some kind =>
    cases kind with
    | setStorage =>
      simp only [performAs, saveValue]
      split
      · exact Nat.le_succ_of_le hmalformed
      · split <;> simp
    | getStorage =>
      simp only [performAs, showValue]
      split <;> split <;> simp <;> omega
    | recolorTrigger =>
      simp only [performAs, recolor]
      split <;> simp
    | alert | showText | showImage | refresh | growTrigger | close | promptAndShow
    | disableTrigger => simp [performAs, promptAndShow]

end Action

/-! ## Diagnostics -/

/-- What holds of the diagnostics of actions done in turn in one mode. -/
structure Diagnosed (η κ γ : Type) [Host η] [KeyValueStore κ] [ColorSource γ]
    (mode : StorageMode) (as : List Action) (noted : List Diagnostic) : Prop where
  /-- Each is about one of the actions, and is what the action reported somewhere. -/
  about : ∀ x ∈ noted, ∃ a, as[x.index]? = some a ∧ x.kind = a.kind ∧
    ∃ w : World η κ γ, x.issue ∈ (a.perform mode w).issues
  ordered : noted.Pairwise fun x y => x.index ≤ y.index
  atMostTwo : ∀ i, noted.countP (·.index = i) ≤ 2

variable [Host η] [KeyValueStore κ] [ColorSource γ]

theorem Diagnosed.index_lt {mode : StorageMode} {as : List Action} {noted : List Diagnostic}
    (h : Diagnosed η κ γ mode as noted) : ∀ x ∈ noted, x.index < as.length := by
  intro x hx
  obtain ⟨a, ha, -⟩ := h.about x hx
  exact (List.getElem?_eq_some_iff.mp ha).1

/-- One more action adds what it reports itself. -/
theorem Diagnosed.concat {mode : StorageMode} {as : List Action} {noted : List Diagnostic}
    (h : Diagnosed η κ γ mode as noted) (a : Action) (w : World η κ γ) :
    Diagnosed η κ γ mode (as ++ [a])
      (noted ++ (a.perform mode w).issues.map (Diagnostic.mk as.length a.kind)) where
  about := by
    intro x hx
    rcases List.mem_append.mp hx with hx | hx
    · obtain ⟨b, hb, hrest⟩ := h.about x hx
      exact ⟨b, by rw [List.getElem?_append_left (h.index_lt x hx), hb], hrest⟩
    · obtain ⟨issue, hissue, rfl⟩ := List.mem_map.mp hx
      exact ⟨a, by simp, rfl, w, hissue⟩
  ordered := by
    refine List.pairwise_append.mpr ⟨h.ordered, ?_, ?_⟩
    · exact List.pairwise_map.mpr (List.pairwise_of_forall fun _ _ => Nat.le_refl _)
    · intro x hx y hy
      obtain ⟨issue, -, rfl⟩ := List.mem_map.mp hy
      exact Nat.le_of_lt (h.index_lt x hx)
  atMostTwo := by
    intro i
    rw [List.countP_append]
    by_cases hi : i = as.length
    · -- Nothing was noted about this action before.
      have hbefore : noted.countP (·.index = i) = 0 := by
        refine List.countP_eq_zero.mpr fun x hx => ?_
        have := h.index_lt x hx
        simp only [decide_eq_true_eq]
        omega
      have hissues := Action.length_issues_perform_le mode a w
      have hcount := List.countP_le_length
        (p := fun x : Diagnostic => x.index = i)
        (l := (a.perform mode w).issues.map (Diagnostic.mk as.length a.kind))
      rw [List.length_map] at hcount
      omega
    · have hnew : ((a.perform mode w).issues.map (Diagnostic.mk as.length a.kind)).countP
          (·.index = i) = 0 := by
        refine List.countP_eq_zero.mpr fun x hx => ?_
        obtain ⟨issue, -, rfl⟩ := List.mem_map.mp hx
        simpa using Ne.symm hi
      have hold := h.atMostTwo i
      omega

theorem Progress.diagnosed_of (mode : StorageMode) (w : World η κ γ) (as : List Action) :
    Diagnosed η κ γ mode as (Progress.of mode w as).diagnostics := by
  induction as using List.reverseRecOn with
  | nil => exact ⟨by simp [of, none], by simp [of, none], by simp [of, none]⟩
  | append_singleton as a ih =>
    rw [of_concat, add, executed_of]
    exact ih.concat a _

/-! ## Phases -/

namespace Run

theorem phaseAt_eq_running {actions : List Action} {n next : Nat}
    (h : phaseAt actions n = .running next) :
    n = next ∧ 1 ≤ n ∧ n < (Action.upToEnd actions).length := by
  unfold phaseAt at h
  split at h
  · cases h
  · split at h
    · cases h
      omega
    · cases hlast : (Action.upToEnd actions).getLast?.bind Action.ending? <;> simp [hlast] at h

theorem phaseAt_eq_done {actions : List Action} {n : Nat} (h : phaseAt actions n = .done) :
    (Action.upToEnd actions).length ≤ n ∧
      (Action.upToEnd actions).getLast?.bind Action.ending? = none := by
  unfold phaseAt at h
  split at h
  · cases h
  · split at h
    · cases h
    · cases hlast : (Action.upToEnd actions).getLast?.bind Action.ending? with
      | none => exact ⟨by omega, rfl⟩
      | some ending => simp [hlast] at h

theorem phaseAt_eq_terminal {actions : List Action} {n : Nat} {ending : Ending}
    (h : phaseAt actions n = .terminal ending) :
    (Action.upToEnd actions).length ≤ n ∧
      (Action.upToEnd actions).getLast?.bind Action.ending? = some ending := by
  unfold phaseAt at h
  split at h
  · cases h
  · split at h
    · cases h
    · cases hlast : (Action.upToEnd actions).getLast?.bind Action.ending? with
      | none => simp [hlast] at h
      | some last =>
        simp only [hlast, Option.elim_some, Phase.terminal.injEq] at h
        exact ⟨by omega, by rw [h]⟩

theorem phaseAt_ne_cancelled (actions : List Action) (n : Nat) :
    phaseAt actions n ≠ .cancelled := by
  unfold phaseAt
  split
  · simp
  · split
    · simp
    · cases (Action.upToEnd actions).getLast?.bind Action.ending? <;> simp

theorem isFinished_phaseAt {actions : List Action} (hne : actions ≠ []) (n : Nat) :
    (phaseAt actions n).isFinished = true ↔ (Action.upToEnd actions).length ≤ n := by
  have hnext := next?_phaseAt hne n
  cases hp : phaseAt actions n <;> rw [hp] at hnext <;>
    by_cases hn : n < (Action.upToEnd actions).length <;>
    simp_all [Phase.isFinished, Phase.next?]

end Run

/-! ## Where orders lead -/

namespace Course

variable [Sink σ]

/-- Where a course can stand. -/
inductive Standing (actions : List Action) (mode : StorageMode) (w : World η κ γ) (shown : σ) :
    Course η κ γ σ → Prop where
  /-- After some steps. -/
  | stepped (n : Nat) : Standing actions mode w shown (reached actions mode w shown n)
  /-- After some steps and a cancellation that found something left to do. -/
  | cancelled (n : Nat) (left : n < (Action.upToEnd actions).length) :
    Standing actions mode w shown
      { reached actions mode w shown n with
        run := { Run.reached actions mode w n with phase := .cancelled } }

/-- A course that is over stays as it is. -/
theorem obey_of_isFinished {c : Course η κ γ σ} (h : c.run.phase.isFinished = true)
    (order : Order) :
    c.obey order = ⟨if order = .step then some .finished else none, c⟩ := by
  have hnext : c.run.phase.next? = none := by
    cases hp : c.run.phase <;> simp_all [Phase.isFinished, Phase.next?]
  cases order with
  | step =>
    simp only [obey, Run.step, hnext]
    rfl
  | cancel =>
    simp only [obey, Run.cancel, h]
    rfl

theorem follow_of_isFinished {c : Course η κ γ σ} (h : c.run.phase.isFinished = true)
    (orders : List Order) :
    c.follow orders =
      orders.map fun order => ⟨if order = .step then some .finished else none, c⟩ := by
  induction orders with
  | nil => rfl
  | cons order orders ih => rw [follow, obey_of_isFinished h, ih, List.map_cons]

/-- **One order leads from one standing to another.** -/
theorem Standing.obey {actions : List Action} (hne : actions ≠ []) {mode : StorageMode}
    {w : World η κ γ} {shown : σ} {c : Course η κ γ σ} (h : Standing actions mode w shown c)
    (order : Order) : Standing actions mode w shown (c.obey order).course := by
  cases h with
  | cancelled n left =>
    rw [obey_of_isFinished rfl]
    exact .cancelled n left
  | stepped n =>
    cases order with
    | step =>
      rw [obey_step_reached hne]
      exact .stepped (n + 1)
    | cancel =>
      by_cases hn : n < (Action.upToEnd actions).length
      · have hgo : (reached actions mode w shown n).run.phase.isFinished = false := by
          rw [← Bool.not_eq_true]
          exact (Run.isFinished_phaseAt hne n).not.mpr (by omega)
        have heq : ((reached actions mode w shown n).obey .cancel).course =
            { reached actions mode w shown n with
              run := { Run.reached actions mode w n with phase := .cancelled } } := by
          simp only [Course.obey, Run.cancel, hgo]
          rfl
        rw [heq]
        exact .cancelled n hn
      · rw [obey_of_isFinished ((Run.isFinished_phaseAt hne n).mpr (by omega))]
        exact .stepped n

theorem Standing.follow {actions : List Action} (hne : actions ≠ []) {mode : StorageMode}
    {w : World η κ γ} {shown : σ} (orders : List Order) :
    ∀ {c : Course η κ γ σ}, Standing actions mode w shown c →
      ∀ stage ∈ c.follow orders, Standing actions mode w shown stage.course := by
  induction orders with
  | nil =>
    intro c _ stage hstage
    simp [Course.follow] at hstage
  | cons order orders ih =>
    intro c h stage hstage
    rcases List.mem_cons.mp hstage with rfl | hstage
    · exact h.obey hne order
    · exact ih (h.obey hne order) stage hstage

theorem Standing.executed_eq {actions : List Action} {mode : StorageMode} {w : World η κ γ}
    {shown : σ} {c : Course η κ γ σ} (h : Standing actions mode w shown c) :
    ∃ n, c.run.executed = min n (Action.upToEnd actions).length ∧
      c.run.diagnostics =
        (Progress.of mode w (actions.take (min n (Action.upToEnd actions).length))).diagnostics := by
  have hrun (n : Nat) :
      (Progress.upTo actions mode w n).diagnostics =
        (Progress.of mode w
          (actions.take (min n (Action.upToEnd actions).length))).diagnostics := by
    rw [← Action.take_upToEnd (Nat.min_le_right _ _), ← List.take_eq_take_min]
    rfl
  cases h with
  | stepped n => exact ⟨n, Progress.executed_upTo actions mode w n, hrun n⟩
  | cancelled n left => exact ⟨n, Progress.executed_upTo actions mode w n, hrun n⟩

/-- Each diagnostic is about an action that has been done, and is what that action reported. -/
theorem Standing.diagnosed {actions : List Action} {mode : StorageMode} {w : World η κ γ}
    {shown : σ} {c : Course η κ γ σ} (h : Standing actions mode w shown c) :
    Diagnosed η κ γ mode (actions.take c.run.executed) c.run.diagnostics := by
  obtain ⟨n, hexecuted, hdiagnostics⟩ := h.executed_eq
  rw [hexecuted, hdiagnostics]
  exact Progress.diagnosed_of mode w _

/-! ## What the phases promise -/

/-- What holds of the course of a document at any moment, if it began in a world with something
shown. -/
structure Sound (d : Document) (w : World η κ γ) (shown : σ) (c : Course η κ γ σ) : Prop where
  idle : c.run.phase = .idle →
    c.run.executed = 0 ∧ c.run.diagnostics = [] ∧ c.world = w ∧ c.shown = shown
  running : ∀ next, c.run.phase = .running next →
    c.run.executed = next ∧ 1 ≤ next ∧ next < d.size
  done : c.run.phase = .done → c.run.executed = d.size
  terminal : ∀ ending, c.run.phase = .terminal ending →
    1 ≤ c.run.executed ∧ c.run.executed ≤ d.size ∧
      (∃ a, d.actions[c.run.executed - 1]? = some a ∧ a.kind? = some ending.kind) ∧
      ∀ a ∈ d.actions.take (c.run.executed - 1), a.endsRun = false
  cancelled : c.run.phase = .cancelled →
    c.run.executed < d.size ∧ ∀ a ∈ d.actions.take c.run.executed, a.endsRun = false
  /-- The cursor is at an action, and a step finds nothing to do only if the phase says so. -/
  next : ∀ index, c.run.phase.next? = some index → index < d.size
  finished : (c.obey .step).result = some .finished ↔ c.run.phase.isFinished = true
  about : ∀ x ∈ c.run.diagnostics, x.index < c.run.executed ∧
    ∃ a, d.actions[x.index]? = some a ∧ x.kind = a.kind
  ordered : c.run.diagnostics.Pairwise fun x y => x.index ≤ y.index
  atMostTwo : ∀ i, c.run.diagnostics.countP (·.index = i) ≤ 2

/-- The last action that is reached, if it ends the run, is the only one that does. -/
theorem endsRun_before_last {as : List Action} {ending : Ending}
    (h : (Action.upToEnd as).getLast?.bind Action.ending? = some ending) :
    1 ≤ (Action.upToEnd as).length ∧
      (∃ a, as[(Action.upToEnd as).length - 1]? = some a ∧ a.kind? = some ending.kind) ∧
      ∀ a ∈ as.take ((Action.upToEnd as).length - 1), a.endsRun = false := by
  obtain ⟨a, hlast, hending⟩ := Option.bind_eq_some_iff.mp h
  have hpos : 0 < (Action.upToEnd as).length := by
    rw [List.length_pos_iff]
    rintro hnil
    simp [hnil] at hlast
  rw [List.getLast?_eq_getElem?] at hlast
  refine ⟨hpos, ⟨a, Action.getElem?_of_upToEnd hlast, Action.ending?_eq_some_iff.mp hending⟩, ?_⟩
  rw [← Action.take_upToEnd (Nat.sub_le _ _)]
  exact Action.endsRun_of_mem_take_upToEnd (by omega)

/-- **Wherever a course can stand, its phase, its counter and its diagnostics are in step.** -/
theorem Standing.sound {d : Document} (hne : d.actions ≠ []) {mode : StorageMode}
    {w : World η κ γ} {shown : σ} {c : Course η κ γ σ} (h : Standing d.actions mode w shown c) :
    Sound d w shown c where
  idle := by
    intro hp
    cases h with
    | cancelled n left => cases hp
    | stepped n =>
      obtain rfl : n = 0 := Run.phaseAt_eq_idle_iff.mp hp
      exact ⟨rfl, rfl, rfl, rfl⟩
  running := by
    intro next hp
    cases h with
    | cancelled n left => cases hp
    | stepped n =>
      obtain ⟨rfl, hpos, hlt⟩ := Run.phaseAt_eq_running hp
      have hexecuted := Progress.executed_upTo d.actions mode w n
      have hle := Action.length_upToEnd_le d.actions
      exact ⟨hexecuted.trans (by omega), hpos, Nat.lt_of_lt_of_le hlt hle⟩
  done := by
    intro hp
    cases h with
    | cancelled n left => cases hp
    | stepped n =>
      obtain ⟨hle, hlast⟩ := Run.phaseAt_eq_done hp
      have hexecuted := Progress.executed_upTo d.actions mode w n
      have hall := Action.length_upToEnd_of_last hne hlast
      exact hexecuted.trans ((Nat.min_eq_right hle).trans hall)
  terminal := by
    intro ending hp
    cases h with
    | cancelled n left => cases hp
    | stepped n =>
      obtain ⟨hle, hlast⟩ := Run.phaseAt_eq_terminal hp
      have hexecuted : (reached d.actions mode w shown n).run.executed =
          (Action.upToEnd d.actions).length :=
        (Progress.executed_upTo d.actions mode w n).trans (Nat.min_eq_right hle)
      obtain ⟨hpos, hends, hbefore⟩ := endsRun_before_last hlast
      rw [hexecuted]
      exact ⟨hpos, Action.length_upToEnd_le d.actions, hends, hbefore⟩
  cancelled := by
    intro hp
    cases h with
    | stepped n => exact absurd hp (Run.phaseAt_ne_cancelled d.actions n)
    | cancelled n left =>
      have hexecuted : (Run.reached d.actions mode w n).executed = n :=
        (Progress.executed_upTo d.actions mode w n).trans (Nat.min_eq_left (by omega))
      have hle := Action.length_upToEnd_le d.actions
      dsimp only
      rw [hexecuted, ← Action.take_upToEnd (by omega)]
      exact ⟨Nat.lt_of_lt_of_le left hle, Action.endsRun_of_mem_take_upToEnd left⟩
  next := by
    intro index hp
    cases h with
    | cancelled n left => cases hp
    | stepped n =>
      have hnext := Run.next?_phaseAt hne n
      have hle := Action.length_upToEnd_le d.actions
      rw [show (Run.phaseAt d.actions n).next? = some index from hp] at hnext
      split at hnext
      · cases hnext
        exact Nat.lt_of_lt_of_le ‹_› hle
      · cases hnext
  finished := by
    cases h with
    | cancelled n left =>
      rw [obey_of_isFinished rfl]
      simp [Phase.isFinished]
    | stepped n =>
      rw [obey_step_reached hne]
      refine Iff.trans ?_ (Run.isFinished_phaseAt hne n).symm
      by_cases hn : n < (Action.upToEnd d.actions).length
      · simp [report_ne_finished hn, hn]
      · simp [report_of_le (Nat.le_of_not_lt hn), Nat.le_of_not_lt hn]
  about := by
    intro x hx
    obtain ⟨a, ha, hkind, -⟩ := h.diagnosed.about x hx
    have hlt := h.diagnosed.index_lt x hx
    rw [List.length_take] at hlt
    refine ⟨by omega, a, ?_, hkind⟩
    rwa [List.getElem?_take_of_lt (by omega)] at ha
  ordered := h.diagnosed.ordered
  atMostTwo := h.diagnosed.atMostTwo

/-- **Under any orders, at every moment**, a run is sound, and once it is over nothing it is told
does anything any more. -/
theorem follow_sound {d : Document} (hd : d.isRunnable = true) (mode : StorageMode)
    (w : World η κ γ) (shown : σ) (orders : List Order) :
    ∃ r, Run.start d mode = .ok r ∧
      let origin : Course η κ γ σ := ⟨r, w, shown⟩
      ∀ c ∈ origin :: (origin.follow orders).map (·.course),
        c.Sound d w shown ∧
        (c.run.phase.isFinished = true → ∀ more,
          c.follow more =
            more.map fun order => ⟨if order = .step then some .finished else none, c⟩) := by
  have hstart := Run.start_of_isRunnable hd mode
  have hne : d.actions ≠ [] := (Run.start_eq_ok_iff.mp hstart).1
  refine ⟨_, hstart, ?_⟩
  intro origin c hc
  have horigin : Standing d.actions mode w shown origin := .stepped 0
  have hstanding : Standing d.actions mode w shown c := by
    rcases List.mem_cons.mp hc with rfl | hc
    · exact horigin
    · obtain ⟨stage, hstage, rfl⟩ := List.mem_map.mp hc
      exact horigin.follow hne orders stage hstage
  exact ⟨hstanding.sound hne, follow_of_isFinished⟩

def readingBlank : Document :=
  ⟨"Go", [⟨"1", "get-storage", "", some " "⟩, ⟨"2", "alert", "", none⟩, ⟨"3", "close", "", none⟩]⟩

/-- A key without characters in a store that cannot be read makes two diagnostics for one action,
and a run that was cancelled after it does nothing more. -/
theorem follow_readingBlank :
    let w : World ScriptedHost RefusingStore Palette :=
      ⟨.withAnswers [], ⟨.empty, "gone", true, false⟩, .ofList []⟩
    let run : Run := ⟨readingBlank.actions, .strict, .idle, 0, []⟩
    let origin : Course ScriptedHost RefusingStore Palette Presentation := ⟨run, w, .initial⟩
    readingBlank.isRunnable = true ∧ Run.start readingBlank .strict = .ok run ∧
    ∃ c ∈ origin :: (origin.follow [.step, .cancel, .step]).map (·.course),
      c.Sound readingBlank w .initial ∧ c.run.phase = .cancelled ∧
      c.run.diagnostics =
        [⟨0, "get-storage", .malformedStorageParam " "⟩,
          ⟨0, "get-storage", .storageFailed "Storage error: gone"⟩] ∧
      c.follow [.step, .cancel] = [⟨some .finished, c⟩, ⟨none, c⟩] := by
  intro w run origin
  have hd : readingBlank.isRunnable = true := by decide
  obtain ⟨r, hstart, hall⟩ := follow_sound hd .strict w Presentation.initial [.step, .cancel, .step]
  have hrun : Run.start readingBlank .strict = .ok run := Run.start_of_isRunnable hd .strict
  obtain rfl : run = r := by
    rw [hrun] at hstart
    exact Except.ok.inj hstart
  let last : Course ScriptedHost RefusingStore Palette Presentation :=
    ((origin.obey .step).course.obey .cancel).course
  have hlast : last ∈ origin :: (origin.follow [.step, .cancel, .step]).map (·.course) := by
    simp [follow, last]
  have hphase : last.run.phase = .cancelled := by decide +kernel
  obtain ⟨hsound, hover⟩ := hall last hlast
  refine ⟨hd, hrun, last, hlast, hsound, hphase, by decide +kernel, ?_⟩
  rw [hover (by rw [hphase]; rfl)]
  rfl

end Course
end TriggerFlow
