import Mathlib.Data.List.Induction
import TriggerFlow.Proofs.Run.Extent
import TriggerFlow.Run.Course

/-!
# A run, step after step

A run is a cursor, and what it has done is spread over the run, the world and what is shown. This
module says where all of it stands after any number of steps: **it is what performing the actions
one after the other comes to**, as far as the run goes. `Progress` is that plain recursion, and
`Course.after_eq` is the invariant of the cursor, from which the other theorems about runs start.
-/

set_option autoImplicit false

namespace TriggerFlow

variable {η κ γ σ : Type} [Host η] [KeyValueStore κ] [ColorSource γ]

/-- What has come of the actions that have been done. -/
structure Progress (η κ γ : Type) where
  world : World η κ γ
  executed : Nat
  /-- Of what is shown, first change first, without the reset before them. -/
  changes : List Change
  diagnostics : List Diagnostic

namespace Progress

def none (w : World η κ γ) : Progress η κ γ :=
  ⟨w, 0, [], []⟩

def add (mode : StorageMode) (p : Progress η κ γ) (a : Action) : Progress η κ γ :=
  let effect := a.perform mode p.world
  ⟨effect.world, p.executed + 1, p.changes ++ effect.change.toList,
    p.diagnostics ++ effect.issues.map (⟨p.executed, a.kind, ·⟩)⟩

def of (mode : StorageMode) (w : World η κ γ) (as : List Action) : Progress η κ γ :=
  as.foldl (add mode) (none w)

theorem of_concat (mode : StorageMode) (w : World η κ γ) (as : List Action) (a : Action) :
    of mode w (as ++ [a]) = (of mode w as).add mode a := by
  unfold of
  rw [List.foldl_append]
  rfl

theorem executed_of (mode : StorageMode) (w : World η κ γ) (as : List Action) :
    (of mode w as).executed = as.length := by
  induction as using List.reverseRecOn with
  | nil => rfl
  | append_singleton as a ih => rw [of_concat, add, ih]; simp

/-- What has come of a run of some actions after a number of steps. -/
def upTo (actions : List Action) (mode : StorageMode) (w : World η κ γ) (n : Nat) :
    Progress η κ γ :=
  of mode w ((Action.upToEnd actions).take n)

theorem upTo_succ {actions : List Action} {n : Nat} {a : Action}
    (h : (Action.upToEnd actions)[n]? = some a) (mode : StorageMode) (w : World η κ γ) :
    Progress.upTo actions mode w (n + 1) = (Progress.upTo actions mode w n).add mode a := by
  have htake : (Action.upToEnd actions).take (n + 1) =
      (Action.upToEnd actions).take n ++ [a] := by
    rw [List.take_add_one, h]
    rfl
  unfold upTo
  rw [htake, of_concat]

theorem upTo_of_le {actions : List Action} {n : Nat} (h : (Action.upToEnd actions).length ≤ n)
    (mode : StorageMode) (w : World η κ γ) :
    Progress.upTo actions mode w n = of mode w (Action.upToEnd actions) := by
  unfold upTo
  rw [List.take_of_length_le h]

theorem executed_upTo (actions : List Action) (mode : StorageMode) (w : World η κ γ) (n : Nat) :
    (Progress.upTo actions mode w n).executed = min n (Action.upToEnd actions).length := by
  unfold upTo
  rw [executed_of, List.length_take]

end Progress

namespace Run

theorem start_eq_ok_iff {d : Document} {mode : StorageMode} {r : Run} :
    start d mode = .ok r ↔ d.actions ≠ [] ∧ r = ⟨d.actions, mode, .idle, 0, []⟩ := by
  unfold start Document.isRunnable
  cases d.actions with
  | nil => simp
  | cons a as => simp [eq_comm]

theorem start_of_not_isRunnable {d : Document} (h : d.isRunnable = false) (mode : StorageMode) :
    start d mode = .error .noActions := by
  unfold Run.start
  rw [h]
  rfl

theorem start_of_isRunnable {d : Document} (h : d.isRunnable = true) (mode : StorageMode) :
    start d mode = .ok ⟨d.actions, mode, .idle, 0, []⟩ := by
  unfold Run.start
  rw [h]
  rfl

def phaseAt (actions : List Action) (n : Nat) : Phase :=
  if n = 0 then .idle
  else if n < (Action.upToEnd actions).length then .running n
  else ((Action.upToEnd actions).getLast?.bind Action.ending?).elim .done .terminal

/-- A run of some actions after a number of steps that began in a world. -/
def reached (actions : List Action) (mode : StorageMode) (w : World η κ γ) (n : Nat) : Run :=
  let p := Progress.upTo actions mode w n
  ⟨actions, mode, phaseAt actions n, p.executed, p.diagnostics⟩

theorem next?_phaseAt {actions : List Action} (hne : actions ≠ []) (n : Nat) :
    (phaseAt actions n).next? = if n < (Action.upToEnd actions).length then some n else none := by
  have hpos := Action.length_upToEnd_pos hne
  unfold phaseAt
  by_cases h0 : n = 0
  · subst h0
    rw [if_pos rfl, if_pos hpos]
    rfl
  · rw [if_neg h0]
    split
    · rfl
    · cases (Action.upToEnd actions).getLast?.bind Action.ending? <;> rfl

theorem phaseAt_eq_idle_iff {actions : List Action} {n : Nat} :
    phaseAt actions n = .idle ↔ n = 0 := by
  unfold phaseAt
  by_cases h0 : n = 0
  · simp [h0]
  · rw [if_neg h0]
    split
    · simp [h0]
    · cases (Action.upToEnd actions).getLast?.bind Action.ending? <;> simp [h0]

/-- A run is told as cancelled until it has done the last action that it reaches. -/
theorem status_reached {actions : List Action} (hne : actions ≠ []) (mode : StorageMode)
    (w : World η κ γ) (n : Nat) :
    (reached actions mode w n).status =
      if n < (Action.upToEnd actions).length then .cancelled
      else ((Action.upToEnd actions).getLast?.bind Action.ending?).elim .completed .terminated := by
  have hpos := Action.length_upToEnd_pos hne
  have hphase : (reached actions mode w n).phase = phaseAt actions n := rfl
  unfold status
  rw [hphase]
  unfold phaseAt
  by_cases h0 : n = 0
  · rw [if_pos h0, if_pos (by omega)]
  · rw [if_neg h0]
    by_cases hn : n < (Action.upToEnd actions).length
    · rw [if_pos hn, if_pos hn]
    · rw [if_neg hn, if_neg hn]
      cases (Action.upToEnd actions).getLast?.bind Action.ending? <;> rfl

/-- The cursor moves on as the extent of the run says. -/
theorem phaseAfter_reached {actions : List Action} {n : Nat} {a : Action} {r : Run}
    (hr : r.actions = actions) (h : (Action.upToEnd actions)[n]? = some a) :
    r.phaseAfter n a = phaseAt actions (n + 1) := by
  have hlt := Action.succ_lt_length_upToEnd_iff h
  unfold phaseAfter phaseAt
  rw [if_neg n.succ_ne_zero, hr]
  cases he : a.ending? with
  | some ending =>
    have hends : a.endsRun = true := by rw [← Action.isSome_ending?, he]; rfl
    have hstop : ¬ n + 1 < (Action.upToEnd actions).length := fun hgo => by
      rw [(hlt.mp hgo).1] at hends
      exact absurd hends (by simp)
    rw [if_neg hstop, Action.getLast?_upToEnd h (by omega)]
    simp [he]
  | none =>
    have hends := Action.ending?_eq_none_iff.mp he
    by_cases hgo : n + 1 < actions.length
    · rw [if_pos (hlt.mpr ⟨hends, hgo⟩)]
      simp [hgo]
    · have hstop : ¬ n + 1 < (Action.upToEnd actions).length := fun h' => hgo (hlt.mp h').2
      rw [if_neg hstop, Action.getLast?_upToEnd h (by omega)]
      simp [hgo, he]

/-- **One step of a run that has something left to do**: the action at the cursor, and the reset
before the first one. -/
theorem step_reached_of_getElem? {actions : List Action} {n : Nat} {a : Action}
    (h : (Action.upToEnd actions)[n]? = some a) (mode : StorageMode) (w : World η κ γ) :
    let p := Progress.upTo actions mode w n
    (reached actions mode w n).step p.world =
      { result := a.ending?.elim .paced .terminal
        run := reached actions mode w (n + 1)
        world := (p.add mode a).world
        changes :=
          (if n = 0 then [Change.reset] else []) ++ (a.perform mode p.world).change.toList } := by
  intro p
  have hn : n < (Action.upToEnd actions).length := (List.getElem?_eq_some_iff.mp h).1
  have hne : actions ≠ [] := by
    rintro rfl
    simp [Action.upToEnd] at h
  have hcount : p.executed = n := by
    rw [Progress.executed_upTo]
    omega
  have hnext : (reached actions mode w n).phase.next? = some n := by
    show (phaseAt actions n).next? = some n
    rw [next?_phaseAt hne, if_pos hn]
  have hact : (reached actions mode w n).actions[n]? = some a := Action.getElem?_of_upToEnd h
  have hphase := phaseAfter_reached (r := reached actions mode w n) rfl h
  unfold step
  rw [hnext]
  dsimp only
  rw [hact]
  dsimp only
  rw [hphase]
  simp only [reached, Progress.upTo_succ h, Progress.add, phaseAt_eq_idle_iff, p, hcount]

theorem step_reached_of_le {actions : List Action} {n : Nat} (hne : actions ≠ [])
    (h : (Action.upToEnd actions).length ≤ n) (mode : StorageMode) (w w' : World η κ γ) :
    (reached actions mode w n).step w' = ⟨.finished, reached actions mode w n, w', []⟩ := by
  have hnext : (reached actions mode w n).phase.next? = none := by
    show (phaseAt actions n).next? = none
    rw [next?_phaseAt hne, if_neg (by omega)]
  unfold step
  rw [hnext]

end Run

/-! ## The course of a run -/

namespace Course

variable [Sink σ]

def after (c : Course η κ γ σ) : Nat → Course η κ γ σ
  | 0 => c
  | n + 1 => ((c.after n).obey .step).course

/-- Where the course of a run of some actions stands after a number of steps, by the plain
recursion. The first step is the one that puts what is shown back to its start. -/
def reached (actions : List Action) (mode : StorageMode) (w : World η κ γ) (shown : σ) (n : Nat) :
    Course η κ γ σ :=
  let p := Progress.upTo actions mode w n
  ⟨Run.reached actions mode w n, p.world,
    Sink.applyAll (if n = 0 then [] else .reset :: p.changes) shown⟩

def report (actions : List Action) (n : Nat) : StepResult :=
  (Action.upToEnd actions)[n]?.elim .finished fun a => a.ending?.elim .paced .terminal

theorem reached_of_le {actions : List Action} {n : Nat} (hne : actions ≠ [])
    (h : (Action.upToEnd actions).length ≤ n) (mode : StorageMode) (w : World η κ γ) (shown : σ) :
    reached actions mode w shown n =
      reached actions mode w shown (Action.upToEnd actions).length := by
  have hpos : (Action.upToEnd actions).length ≠ 0 := Nat.ne_of_gt (Action.length_upToEnd_pos hne)
  simp only [reached, Run.reached, Run.phaseAt, Progress.upTo_of_le h,
    Progress.upTo_of_le (Nat.le_refl _), if_neg hpos, if_neg (show n ≠ 0 by omega),
    if_neg (Nat.lt_irrefl _), if_neg (show ¬ n < (Action.upToEnd actions).length by omega)]

/-- Where the course of a run stands that has come to its end. -/
theorem reached_end {actions : List Action} (hne : actions ≠ []) (mode : StorageMode)
    (w : World η κ γ) (shown : σ) :
    reached actions mode w shown (Action.upToEnd actions).length =
      let p := Progress.of mode w (Action.upToEnd actions)
      ⟨Run.reached actions mode w (Action.upToEnd actions).length, p.world,
        Sink.applyAll (.reset :: p.changes) shown⟩ := by
  have hpos : (Action.upToEnd actions).length ≠ 0 := Nat.ne_of_gt (Action.length_upToEnd_pos hne)
  simp only [reached, Progress.upTo_of_le (Nat.le_refl _), if_neg hpos]

/-- **The cursor follows the recursion**: a step takes the course from one position to the next. -/
theorem obey_step_reached {actions : List Action} (hne : actions ≠ []) (mode : StorageMode)
    (w : World η κ γ) (shown : σ) (n : Nat) :
    (reached actions mode w shown n).obey .step =
      ⟨some (report actions n), reached actions mode w shown (n + 1)⟩ := by
  unfold report
  cases h : (Action.upToEnd actions)[n]? with
  | none =>
    have hle : (Action.upToEnd actions).length ≤ n := List.getElem?_eq_none_iff.mp h
    rw [reached_of_le hne (Nat.le_succ_of_le hle), ← reached_of_le hne hle]
    simp only [obey, reached, Run.step_reached_of_le hne hle]
    rfl
  | some a =>
    have hstep := Run.step_reached_of_getElem? h mode w
    simp only [obey, reached, hstep, Option.elim_some, Progress.upTo_succ h]
    cases n with
    | zero => rfl
    | succ n => simp [Progress.add, Sink.applyAll, List.foldl_append]

/-- Where a run that has been started stands after a number of steps. -/
theorem after_eq {d : Document} {mode : StorageMode} {r : Run} (h : Run.start d mode = .ok r)
    (w : World η κ γ) (shown : σ) (n : Nat) :
    (⟨r, w, shown⟩ : Course η κ γ σ).after n = reached d.actions mode w shown n := by
  obtain ⟨hne, rfl⟩ := Run.start_eq_ok_iff.mp h
  induction n with
  | zero => rfl
  | succ n ih => rw [after, ih, obey_step_reached hne]

/-! ## What the steps report -/

theorem report_of_succ_lt {actions : List Action} {n : Nat}
    (h : n + 1 < (Action.upToEnd actions).length) : report actions n = .paced := by
  have ha := List.getElem?_eq_getElem (show n < (Action.upToEnd actions).length by omega)
  have hends := ((Action.succ_lt_length_upToEnd_iff ha).mp h).1
  unfold report
  rw [ha, Option.elim_some, Action.ending?_eq_none_iff.mpr hends]
  rfl

theorem report_of_succ_eq {actions : List Action} {n : Nat}
    (h : n + 1 = (Action.upToEnd actions).length) :
    report actions n =
      ((Action.upToEnd actions).getLast?.bind Action.ending?).elim .paced .terminal := by
  have ha := List.getElem?_eq_getElem (show n < (Action.upToEnd actions).length by omega)
  unfold report
  rw [ha, Action.getLast?_upToEnd ha (by omega)]
  rfl

theorem report_of_le {actions : List Action} {n : Nat} (h : (Action.upToEnd actions).length ≤ n) :
    report actions n = .finished := by
  unfold report
  rw [List.getElem?_eq_none h]
  rfl

theorem report_ne_finished {actions : List Action} {n : Nat}
    (h : n < (Action.upToEnd actions).length) : report actions n ≠ .finished := by
  unfold report
  rw [List.getElem?_eq_getElem h, Option.elim_some]
  cases ((Action.upToEnd actions)[n]).ending? <;> simp

def stageAt (actions : List Action) (mode : StorageMode) (w : World η κ γ) (shown : σ) (n : Nat) :
    Stage η κ γ σ :=
  ⟨some (report actions n), reached actions mode w shown (n + 1)⟩

theorem stepsToEnd_reached {actions : List Action} (hne : actions ≠ []) (mode : StorageMode)
    (w : World η κ γ) (shown : σ) (left : Nat) :
    ∀ (n fuel : Nat), n + left = (Action.upToEnd actions).length → left < fuel →
      (reached actions mode w shown n).stepsToEnd fuel =
        (List.range' n (left + 1)).map (stageAt actions mode w shown) := by
  -- The induction is on the actions that are left; the fuel only has to be more.
  induction left with
  | zero =>
    intro n fuel hn hfuel
    obtain ⟨fuel, rfl⟩ : ∃ k, fuel = k + 1 := ⟨fuel - 1, by omega⟩
    rw [stepsToEnd, obey_step_reached hne, report_of_le (by omega)]
    simp [stageAt, report_of_le (show (Action.upToEnd actions).length ≤ n by omega)]
  | succ left ih =>
    intro n fuel hn hfuel
    obtain ⟨fuel, rfl⟩ : ∃ k, fuel = k + 1 := ⟨fuel - 1, by omega⟩
    have hgo : some (report actions n) ≠ some .finished := fun h =>
      report_ne_finished (by omega) (Option.some.inj h)
    rw [stepsToEnd, obey_step_reached hne, List.range'_succ, List.map_cons]
    dsimp only
    rw [if_neg hgo, ih (n + 1) fuel (by omega) (by omega)]
    rfl

/-- **The stages of a run to its end**: one for each action that is reached, and one that finds
nothing left. -/
theorem finish_eq {d : Document} {mode : StorageMode} {r : Run} (h : Run.start d mode = .ok r)
    (w : World η κ γ) (shown : σ) :
    (⟨r, w, shown⟩ : Course η κ γ σ).finish =
      (List.range ((Action.upToEnd d.actions).length + 1)).map
        (stageAt d.actions mode w shown) := by
  obtain ⟨hne, rfl⟩ := Run.start_eq_ok_iff.mp h
  have hle := Action.length_upToEnd_le d.actions
  rw [List.range_eq_range']
  exact stepsToEnd_reached hne mode w shown _ 0 _ (Nat.zero_add _) (Nat.lt_succ_of_le hle)

/-- **A run told to go on until it is over** stops at the last action that is reached if that one
ends the run, and otherwise at the step after it. -/
theorem find?_finish {d : Document} {mode : StorageMode} {r : Run} (h : Run.start d mode = .ok r)
    (w : World η κ γ) (shown : σ) :
    (⟨r, w, shown⟩ : Course η κ γ σ).finish.find? (·.result ≠ some .paced) =
      some ⟨some
          (((Action.upToEnd d.actions).getLast?.bind Action.ending?).elim .finished .terminal),
        reached d.actions mode w shown (Action.upToEnd d.actions).length⟩ := by
  rw [finish_eq h]
  obtain ⟨hne, rfl⟩ := Run.start_eq_ok_iff.mp h
  have hpos : (Action.upToEnd d.actions).length ≠ 0 := Nat.ne_of_gt (Action.length_upToEnd_pos hne)
  obtain ⟨k, hk⟩ := Nat.exists_eq_succ_of_ne_zero hpos
  have hpaced : ((List.range k).map (stageAt d.actions mode w shown)).find?
      (·.result ≠ some .paced) = none := by
    simp only [List.find?_map, Option.map_eq_none_iff, List.find?_eq_none]
    intro n hn
    have hlt : n < k := List.mem_range.mp hn
    simp [stageAt, report_of_succ_lt (show n + 1 < (Action.upToEnd d.actions).length by omega)]
  have hlast := report_of_succ_eq hk.symm
  have hover := report_of_le (Nat.le_refl (Action.upToEnd d.actions).length)
  have hstay := reached_of_le hne (Nat.le_succ (Action.upToEnd d.actions).length) mode w shown
  rw [hk, List.range_succ, List.range_succ, List.map_append, List.map_append, List.append_assoc,
    List.find?_append, hpaced, Option.none_or]
  rw [hk] at hover hstay
  cases he : (Action.upToEnd d.actions).getLast?.bind Action.ending? with
  | none =>
    rw [he] at hlast
    simp [stageAt, hlast, hover, hstay]
  | some ending =>
    rw [he] at hlast
    simp [stageAt, hlast]

end Course
end TriggerFlow
