import TriggerFlow.Proofs.Run.Changes
import TriggerFlow.Proofs.Run.Interpretation
import TriggerFlow.Proofs.Run.Orders
import TriggerFlow.Proofs.Run.Sinks

/-!
# A run only moves forward

Someone may look at what a run shows at any moment, after a step, in a pause or in the middle of a
step between two calls. **Whenever they look again, what they saw is still there**: the log has the
same entries first, a trigger that was disabled is disabled, and the scale has grown by one step for
each action in between that grows it. They never see half of an action, because an action calls for
at most one change, and the reset is over before the first of them.
-/

set_option autoImplicit false

namespace TriggerFlow

variable {η κ γ σ : Type}

/-! ## What comes later -/

theorem Account.grown_grown (m n : Nat) :
    ∀ scale : Float, grown (grown scale m) n = grown scale (m + n) := by
  induction m with
  | zero =>
    intro scale
    rw [Nat.zero_add]
    rfl
  | succ m ih =>
    intro scale
    rw [Nat.succ_add]
    exact ih (scale + 0.2)

namespace Presentation

/-- What is shown later, after so many changes that grow the trigger. -/
structure Forward (p q : Presentation) (steps : Nat) : Prop where
  /-- No entry is gone and none is another one. -/
  log : p.log <+: q.log
  enabled : p.enabled = false → q.enabled = false
  scale : q.scale = Account.grown p.scale steps

theorem Forward.refl (p : Presentation) : p.Forward p 0 :=
  ⟨List.prefix_refl _, id, rfl⟩

theorem Forward.trans {p q r : Presentation} {m n : Nat} (h : p.Forward q m)
    (h' : q.Forward r n) : p.Forward r (m + n) where
  log := h.log.trans h'.log
  enabled := h'.enabled ∘ h.enabled
  scale := by rw [h'.scale, h.scale, Account.grown_grown]

theorem forward_push (p : Presentation) (item : Content) :
    p.Forward (Sink.apply (.push item) p) 0 :=
  ⟨List.prefix_append _ _, id, rfl⟩

theorem forward_recolor (p : Presentation) (color : String) :
    p.Forward (Sink.apply (.recolor color) p) 0 :=
  ⟨List.prefix_refl _, id, rfl⟩

theorem forward_disable (p : Presentation) : p.Forward (Sink.apply .disable p) 0 :=
  ⟨List.prefix_refl _, fun _ => rfl, rfl⟩

theorem forward_grow (p : Presentation) : p.Forward (Sink.apply (.grow scaleStep) p) 1 := by
  have hpositive : scaleStep > 0.0 := by decide
  have hgrown : Sink.apply (.grow scaleStep) p = { p with scale := p.scale + scaleStep } := by
    show Presentation.apply (.grow scaleStep) p = _
    rw [Presentation.apply, if_pos hpositive]
  rw [hgrown]
  exact ⟨List.prefix_refl _, id, rfl⟩

end Presentation

/-! ## Actions in turn -/

namespace Action

/-- How many of some actions grow the trigger. -/
def grows (as : List Action) : Nat :=
  as.countP (·.kind? = some .growTrigger)

theorem grows_append (before more : List Action) :
    grows (before ++ more) = grows before + grows more :=
  List.countP_append

variable [Host η] [KeyValueStore κ] [ColorSource γ]

/-- **One action moves forward**, whatever is shown before it. -/
theorem forward_perform (mode : StorageMode) (a : Action) (w : World η κ γ) (p : Presentation) :
    p.Forward (Sink.applyAll (a.perform mode w).change.toList p) (grows [a]) := by
  rcases a.change_cases mode w with ⟨hkind, hgrow⟩ | ⟨hkind, hother⟩
  · rw [hgrow, show grows [a] = 1 by simp [grows, hkind]]
    exact p.forward_grow
  · rw [show grows [a] = 0 by simp [grows, hkind]]
    rcases hother with hnone | ⟨item, hpush⟩ | ⟨color, hcolor⟩ | hdisable
    · rw [hnone]
      exact .refl p
    · rw [hpush]
      exact p.forward_push item
    · rw [hcolor]
      exact p.forward_recolor color
    · rw [hdisable]
      exact p.forward_disable

end Action

namespace Progress

variable [Host η] [KeyValueStore κ] [ColorSource γ]

/-- What is shown when some actions have been done, and nothing else. -/
def shownOf (mode : StorageMode) (w : World η κ γ) (as : List Action) : Presentation :=
  Sink.applyAll (of mode w as).changes .initial

/-- **More actions move forward.** -/
theorem forward_append (mode : StorageMode) (w : World η κ γ) (before more : List Action) :
    (shownOf mode w before).Forward (shownOf mode w (before ++ more)) (Action.grows more) := by
  induction more using List.reverseRecOn with
  | nil =>
    rw [List.append_nil]
    exact .refl _
  | append_singleton more a ih =>
    have hlast : shownOf mode w (before ++ (more ++ [a])) =
        Sink.applyAll (a.perform mode (of mode w (before ++ more)).world).change.toList
          (shownOf mode w (before ++ more)) := by
      unfold shownOf
      rw [← List.append_assoc, of_concat]
      exact Sink.applyAll_append _ _ _
    rw [hlast, Action.grows_append]
    exact ih.trans (a.forward_perform mode _ _)

theorem forward_take (mode : StorageMode) (w : World η κ γ) (as : List Action) {m n : Nat}
    (h : m ≤ n) :
    (shownOf mode w (as.take m)).Forward (shownOf mode w (as.take n))
      (Action.grows ((as.take n).drop m)) := by
  have hsplit : as.take n = as.take m ++ (as.take n).drop m := by
    conv_lhs => rw [← List.take_append_drop m (as.take n), List.take_take, Nat.min_eq_left h]
  conv =>
    arg 2
    rw [hsplit]
  exact forward_append mode w _ _

end Progress

/-! ## A run, call by call -/

section Runs

variable [Host η] [KeyValueStore κ] [ColorSource γ]

/-- **A step calls for at most one change**, apart from the reset that the first one begins with. -/
theorem Run.changes_step (r : Run) (w : World η κ γ) :
    ∃ change : Option Change, change ≠ some .reset ∧
      ((r.step w).changes = change.toList ∨
        r.phase = .idle ∧ (r.step w).changes = .reset :: change.toList) := by
  unfold step
  cases r.phase.next? with
  | none => exact ⟨none, by simp, .inl rfl⟩
  | some index =>
    dsimp only
    cases r.actions[index]? with
    | none => exact ⟨none, by simp, .inl rfl⟩
    | some a =>
      refine ⟨(a.perform r.mode w).change, a.change_ne_reset r.mode w, ?_⟩
      dsimp only
      by_cases hidle : r.phase = .idle
      · rw [if_pos hidle]
        exact .inr ⟨hidle, rfl⟩
      · rw [if_neg hidle]
        exact .inl rfl

namespace Course

variable [Sink σ]

theorem executed_le_obey (c : Course η κ γ σ) (order : Order) :
    c.run.executed ≤ (c.obey order).course.run.executed := by
  cases order with
  | cancel =>
    show c.run.executed ≤ c.run.cancel.executed
    unfold Run.cancel
    split <;> exact Nat.le_refl _
  | step =>
    show c.run.executed ≤ (c.run.step c.world).run.executed
    rcases c.run.step_cases c.world with hstay | ⟨-, hexecuted, -⟩
    · exact Nat.le_of_eq (by rw [hstay])
    · rw [hexecuted]
      exact Nat.le_succ _

/-- No order takes back an action that has been done. -/
theorem executed_le_follow (orders : List Order) :
    ∀ c : Course η κ γ σ, ∀ s ∈ c.follow orders, c.run.executed ≤ s.course.run.executed := by
  induction orders with
  | nil =>
    intro c s hs
    cases hs
  | cons order orders ih =>
    intro c s hs
    rcases List.mem_cons.mp hs with rfl | hs
    · exact c.executed_le_obey order
    · exact Nat.le_trans (c.executed_le_obey order) (ih _ s hs)

theorem pairwise_executed_follow (orders : List Order) :
    ∀ c : Course η κ γ σ, (c.follow orders).Pairwise fun s t =>
      s.course.run.executed ≤ t.course.run.executed := by
  induction orders with
  | nil =>
    intro c
    exact .nil
  | cons order orders ih =>
    intro c
    exact .cons (fun s hs => executed_le_follow orders _ s hs) (ih _)

/-- **What has been called for** wherever a course can stand: nothing before the first action, and
then the reset and what the actions call for that have been done. -/
theorem Standing.shown_eq {actions : List Action} (hne : actions ≠ []) {mode : StorageMode}
    {w : World η κ γ} {first : σ} {c : Course η κ γ σ} (h : Standing actions mode w first c) :
    c.shown = Sink.applyAll
      (if c.run.executed = 0 then []
        else .reset :: (Progress.of mode w (actions.take c.run.executed)).changes) first := by
  have hpos := Action.length_upToEnd_pos hne
  -- A course that is over has done what it reached, so the count says all.
  have hcount (n : Nat) : (reached actions mode w first n).shown = Sink.applyAll
      (if min n (Action.upToEnd actions).length = 0 then []
        else .reset :: (Progress.of mode w
          (actions.take (min n (Action.upToEnd actions).length))).changes) first := by
    have hzero : min n (Action.upToEnd actions).length = 0 ↔ n = 0 := by omega
    simp only [hzero, ← Action.take_upToEnd (Nat.min_le_right n _), ← List.take_eq_take_min]
    rfl
  cases h with
  | stepped n =>
    rw [show (reached actions mode w first n).run.executed = _ from
      Progress.executed_upTo actions mode w n]
    exact hcount n
  | cancelled n left =>
    dsimp only
    rw [show (Run.reached actions mode w n).executed = _ from
      Progress.executed_upTo actions mode w n]
    exact hcount n

/-- What can be seen of a run by whoever looks again and again, at the ends of its orders and
between its calls, if it began with something shown. -/
structure MovesForward (d : Document) (mode : StorageMode) (w : World η κ γ)
    (first : Presentation) (seen : List (Stage η κ γ Presentation))
    (written : List (Stage η κ γ Recorder)) : Prop where
  /-- A whole number of actions has been done, and before the first one nothing was touched. -/
  whole : ∀ s ∈ seen, s.course.shown =
    if s.course.run.executed = 0 then first
    else Progress.shownOf mode w (d.actions.take s.course.run.executed)
  /-- Of two moments after the first step the later one is ahead by the actions in between. -/
  forward : seen.Pairwise fun s t => s.course.run.executed ≠ 0 →
    s.course.run.executed ≤ t.course.run.executed ∧
    s.course.shown.Forward t.course.shown (Action.grows
      ((d.actions.take t.course.run.executed).drop s.course.run.executed))
  /-- What was called for has made what is seen. -/
  called : List.Forall₂ (fun s r => s.course.run = r.course.run ∧
    s.course.shown = Sink.applyAll r.course.shown.calls first) seen written
  /-- Whatever was called for so far, what it has made is what a whole number of actions makes, and
  this number only grows. -/
  between : ∀ r ∈ written, ∀ calls more, calls <+: more → more <+: r.course.shown.calls →
    calls ≠ [] → ∃ m n, m ≤ n ∧ n ≤ r.course.run.executed ∧
      Sink.applyAll calls first = Progress.shownOf mode w (d.actions.take m) ∧
      Sink.applyAll more first = Progress.shownOf mode w (d.actions.take n) ∧
      (Sink.applyAll calls first).Forward (Sink.applyAll more first)
        (Action.grows ((d.actions.take n).drop m))
  /-- The reset is the first call and no other one. -/
  reset : ∀ r ∈ written,
    (r.course.run.executed = 0 → r.course.shown.calls = []) ∧
    (r.course.run.executed ≠ 0 →
      ∃ calls, r.course.shown.calls = .reset :: calls ∧ Change.reset ∉ calls)

theorem movesForward_follow {d : Document} {mode : StorageMode} {run : Run}
    (hstart : Run.start d mode = .ok run) (w : World η κ γ) (first : Presentation)
    (orders : List Order) :
    MovesForward d mode w first ((⟨run, w, first⟩ : Course η κ γ Presentation).follow orders)
      ((⟨run, w, ⟨[]⟩⟩ : Course η κ γ Recorder).follow orders) := by
  obtain ⟨hne, rfl⟩ := Run.start_eq_ok_iff.mp hstart
  have hseen : ∀ s ∈ (⟨⟨d.actions, mode, .idle, 0, []⟩, w, first⟩ :
      Course η κ γ Presentation).follow orders, s.course.shown =
        if s.course.run.executed = 0 then first
        else Progress.shownOf mode w (d.actions.take s.course.run.executed) := by
    intro s hs
    have horigin : Standing d.actions mode w first _ := .stepped 0
    refine ((horigin.follow hne orders s hs).shown_eq hne).trans ?_
    split <;> rfl
  have hwritten : ∀ r ∈ (⟨⟨d.actions, mode, .idle, 0, []⟩, w, ⟨[]⟩⟩ :
      Course η κ γ Recorder).follow orders, r.course.shown.calls =
        if r.course.run.executed = 0 then []
        else .reset :: (Progress.of mode w (d.actions.take r.course.run.executed)).changes := by
    intro r hr
    have horigin : Standing d.actions mode w (⟨[]⟩ : Recorder) _ := .stepped 0
    rw [(horigin.follow hne orders r hr).shown_eq hne, Recorder.applyAll_eq]
    rfl
  refine ⟨hseen, ?_, ?_, ?_, ?_⟩
  · refine (pairwise_executed_follow orders _).imp_of_mem fun hs ht hle hsome => ⟨hle, ?_⟩
    rw [hseen _ hs, hseen _ ht, if_neg hsome, if_neg (by omega)]
    exact Progress.forward_take mode w d.actions hle
  · have hrelated : (⟨⟨d.actions, mode, .idle, 0, []⟩, w, ⟨[]⟩⟩ : Course η κ γ Recorder).Related
        (fun r s => s = Sink.applyAll r.calls first) ⟨_, w, first⟩ := ⟨rfl, rfl, rfl⟩
    refine (hrelated.follow (Recorder.keeps first) orders).flip.imp ?_
    rintro s r ⟨-, hboth⟩
    exact ⟨hboth.run.symm, hboth.shown⟩
  · intro r hr calls more hcalls hmore hsome
    rw [hwritten r hr] at hmore
    split at hmore
    · exact absurd (List.prefix_nil.mp (hcalls.trans hmore)) hsome
    · obtain ⟨later, rfl, hlater⟩ := (List.prefix_cons_iff.mp hmore).resolve_left
        fun hnil => hsome (List.prefix_nil.mp (hnil ▸ hcalls))
      obtain ⟨earlier, rfl, hearlier⟩ := (List.prefix_cons_iff.mp hcalls).resolve_left hsome
      -- The later cut is after a number of actions, and the earlier one is a cut of theirs.
      obtain ⟨n, hn, rfl⟩ := Progress.changes_of_prefix mode w _ _ hlater
      obtain ⟨m, hm, rfl⟩ := Progress.changes_of_prefix mode w _ _ hearlier
      rw [List.length_take] at hn hm
      have hmn : m ≤ n := Nat.le_trans hm (Nat.min_le_left _ _)
      have hle : n ≤ r.course.run.executed := Nat.le_trans hn (Nat.min_le_left _ _)
      simp only [List.take_take, Nat.min_eq_left hmn, Nat.min_eq_left hle]
      exact ⟨m, n, hmn, hle, rfl, rfl, Progress.forward_take mode w d.actions hmn⟩
  · intro r hr
    rw [hwritten r hr]
    refine ⟨fun hnone => if_pos hnone, fun hsome => ⟨_, if_neg hsome, ?_⟩⟩
    exact Progress.not_mem_changes_of mode w _

/-- A run that is cancelled before its first step touches nothing, whatever it is told then. -/
theorem untouched_of_cancel (run : Run) (w : World η κ γ) (first : σ) (more : List Order)
    (hidle : run.phase = .idle) :
    ∀ s ∈ (⟨run, w, first⟩ : Course η κ γ σ).follow (.cancel :: more),
      s.course.run.executed = run.executed ∧ s.course.world = w ∧ s.course.shown = first := by
  have hcancel : run.cancel = { run with phase := .cancelled } :=
    if_neg (by rw [hidle]; decide)
  intro s hs
  rcases List.mem_cons.mp hs with rfl | hs
  · refine ⟨?_, rfl, rfl⟩
    show run.cancel.executed = _
    rw [hcancel]
  · rw [follow_of_isFinished (by show run.cancel.phase.isFinished = true; rw [hcancel]; rfl)] at hs
    obtain ⟨order, -, rfl⟩ := List.mem_map.mp hs
    refine ⟨?_, rfl, rfl⟩
    show run.cancel.executed = _
    rw [hcancel]

/-- **What is seen of a run only moves forward**, under any orders and whoever works with it. Each
of its steps calls for one change at most, apart from the reset, which is called for once, before
the first action, or never if the run was cancelled before it. -/
theorem follow_moves_forward {d : Document} (hd : d.isRunnable = true) (mode : StorageMode)
    (w : World η κ γ) (first : Presentation) (orders : List Order) :
    ∃ run, Run.start d mode = .ok run ∧
      let seen := (⟨run, w, first⟩ : Course η κ γ Presentation).follow orders
      let written := (⟨run, w, ⟨[]⟩⟩ : Course η κ γ Recorder).follow orders
      MovesForward d mode w first seen written ∧
      (∀ (r : Run) (v : World η κ γ), ∃ change : Option Change, change ≠ some .reset ∧
        ((r.step v).changes = change.toList ∨
          r.phase = .idle ∧ (r.step v).changes = .reset :: change.toList)) ∧
      (orders.head? = some .cancel →
        (∀ s ∈ seen, s.course.run.executed = 0 ∧ s.course.shown = first) ∧
        ∀ r ∈ written, r.course.shown.calls = []) := by
  have hstart := Run.start_of_isRunnable hd mode
  refine ⟨_, hstart, movesForward_follow hstart w first orders, Run.changes_step, fun hcancel => ?_⟩
  obtain ⟨more, rfl⟩ := List.head?_eq_some_iff.mp hcancel
  refine ⟨fun s hs => ?_, fun r hr => ?_⟩
  · obtain ⟨hexecuted, -, hshown⟩ := untouched_of_cancel _ w first more rfl s hs
    exact ⟨hexecuted, hshown⟩
  · obtain ⟨-, -, hshown⟩ := untouched_of_cancel _ w (⟨[]⟩ : Recorder) more rfl r hr
    rw [hshown]

def growingTwice : Document :=
  ⟨"Go",
    [⟨"1", "grow-trigger", "", none⟩, ⟨"2", "alert", "", none⟩, ⟨"3", "disableButton", "", none⟩,
      ⟨"4", "grow-trigger", "", none⟩, ⟨"5", "showText", "", some "never"⟩]⟩

/-- What was shown before the run goes with its first step and nothing after that: a trigger that
was disabled before is enabled, and the cancelled run stays where it is. -/
theorem follow_growingTwice :
    let w : World ScriptedHost RefusingStore Palette :=
      ⟨.withAnswers [], ⟨.empty, "", false, false⟩, .ofList []⟩
    let run : Run := ⟨growingTwice.actions, .lenient, .idle, 0, []⟩
    let before : Presentation := ⟨[.text "old"], 7.0, "red", false⟩
    let orders : List Order := [.step, .step, .step, .step, .cancel, .step]
    let seen := (⟨run, w, before⟩ : Course _ _ _ Presentation).follow orders
    let written := (⟨run, w, ⟨[]⟩⟩ : Course _ _ _ Recorder).follow orders
    growingTwice.isRunnable = true ∧ MovesForward growingTwice .lenient w before seen written ∧
      seen.map (fun s => (s.course.run.executed, s.course.shown.enabled)) =
        [(1, true), (2, true), (3, false), (4, false), (4, false), (4, false)] ∧
      (written.map (·.course.shown.calls)).getLast? =
        some [.reset, .grow 0.2, .disable, .grow 0.2] := by
  intro w run before orders seen written
  have hd : growingTwice.isRunnable = true := by decide
  obtain ⟨r, hstart, hforward, -, -⟩ := follow_moves_forward hd .lenient w before orders
  obtain rfl : run = r := Except.ok.inj ((Run.start_of_isRunnable hd .lenient).symm.trans hstart)
  exact ⟨hd, hforward, by decide +kernel, by rfl⟩

end Course
end Runs
end TriggerFlow
