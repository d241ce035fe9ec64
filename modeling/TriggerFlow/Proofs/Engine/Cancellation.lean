import TriggerFlow.Proofs.Engine.Refusals
import TriggerFlow.Proofs.Run.Steps

/-!
# Whenever the caller cancels

An engine asks twice whether the caller of a run has cancelled, before each action and in each
pause, and if a pause is over by itself as well, either may come first. **None of this can be told
from outside**: the run ends as one that is stepped by hand as often as actions had begun when the
caller cancelled, and is then cancelled. It is told as cancelled exactly if there were more of them
to do, so whoever cancels during the last one, or in the pause after it, is too late.

An action is one event here, begun by a call or by the end of a pause. To cancel while it is being
done is to cancel right after that event: the engine does not ask in between.
-/

set_option autoImplicit false

namespace TriggerFlow

variable {η κ γ σ : Type}

namespace Run

/-- A run that is cancelled is told of as one that is left where it is. -/
theorem outcome_cancel (r : Run) (pauses : Nat) : r.cancel.outcome pauses = r.outcome pauses := by
  unfold outcome status cancel
  cases hp : r.phase <;> simp [hp, Phase.isFinished]

theorem step_cancel [Host η] [KeyValueStore κ] [ColorSource γ] (r : Run) (w : World η κ γ) :
    r.cancel.step w = ⟨.finished, r.cancel, w, []⟩ := by
  unfold step
  rw [next?_cancel]

end Run

def Status.isTerminated : Status → Bool
  | .terminated _ => true
  | .completed | .cancelled => false

namespace Event

/-- This caller cancels. -/
def isFireOf (caller : Nat) : Event → Bool
  | .fire who => who = caller
  | .call _ _ _ | .pauseEnd | .notice | .drop _ => false

/-- The pause is over by itself. -/
def isPauseEnd : Event → Bool
  | .pauseEnd => true
  | .call _ _ _ | .fire _ | .notice | .drop _ => false

/-- The pause ends, one way or the other. -/
def wakes : Event → Bool
  | .pauseEnd | .notice => true
  | .call _ _ _ | .fire _ | .drop _ => false

/-- Something that happens while a run is in a pause: the pause ends or somebody cancels. -/
def isOfPause : Event → Bool
  | .pauseEnd | .fire _ | .notice => true
  | .call _ _ _ | .drop _ => false

end Event

/-- How many of a run's actions have begun when its caller cancels, if so many had begun before the
events: one more at each end of a pause, as long as there are any. -/
def begunAtFire (caller length before : Nat) (events : List Event) : Nat :=
  if events.any (·.isFireOf caller) then
    min length (before + (events.takeWhile (!·.isFireOf caller)).countP (·.isPauseEnd))
  else length

/-- The run may still be in a pause: not all pauses are over by themselves, and none has ended since
its caller cancelled. -/
def MayPause (caller length before : Nat) (events : List Event) : Prop :=
  before + events.countP (·.isPauseEnd) ≤ length ∧
    (events.dropWhile (!·.isFireOf caller)).any (·.wakes) = false

theorem begunAtFire_pauseEnd (caller length before : Nat) (events : List Event) :
    begunAtFire caller length before (.pauseEnd :: events) =
      begunAtFire caller length (before + 1) events := by
  unfold begunAtFire
  rw [List.any_cons, List.takeWhile_cons_of_pos (by rfl), List.countP_cons_of_pos (by rfl),
    Nat.add_comm _ 1, ← Nat.add_assoc]
  rfl

/-- What neither ends a pause by itself nor is the caller's doing begins nothing. -/
theorem begunAtFire_cons {caller : Nat} {event : Event} (hfire : event.isFireOf caller = false)
    (hend : event.isPauseEnd = false) (length before : Nat) (events : List Event) :
    begunAtFire caller length before (event :: events) =
      begunAtFire caller length before events := by
  simp [begunAtFire, hfire, hend]

theorem begunAtFire_fire {length before : Nat} (h : before ≤ length) (caller : Nat)
    (events : List Event) :
    begunAtFire caller length before (.fire caller :: events) = before := by
  simp [begunAtFire, Event.isFireOf, h]

theorem begunAtFire_of_le {length before : Nat} (h : length ≤ before) (caller : Nat)
    (events : List Event) : begunAtFire caller length before events = length := by
  unfold begunAtFire
  split
  · exact Nat.min_eq_left (Nat.le_trans h (Nat.le_add_right _ _))
  · rfl

theorem MayPause.pauseEnd {caller length before : Nat} {events : List Event}
    (h : MayPause caller length (before + 1) events) :
    MayPause caller length before (.pauseEnd :: events) := by
  obtain ⟨hcount, hwoken⟩ := h
  refine ⟨?_, by simpa [Event.isFireOf] using hwoken⟩
  rw [List.countP_cons_of_pos (by rfl)]
  omega

theorem MayPause.cons {caller length before : Nat} {event : Event} {events : List Event}
    (hfire : event.isFireOf caller = false) (hend : event.isPauseEnd = false)
    (h : MayPause caller length before events) :
    MayPause caller length before (event :: events) := by
  obtain ⟨hcount, hwoken⟩ := h
  refine ⟨?_, by simpa [hfire] using hwoken⟩
  rw [List.countP_cons_of_neg (by simp [hend])]
  exact hcount

theorem MayPause.fire {caller length before : Nat} {events : List Event} (hle : before ≤ length)
    (h : events.any (·.wakes) = false) :
    MayPause caller length before (.fire caller :: events) := by
  have hnone : events.countP (·.isPauseEnd) = 0 := by
    refine List.countP_eq_zero.mpr fun event hevent hend => ?_
    have hwakes := List.any_eq_false.mp h event hevent
    cases event <;> simp [Event.isPauseEnd, Event.wakes] at hend hwakes
  refine ⟨?_, ?_⟩
  · rw [List.countP_cons_of_neg (by simp [Event.isPauseEnd]), hnone]
    exact hle
  · rw [List.dropWhile_cons_of_neg (by simp [Event.isFireOf]), List.any_cons, h]
    rfl

theorem begunAtFire_le (caller length before : Nat) (events : List Event) :
    begunAtFire caller length before events ≤ length := by
  unfold begunAtFire
  split
  · exact Nat.min_le_left ..
  · exact Nat.le_refl _

/-- A call that an engine admits, and what it finds. -/
structure Job (η κ γ σ : Type) where
  caller : Nat
  cell : Nat
  document : Document
  mode : StorageMode
  run : Run
  starts : Run.start document mode = .ok run
  world : World η κ γ
  cells : List σ
  /-- What the cell shows at first. -/
  shown : σ
  isShown : cells[cell]? = some shown

namespace Job

def length (j : Job η κ γ σ) : Nat :=
  (Action.upToEnd j.document.actions).length

theorem actions_ne_nil (j : Job η κ γ σ) : j.document.actions ≠ [] :=
  (Run.start_eq_ok_iff.mp j.starts).1

theorem length_pos (j : Job η κ γ σ) : 0 < j.length :=
  Action.length_upToEnd_pos j.actions_ne_nil

variable [Host η] [KeyValueStore κ] [ColorSource γ] [Sink σ]

/-- The course of its run when some of its actions have been done. -/
def courseAt (j : Job η κ γ σ) (n : Nat) : Course η κ γ σ :=
  Course.reached j.document.actions j.mode j.world j.shown n

/-- The course of its run, stepped by hand so many times and then cancelled. -/
def byHand (j : Job η κ γ σ) (n : Nat) : Course η κ γ σ :=
  (((⟨j.run, j.world, j.shown⟩ : Course η κ γ σ).after n).obey .cancel).course

theorem byHand_eq (j : Job η κ γ σ) (n : Nat) :
    j.byHand n = { j.courseAt n with run := (j.courseAt n).run.cancel } := by
  unfold byHand courseAt
  rw [Course.after_eq j.starts]
  rfl

theorem courseAt_zero (j : Job η κ γ σ) : j.courseAt 0 = ⟨j.run, j.world, j.shown⟩ :=
  (Course.after_eq j.starts j.world j.shown 0).symm

theorem courseAt_of_le (j : Job η κ γ σ) {n : Nat} (h : j.length ≤ n) :
    j.courseAt n = j.courseAt j.length :=
  Course.reached_of_le j.actions_ne_nil h ..

theorem obey_courseAt (j : Job η κ γ σ) (n : Nat) :
    (j.courseAt n).obey .step = ⟨some (Course.report j.document.actions n), j.courseAt (n + 1)⟩ :=
  Course.obey_step_reached j.actions_ne_nil ..

theorem executed_courseAt (j : Job η κ γ σ) {n : Nat} (h : n ≤ j.length) :
    (j.courseAt n).run.executed = n :=
  (Progress.executed_upTo ..).trans (Nat.min_eq_left h)

theorem status_courseAt (j : Job η κ γ σ) (n : Nat) :
    (j.courseAt n).run.status =
      if n < j.length then .cancelled
      else ((Action.upToEnd j.document.actions).getLast?.bind Action.ending?).elim
        .completed .terminated :=
  Run.status_reached j.actions_ne_nil ..

theorem status_courseAt_eq_cancelled_iff (j : Job η κ γ σ) (n : Nat) :
    (j.courseAt n).run.status = .cancelled ↔ n < j.length := by
  rw [status_courseAt]
  split
  · simp [*]
  · cases (Action.upToEnd j.document.actions).getLast?.bind Action.ending? <;> simp [*]

/-- **After a step before a pause** no action has ended the run. -/
theorem isTerminated_of_paced (j : Job η κ γ σ) {n : Nat} (hn : n < j.length)
    (h : Course.report j.document.actions n = .paced) :
    (j.courseAt (n + 1)).run.status.isTerminated = false := by
  rw [status_courseAt]
  by_cases hlt : n + 1 < j.length
  · rw [if_pos hlt]
    rfl
  · rw [if_neg hlt]
    have hlast := Course.report_of_succ_eq (show n + 1 = j.length by omega)
    cases he : (Action.upToEnd j.document.actions).getLast?.bind Action.ending? with
    | none => rfl
    | some ending =>
      rw [h, he] at hlast
      exact absurd hlast (by simp)

theorem isTerminated_of_terminal (j : Job η κ γ σ) {n : Nat} (hn : n < j.length)
    (h : Course.report j.document.actions n ≠ .paced) :
    n + 1 = j.length ∧ (j.courseAt (n + 1)).run.status.isTerminated = true := by
  by_cases hlt : n + 1 < j.length
  · exact absurd (Course.report_of_succ_lt hlt) h
  · have hend : n + 1 = j.length := by omega
    refine ⟨hend, ?_⟩
    rw [status_courseAt, if_neg hlt]
    have hlast := Course.report_of_succ_eq hend
    cases he : (Action.upToEnd j.document.actions).getLast?.bind Action.ending? with
    | none =>
      rw [he] at hlast
      exact absurd hlast h
    | some ending => rfl

end Job

/-! ## A run in flight -/

namespace Engine

variable [Host η] [KeyValueStore κ] [ColorSource γ] [Sink σ]

/-- The world and the cells are as a course of the run of a job has left them. -/
structure Shows (e : Engine η κ γ σ) (j : Job η κ γ σ) (c : Course η κ γ σ) : Prop where
  world : e.world = c.world
  cells : e.cells = j.cells.set j.cell c.shown

/-- The run of a job is in the pause after some of its actions. -/
structure PausesAfter (e : Engine η κ γ σ) (j : Job η κ γ σ) (n : Nat) : Prop where
  flight : e.flight = some ⟨j.caller, j.cell, (j.courseAt n).run, n⟩
  shows : e.Shows j (j.courseAt n)
  inBounds : n ≤ j.length
  goesOn : (j.courseAt n).run.status.isTerminated = false

/-- **A run that goes on** takes a step of its course. -/
theorem proceed_of_shows {e : Engine η κ γ σ} {j : Job η κ γ σ} {c : Course η κ γ σ} {f : Flight}
    (h : e.Shows j c) (hcell : f.cell = j.cell) (hrun : f.run = c.run)
    (hfired : f.caller ∉ e.fired) :
    (e.proceed f).2.Shows j (c.obey .step).course ∧
      ((c.obey .step).result = some .paced →
        (e.proceed f).1 = none ∧ (e.proceed f).2.flight =
          some { f with run := (c.obey .step).course.run, pauses := f.pauses + 1 }) ∧
      ((c.obey .step).result ≠ some .paced →
        (e.proceed f).1 = some (f.caller, .ended ((c.obey .step).course.run.outcome f.pauses)) ∧
          (e.proceed f).2.flight = none) := by
  have hcells : e.cells.modify f.cell (Sink.applyAll (c.run.step c.world).changes) =
      j.cells.set j.cell (Sink.applyAll (c.run.step c.world).changes c.shown) := by
    rw [h.cells, hcell]
    refine List.ext_getElem? fun k => ?_
    rw [List.getElem?_modify, List.getElem?_set, List.getElem?_set]
    split <;> simp [*]
  unfold proceed
  rw [if_neg hfired]
  dsimp only [Course.obey]
  rw [hrun, h.world, hcells]
  cases (c.run.step c.world).result with
  | paced => exact ⟨⟨rfl, rfl⟩, by simp⟩
  | terminal ending => exact ⟨⟨rfl, rfl⟩, by simp⟩
  | finished => exact ⟨⟨rfl, rfl⟩, by simp⟩

/-- A run whose caller has cancelled ends where it is. -/
theorem proceed_of_fired {e : Engine η κ γ σ} {f : Flight} (hfired : f.caller ∈ e.fired) :
    e.proceed f =
      (some (f.caller, .ended (f.run.outcome f.pauses)), { e with flight := none }) := by
  have hcells : e.cells.modify f.cell (Sink.applyAll []) = e.cells := List.modify_id ..
  unfold proceed
  rw [if_pos hfired]
  simp only [Run.step_cancel, Run.outcome_cancel, hcells]

theorem proceed_cancel_of_fired {e : Engine η κ γ σ} {f : Flight} (hfired : f.caller ∈ e.fired) :
    e.proceed { f with run := f.run.cancel } = e.proceed f := by
  rw [proceed_of_fired hfired, proceed_of_fired (f := { f with run := f.run.cancel }) hfired]
  simp only [Run.outcome_cancel]

/-! ## Histories of one call -/

def answers (history : List (Event × Option (Nat × Answer))) : List (Nat × Answer) :=
  history.filterMap (·.2)

theorem answers_handleAll_cons (e : Engine η κ γ σ) (event : Event) (events : List Event) :
    answers (e.handleAll (event :: events)).1 =
      (e.handle event).1.toList ++ answers ((e.handle event).2.handleAll events).1 := by
  show List.filterMap _ ((event, (e.handle event).1) :: _) = _
  rw [List.filterMap_cons]
  cases (e.handle event).1 <;> rfl

/-- How the call of a job has ended when so many of its actions had begun: as it is told, and with
everything as the course has left it. -/
structure EndsAt (e : Engine η κ γ σ) (j : Job η κ γ σ) (begun : Nat) (events : List Event) :
    Prop where
  answers : answers (e.handleAll events).1 =
    [(j.caller, .ended ((j.courseAt begun).run.outcome
      (if (j.courseAt begun).run.status.isTerminated then begun - 1 else begun)))]
  flight : (e.handleAll events).2.flight = none
  shows : (e.handleAll events).2.Shows j (j.courseAt begun)

structure StillPauses (e : Engine η κ γ σ) (events : List Event) : Prop where
  answers : answers (e.handleAll events).1 = []
  flight : (e.handleAll events).2.flight ≠ none

/-- What happens in pauses means nothing to an engine that has nothing in flight. -/
theorem handleAll_of_free {e : Engine η κ γ σ} (free : e.flight = none) {events : List Event}
    (h : ∀ event ∈ events, event.isOfPause = true) :
    answers (e.handleAll events).1 = [] ∧ (e.handleAll events).2.flight = none ∧
      (e.handleAll events).2.world = e.world ∧ (e.handleAll events).2.cells = e.cells := by
  induction events generalizing e with
  | nil => exact ⟨rfl, free, rfl, rfl⟩
  | cons event events ih =>
    obtain ⟨hevent, hevents⟩ := List.forall_mem_cons.mp h
    have hstep : (e.handle event).1 = none ∧ (e.handle event).2.flight = none ∧
        (e.handle event).2.world = e.world ∧ (e.handle event).2.cells = e.cells := by
      cases event with
      | call _ _ _ | drop _ => exact absurd hevent (by simp [Event.isOfPause])
      | fire _ => exact ⟨rfl, free, rfl, rfl⟩
      | pauseEnd | notice =>
        dsimp only [handle]
        rw [free]
        exact ⟨rfl, free, rfl, rfl⟩
    obtain ⟨hanswer, hflight, hworld, hcells⟩ := hstep
    obtain ⟨hanswers, hfree, hworld', hcells'⟩ := ih hflight hevents
    refine ⟨?_, hfree, hworld'.trans hworld, hcells'.trans hcells⟩
    rw [answers_handleAll_cons, hanswer, hanswers]
    rfl

/-- A call that ends at once has ended, whatever comes after it. -/
theorem EndsAt.of_handle {e : Engine η κ γ σ} {j : Job η κ γ σ} {n : Nat} {event : Event}
    {events : List Event} (h : ∀ event ∈ events, event.isOfPause = true)
    (hanswer : (e.handle event).1 = some (j.caller, .ended ((j.courseAt n).run.outcome
      (if (j.courseAt n).run.status.isTerminated then n - 1 else n))))
    (hflight : (e.handle event).2.flight = none)
    (hshows : (e.handle event).2.Shows j (j.courseAt n)) :
    e.EndsAt j n (event :: events) := by
  obtain ⟨hanswers, hfree, hworld, hcells⟩ := handleAll_of_free hflight h
  refine ⟨?_, hfree, hworld.trans hshows.world, hcells.trans hshows.cells⟩
  rw [answers_handleAll_cons, hanswer, hanswers]
  rfl

theorem EndsAt.of_silent {e : Engine η κ γ σ} {j : Job η κ γ σ} {n : Nat} {event : Event}
    {events : List Event} (hanswer : (e.handle event).1 = none)
    (h : (e.handle event).2.EndsAt j n events) : e.EndsAt j n (event :: events) := by
  refine ⟨?_, h.flight, h.shows⟩
  rw [answers_handleAll_cons, hanswer, h.answers]
  rfl

theorem StillPauses.of_silent {e : Engine η κ γ σ} {event : Event} {events : List Event}
    (hanswer : (e.handle event).1 = none) (h : (e.handle event).2.StillPauses events) :
    e.StillPauses (event :: events) := by
  refine ⟨?_, h.flight⟩
  rw [answers_handleAll_cons, hanswer, h.answers]
  rfl

theorem PausesAfter.isFired {e : Engine η κ γ σ} {j : Job η κ γ σ} {n : Nat}
    (h : e.PausesAfter j n) (who : Nat) : (e.handle (.fire who)).2.PausesAfter j n :=
  ⟨h.flight, ⟨h.shows.world, h.shows.cells⟩, h.inBounds, h.goesOn⟩

/-- **Once its caller has cancelled**, a run ends where it is as soon as its pause ends, whichever
way that is. -/
theorem handleAll_of_fired {e : Engine η κ γ σ} {j : Job η κ γ σ} {n : Nat}
    (h : e.PausesAfter j n) (hfired : j.caller ∈ e.fired) {events : List Event}
    (hevents : ∀ event ∈ events, event.isOfPause = true) :
    (e.StillPauses events ∧ events.any (·.wakes) = false) ∨ e.EndsAt j n events := by
  induction events generalizing e with
  | nil => exact .inl ⟨⟨rfl, by rw [handleAll, h.flight]; simp⟩, rfl⟩
  | cons event events ih =>
    obtain ⟨hevent, hlater⟩ := List.forall_mem_cons.mp hevents
    have hends : e.handle .pauseEnd = (some (j.caller, .ended ((j.courseAt n).run.outcome n)),
        { e with flight := none }) := by
      dsimp only [handle]
      rw [h.flight]
      exact proceed_of_fired hfired
    have hnotices : e.handle .notice = e.handle .pauseEnd := by
      dsimp only [handle]
      rw [h.flight]
      dsimp only
      rw [if_pos hfired]
      exact proceed_cancel_of_fired (f := ⟨j.caller, j.cell, (j.courseAt n).run, n⟩) hfired
    -- Who asks first does not matter: the run would be cancelled before its next action anyway.
    have hwoken : ∀ event, e.handle event = e.handle .pauseEnd →
        e.EndsAt j n (event :: events) := by
      intro event heq
      refine .of_handle hlater ?_ ?_ ?_
      · rw [heq, hends, h.goesOn]
        rfl
      · rw [heq, hends]
      · rw [heq, hends]
        exact ⟨h.shows.world, h.shows.cells⟩
    cases event with
    | call _ _ _ | drop _ => exact absurd hevent (by simp [Event.isOfPause])
    | fire who =>
      rcases ih (h.isFired who) (List.mem_cons_of_mem who hfired) hlater with
        ⟨hpauses, hnone⟩ | hended
      · exact .inl ⟨.of_silent rfl hpauses, hnone⟩
      · exact .inr (.of_silent rfl hended)
    | pauseEnd => exact .inr (hwoken .pauseEnd rfl)
    | notice => exact .inr (hwoken .notice hnotices)

/-- **A run whose caller has not cancelled** does its next action and pauses again, or has ended
with everything done that it gets to. -/
theorem proceed_of_unfired {e : Engine η κ γ σ} {j : Job η κ γ σ} {n : Nat}
    (hshows : e.Shows j (j.courseAt n)) (hn : n ≤ j.length)
    (hgoesOn : (j.courseAt n).run.status.isTerminated = false) (hfired : j.caller ∉ e.fired) :
    let r := e.proceed ⟨j.caller, j.cell, (j.courseAt n).run, n⟩
    (r.1 = none ∧ r.2.PausesAfter j (n + 1)) ∨
      (j.length ≤ n + 1 ∧ r.1 = some (j.caller, .ended ((j.courseAt j.length).run.outcome
          (if (j.courseAt j.length).run.status.isTerminated then j.length - 1 else j.length))) ∧
        r.2.flight = none ∧ r.2.Shows j (j.courseAt j.length)) := by
  intro r
  have hproceed := proceed_of_shows (f := ⟨j.caller, j.cell, (j.courseAt n).run, n⟩) hshows rfl rfl
    hfired
  rw [j.obey_courseAt] at hproceed
  obtain ⟨hafter, hpaced, hover⟩ := hproceed
  by_cases hreport : Course.report j.document.actions n = .paced
  · obtain ⟨hanswer, hflight⟩ := hpaced (congrArg some hreport)
    have hlt : n < j.length := by
      refine Nat.lt_of_not_le fun hle => ?_
      rw [Course.report_of_le hle] at hreport
      exact absurd hreport (by simp)
    exact .inl ⟨hanswer, hflight, hafter, hlt, j.isTerminated_of_paced hlt hreport⟩
  · obtain ⟨hanswer, hflight⟩ := hover fun h => hreport (Option.some.inj h)
    right
    rcases Nat.lt_or_eq_of_le hn with hlt | heq
    · -- An action has ended the run, and no pause was made after it.
      obtain ⟨hend, hterminated⟩ := j.isTerminated_of_terminal hlt hreport
      rw [← hend, hterminated]
      exact ⟨Nat.le_refl _, hanswer, hflight, hafter⟩
    · -- The pause after the last action is over.
      have hlast : j.courseAt (n + 1) = j.courseAt j.length := j.courseAt_of_le (by omega)
      rw [heq] at hgoesOn
      rw [hlast, heq] at hanswer
      rw [hlast] at hafter
      rw [hgoesOn]
      exact ⟨by omega, heq ▸ hanswer, hflight, hafter⟩

/-- **As long as its caller has not cancelled**, each pause that is over by itself lets a run begin
its next action. -/
theorem handleAll_of_unfired {e : Engine η κ γ σ} {j : Job η κ γ σ} {n : Nat}
    (h : e.PausesAfter j n) (hfired : j.caller ∉ e.fired) {events : List Event}
    (hevents : ∀ event ∈ events, event.isOfPause = true) :
    (e.StillPauses events ∧ MayPause j.caller j.length n events) ∨
      e.EndsAt j (begunAtFire j.caller j.length n events) events := by
  induction events generalizing e n with
  | nil => exact .inl ⟨⟨rfl, by rw [handleAll, h.flight]; simp⟩, h.inBounds, rfl⟩
  | cons event events ih =>
    obtain ⟨hevent, hlater⟩ := List.forall_mem_cons.mp hevents
    cases event with
    | call _ _ _ | drop _ => exact absurd hevent (by simp [Event.isOfPause])
    | fire who =>
      by_cases hwho : who = j.caller
      · subst hwho
        rw [begunAtFire_fire h.inBounds]
        rcases handleAll_of_fired (h.isFired j.caller) List.mem_cons_self hlater with
          ⟨hpauses, hnone⟩ | hended
        · exact .inl ⟨.of_silent rfl hpauses, .fire h.inBounds hnone⟩
        · exact .inr (.of_silent rfl hended)
      · have hother : (Event.fire who).isFireOf j.caller = false := by simp [Event.isFireOf, hwho]
        have hstill : j.caller ∉ (e.handle (.fire who)).2.fired := by
          show j.caller ∉ who :: e.fired
          simp [hfired, Ne.symm hwho]
        rw [begunAtFire_cons hother rfl]
        rcases ih (h.isFired who) hstill hlater with ⟨hpauses, hmay⟩ | hended
        · exact .inl ⟨.of_silent rfl hpauses, hmay.cons hother rfl⟩
        · exact .inr (.of_silent rfl hended)
    | notice =>
      -- There is nothing to notice yet.
      have hidle : e.handle .notice = (none, e) :=
        handle_notice_of_unfired fun f hf => by
          rw [h.flight, Option.some.injEq] at hf
          rw [← hf]
          exact hfired
      have hanswer : (e.handle .notice).1 = none := congrArg Prod.fst hidle
      have hsame : (e.handle .notice).2 = e := congrArg Prod.snd hidle
      rw [begunAtFire_cons rfl rfl]
      rcases ih h hfired hlater with ⟨hpauses, hmay⟩ | hended
      · exact .inl ⟨.of_silent hanswer (hsame.symm ▸ hpauses), hmay.cons rfl rfl⟩
      · exact .inr (.of_silent hanswer (hsame.symm ▸ hended))
    | pauseEnd =>
      have hproceeds : e.handle .pauseEnd =
          e.proceed ⟨j.caller, j.cell, (j.courseAt n).run, n⟩ := by
        dsimp only [handle]
        rw [h.flight]
      have hstill : j.caller ∉ (e.handle .pauseEnd).2.fired := by
        rw [hproceeds, fired_proceed]
        exact hfired
      have hnext := proceed_of_unfired h.shows h.inBounds h.goesOn hfired
      dsimp only at hnext
      rw [← hproceeds] at hnext
      rw [begunAtFire_pauseEnd]
      rcases hnext with ⟨hanswer, hpauses⟩ | ⟨hle, hanswer, hflight, hshows⟩
      · rcases ih hpauses hstill hlater with ⟨hpauses, hmay⟩ | hended
        · exact .inl ⟨.of_silent hanswer hpauses, hmay.pauseEnd⟩
        · exact .inr (.of_silent hanswer hended)
      · rw [begunAtFire_of_le hle]
        exact .inr (.of_handle hlater hanswer hflight hshows)

/-! ## A call from beginning to end -/

theorem handle_call {e : Engine η κ γ σ} (free : e.flight = none) {d : Document} {run : Run}
    (starts : Run.start d e.settings.mode = .ok run) (caller cell : Nat) :
    e.handle (.call caller (some d) cell) = e.proceed ⟨caller, cell, run, 0⟩ := by
  dsimp only [handle, call, Option.getD_some]
  rw [starts]
  dsimp only
  rw [if_neg (by simp [isRunning_of_free free])]

theorem handleAll_call {e : Engine η κ γ σ} {j : Job η κ γ σ} (free : e.flight = none)
    (mode : e.settings.mode = j.mode) (world : e.world = j.world) (cells : e.cells = j.cells)
    {events : List Event} (hevents : ∀ event ∈ events, event.isOfPause = true) :
    (e.StillPauses (.call j.caller (some j.document) j.cell :: events) ∧ j.caller ∉ e.fired ∧
        MayPause j.caller j.length 1 events) ∨
      e.EndsAt j (if j.caller ∈ e.fired then 0 else begunAtFire j.caller j.length 1 events)
        (.call j.caller (some j.document) j.cell :: events) := by
  have hhandle := handle_call free (mode ▸ j.starts) j.caller j.cell
  have hrun : (j.courseAt 0).run = j.run := congrArg Course.run j.courseAt_zero
  have hstatus : (j.courseAt 0).run.status.isTerminated = false := by
    rw [(j.status_courseAt_eq_cancelled_iff 0).mpr j.length_pos]
    rfl
  have hshows : e.Shows j (j.courseAt 0) := by
    obtain ⟨hlt, hshown⟩ := List.getElem?_eq_some_iff.mp j.isShown
    rw [j.courseAt_zero]
    refine ⟨world, ?_⟩
    show e.cells = j.cells.set j.cell j.shown
    rw [cells, ← hshown, List.set_getElem_self]
  rw [← hrun] at hhandle
  by_cases hfired : j.caller ∈ e.fired
  · rw [if_pos hfired]
    rw [proceed_of_fired hfired] at hhandle
    refine .inr (.of_handle hevents ?_ ?_ ?_)
    · rw [hhandle, hstatus]
      rfl
    · rw [hhandle]
    · rw [hhandle]
      exact ⟨hshows.world, hshows.cells⟩
  · rw [if_neg hfired]
    have hnext := proceed_of_unfired hshows (Nat.zero_le _) hstatus hfired
    have hstill : j.caller ∉ (e.handle (.call j.caller (some j.document) j.cell)).2.fired := by
      rw [hhandle, fired_proceed]
      exact hfired
    dsimp only at hnext
    rw [← hhandle] at hnext
    rcases hnext with ⟨hanswer, hpauses⟩ | ⟨hle, hanswer, hflight, hshows'⟩
    · rcases handleAll_of_unfired hpauses hstill hevents with ⟨hpauses, hmay⟩ | hended
      · exact .inl ⟨.of_silent hanswer hpauses, hfired, hmay⟩
      · exact .inr (.of_silent hanswer hended)
    · rw [begunAtFire_of_le hle]
      exact .inr (.of_handle hevents hanswer hflight hshows')

/-- **A run that an engine drives ends as one that is stepped by hand** as often as actions had
begun when its caller cancelled, and is then cancelled. It ends as soon as all its pauses are over
by themselves, or one has ended since its caller cancelled. -/
theorem drive_eq_byHand {e : Engine η κ γ σ} {d : Document} {run : Run} (caller : Nat)
    {cell : Nat} {shown : σ} {events : List Event} (free : e.flight = none)
    (starts : Run.start d e.settings.mode = .ok run) (isShown : e.cells[cell]? = some shown)
    (hevents : ∀ event ∈ events, event.isOfPause = true) :
    let r := e.handleAll (.call caller (some d) cell :: events)
    let length := (Action.upToEnd d.actions).length
    let begun := if caller ∈ e.fired then 0 else begunAtFire caller length 1 events
    let byHand := (((⟨run, e.world, shown⟩ : Course η κ γ σ).after begun).obey .cancel).course
    (answers r.1 = [] ∧ r.2.isRunning = true ∧ caller ∉ e.fired ∧
        MayPause caller length 1 events) ∨
      ∃ outcome, answers r.1 = [(caller, .ended outcome)] ∧ r.2.isRunning = false ∧
        outcome = byHand.run.outcome outcome.pauses ∧ r.2.world = byHand.world ∧
        r.2.cells = e.cells.set cell byHand.shown ∧ outcome.executed = begun ∧
        (outcome.status = .cancelled ↔ begun < length) ∧
        outcome.pauses =
          if outcome.status.isTerminated then outcome.executed - 1 else outcome.executed := by
  intro r length begun byHand
  -- The call, with what it finds, is the job that the rest of this section is about.
  let j : Job η κ γ σ :=
    ⟨caller, cell, d, e.settings.mode, run, starts, e.world, e.cells, shown, isShown⟩
  have hbegun : begun ≤ j.length := by
    show (if caller ∈ e.fired then 0 else begunAtFire caller j.length 1 events) ≤ j.length
    split
    · exact Nat.zero_le _
    · exact begunAtFire_le ..
  have hcourse : byHand = { j.courseAt begun with run := (j.courseAt begun).run.cancel } :=
    j.byHand_eq begun
  rcases handleAll_call (j := j) free rfl rfl rfl hevents with ⟨hpauses, hfired, hmay⟩ | hended
  · exact .inl ⟨hpauses.answers, Option.isSome_iff_ne_none.mpr hpauses.flight, hfired, hmay⟩
  · have hexecuted : (j.courseAt begun).run.executed = begun := j.executed_courseAt hbegun
    refine .inr ⟨_, hended.answers, ?_, ?_, ?_, ?_, hexecuted,
      j.status_courseAt_eq_cancelled_iff begun, ?_⟩
    · exact isRunning_of_free hended.flight
    · rw [hcourse]
      exact (Run.outcome_cancel ..).symm
    · rw [hcourse]
      exact hended.shows.world
    · rw [hcourse]
      exact hended.shows.cells
    · show (if (j.courseAt begun).run.status.isTerminated then begun - 1 else begun) =
        if (j.courseAt begun).run.status.isTerminated then (j.courseAt begun).run.executed - 1
        else (j.courseAt begun).run.executed
      rw [hexecuted]

def interrupted : Document :=
  ⟨"Go", [⟨"1", "showText", "", some "one"⟩, ⟨"2", "showText", "", some "two"⟩,
    ⟨"3", "showText", "", some "three"⟩]⟩

/-- Whose caller cancels in the pause after the second of three texts does not see the third, even
if that pause is over before the run notices. -/
theorem drive_interrupted :
    let e : Engine ScriptedHost MemoryStore Palette Presentation :=
      new .default ⟨.withAnswers [], .empty, .ofList []⟩ [.initial]
    let r := e.handleAll [.call 0 (some interrupted) 0, .pauseEnd, .fire 0, .pauseEnd]
    (∃ outcome, answers r.1 = [(0, .ended outcome)] ∧ outcome.status = .cancelled ∧
      outcome.executed = 2 ∧ outcome.pauses = 2) ∧
    r.2.isRunning = false ∧ r.2.cells.map (·.log) = [[.text "one", .text "two"]] := by
  intro e r
  have hlength : (Action.upToEnd interrupted.actions).length = 3 := by decide +kernel
  have hbegun : begunAtFire 0 3 1 [.pauseEnd, .fire 0, .pauseEnd] = 2 := by decide
  have isShown : e.cells[0]? = some .initial := rfl
  have hevents : ∀ event ∈ [Event.pauseEnd, .fire 0, .pauseEnd], event.isOfPause = true := by decide
  have hdrive := drive_eq_byHand (e := e) (d := interrupted) 0 rfl rfl isShown hevents
  dsimp only at hdrive
  rw [hlength, if_neg (by decide), hbegun] at hdrive
  rcases hdrive with ⟨-, -, -, hmay⟩ |
    ⟨outcome, hanswers, hfree, -, -, hcells, hexecuted, hstatus, hpauses⟩
  · exact absurd hmay.2 (by decide)
  · have hcancelled : outcome.status = .cancelled := hstatus.mpr (by decide)
    rw [hcancelled, hexecuted] at hpauses
    refine ⟨⟨outcome, hanswers, hcancelled, hexecuted, hpauses⟩, hfree, ?_⟩
    rw [hcells]
    decide +kernel

end Engine
end TriggerFlow
