import TriggerFlow.Proofs.Engine.Cancellation

/-!
# When each action is done

An action takes no time, and the pause after it as much as the engine waits. **So the moment of a
call says the moment of everything in its run**: action number `i` is done `i` pauses after the
call, whoever looks sees as many actions as pauses have begun, and the run is over with its last
pause, or with the action that ends it. Whoever cancels or goes away in between ends it there.

The engine waits for a pacing as it is set, up to `Clock.longestWait`; from there on a pause is
shorter than the pacing.
-/

set_option autoImplicit false

namespace TriggerFlow

variable {η κ γ σ : Type}

/-! ## How many pauses there are -/

namespace Action

/-- How many pauses a run makes: one after each action before the first that ends it. -/
def pauses (as : List Action) : Nat :=
  (as.takeWhile (!·.endsRun)).length

theorem pauses_le (as : List Action) : pauses as ≤ (upToEnd as).length := by
  unfold pauses
  induction as with
  | nil => exact Nat.le_refl 0
  | cons a as ih => cases h : a.endsRun <;> simp [upToEnd, h, ih]

theorem length_upToEnd_le_pauses (as : List Action) : (upToEnd as).length ≤ pauses as + 1 := by
  unfold pauses
  induction as with
  | nil => exact Nat.zero_le 1
  | cons a as ih => cases h : a.endsRun <;> simp [upToEnd, h, ih]

/-- All but an action that ends the run are followed by a pause. -/
theorem pauses_eq (as : List Action) :
    pauses as = if as.any endsRun then (upToEnd as).length - 1 else as.length := by
  unfold pauses
  induction as with
  | nil => rfl
  | cons a as ih =>
    cases h : a.endsRun with
    | true => simp [upToEnd, h]
    | false =>
      have hlen : as.any endsRun = true → 1 ≤ (upToEnd as).length := by
        intro hany
        have hne : as ≠ [] := by
          rintro rfl
          simp at hany
        exact length_upToEnd_pos hne
      simp only [upToEnd, h, List.takeWhile_cons, List.any_cons, Bool.false_or, Bool.not_false,
        if_true, List.length_cons, ih, Bool.false_eq_true, if_false]
      split
      · case isTrue hany =>
        have := hlen hany
        omega
      · rfl

theorem report_eq_paced_iff {as : List Action} {n : Nat} :
    Course.report as n = .paced ↔ n < pauses as := by
  unfold Course.report pauses
  induction as generalizing n with
  | nil => simp [upToEnd]
  | cons a as ih =>
    cases h : a.endsRun with
    | true =>
      obtain ⟨ending, hending⟩ := Option.isSome_iff_exists.mp ((isSome_ending? a).trans h)
      cases n <;> simp [upToEnd, h, hending]
    | false =>
      cases n with
      | zero => simp [upToEnd, h, ending?_eq_none_iff.mpr h]
      | succ n => simpa [upToEnd, h] using ih

end Action

/-! ## One pause -/

namespace Job

/-- How many pauses its run makes. -/
def pauses (j : Job η κ γ σ) : Nat :=
  Action.pauses j.document.actions

theorem pauses_le (j : Job η κ γ σ) : j.pauses ≤ j.length :=
  Action.pauses_le _

theorem length_le (j : Job η κ γ σ) : j.length ≤ j.pauses + 1 :=
  Action.length_upToEnd_le_pauses _

/-- How many of its actions have been done at a moment, if they began at another. -/
def doneBy (j : Job η κ γ σ) (start pause time : Nat) : Nat :=
  min j.length ((time - start) / pause + 1)

theorem doneBy_of_wait {j : Job η κ γ σ} {start pause time n : Nat} (hn : 1 ≤ n)
    (hle : n ≤ j.pauses) (since : start + n * pause ≤ time + pause)
    (before : time < start + n * pause) : j.doneBy start pause time = n := by
  obtain ⟨k, rfl⟩ : ∃ k, n = k + 1 := ⟨n - 1, by omega⟩
  rw [Nat.succ_mul] at since before
  have hdiv : (time - start) / pause = k :=
    Nat.div_eq_of_lt_le (by omega) (by rw [Nat.succ_mul]; omega)
  unfold doneBy
  rw [hdiv]
  exact Nat.min_eq_right (Nat.le_trans hle j.pauses_le)

theorem doneBy_of_over {j : Job η κ γ σ} {start pause time : Nat} (hpause : 0 < pause)
    (h : start + j.pauses * pause ≤ time) : j.doneBy start pause time = j.length := by
  have hdiv : j.pauses ≤ (time - start) / pause :=
    (Nat.le_div_iff_mul_le hpause).mpr (by omega)
  have hlength := j.length_le
  unfold doneBy
  exact Nat.min_eq_left (by omega)

/-- **An action has been done from its moment on.** -/
theorem lt_doneBy_iff {j : Job η κ γ σ} {start pause time i : Nat} (hpause : 0 < pause)
    (hi : i < j.length) (hstart : start ≤ time) :
    i < j.doneBy start pause time ↔ start + i * pause ≤ time := by
  have hdiv : i ≤ (time - start) / pause ↔ i * pause ≤ time - start :=
    Nat.le_div_iff_mul_le hpause
  unfold doneBy
  omega

end Job

variable [Host η] [KeyValueStore κ] [ColorSource γ] [Sink σ]

namespace Engine

theorem settings_proceed (e : Engine η κ γ σ) (f : Flight) :
    (e.proceed f).2.settings = e.settings := by
  unfold proceed
  dsimp only
  split <;> rfl

theorem handle_notice_of_fired {e : Engine η κ γ σ} {f : Flight} (hflight : e.flight = some f)
    (hfired : f.caller ∈ e.fired) :
    e.handle .notice =
      (some (f.caller, .ended (f.run.outcome f.pauses)), { e with flight := none }) := by
  dsimp only [handle]
  rw [hflight]
  dsimp only
  rw [if_pos hfired, proceed_cancel_of_fired hfired, proceed_of_fired hfired]

theorem handle_drop {e : Engine η κ γ σ} {f : Flight} (hflight : e.flight = some f) :
    e.handle (.drop f.caller) = (none, { e with flight := none }) := by
  dsimp only [handle]
  rw [flightOf?_eq hflight, if_pos rfl]

/-- The run of a job, its caller not having cancelled, stands after some of its actions and as many
pauses. -/
structure Stands (e : Engine η κ γ σ) (j : Job η κ γ σ) (n : Nat) : Prop where
  shows : e.Shows j (j.courseAt n)
  unfired : j.caller ∉ e.fired
  inBounds : n ≤ j.pauses

def flightAt (j : Job η κ γ σ) (n : Nat) : Flight :=
  ⟨j.caller, j.cell, (j.courseAt n).run, n⟩

/-- The run of a job is over, as its course says after some of its actions. -/
structure Rests (e : Engine η κ γ σ) (j : Job η κ γ σ) (n : Nat) : Prop where
  flight : e.flight = none
  shows : e.Shows j (j.courseAt n)

/-- **Before its last pause** a run does the next action and pauses. -/
theorem Stands.proceed_of_lt {e : Engine η κ γ σ} {j : Job η κ γ σ} {n : Nat} (h : e.Stands j n)
    (hlt : n < j.pauses) :
    (e.proceed (flightAt j n)).1 = none ∧
      (e.proceed (flightAt j n)).2.flight = some (flightAt j (n + 1)) ∧
      (e.proceed (flightAt j n)).2.Stands j (n + 1) := by
  obtain ⟨hshows, hpaced, -⟩ := proceed_of_shows (f := flightAt j n) h.shows rfl rfl h.unfired
  rw [j.obey_courseAt] at hshows hpaced
  obtain ⟨hanswer, hflight⟩ := hpaced (congrArg some (Action.report_eq_paced_iff.mpr hlt))
  refine ⟨hanswer, hflight, hshows, ?_, hlt⟩
  rw [fired_proceed]
  exact h.unfired

/-- **After its last pause** a run ends, with everything done that it gets to. -/
theorem Stands.proceed_of_eq {e : Engine η κ γ σ} {j : Job η κ γ σ} (h : e.Stands j j.pauses) :
    (e.proceed (flightAt j j.pauses)).1 =
        some (j.caller, .ended ((j.courseAt j.length).run.outcome j.pauses)) ∧
      (e.proceed (flightAt j j.pauses)).2.Rests j j.length := by
  obtain ⟨hshows, -, hover⟩ :=
    proceed_of_shows (f := flightAt j j.pauses) h.shows rfl rfl h.unfired
  rw [j.obey_courseAt] at hshows hover
  have hreport : Course.report j.document.actions j.pauses ≠ .paced := fun hpaced =>
    absurd (Action.report_eq_paced_iff.mp hpaced) (Nat.lt_irrefl _)
  obtain ⟨hanswer, hflight⟩ := hover fun hsome => hreport (Option.some.inj hsome)
  have hlast : j.courseAt (j.pauses + 1) = j.courseAt j.length := j.courseAt_of_le j.length_le
  rw [hlast] at hshows hanswer
  exact ⟨hanswer, hflight, hshows⟩

end Engine

namespace Clock

/-- The run of a job is in the pause after some of its actions, which ends so many pauses after the
run began. -/
structure Waits (c : Clock η κ γ σ) (j : Job η κ γ σ) (start pause n : Nat) : Prop where
  flight : c.engine.flight = some (Engine.flightAt j n)
  stands : c.engine.Stands j n
  pacing : min c.engine.settings.pacing longestWait = pause
  wake : c.wake = start + n * pause

/-- The call of a job has come to its end by itself. -/
structure Ends (c : Clock η κ γ σ) (j : Job η κ γ σ) (start pause : Nat) (before : List Ended) :
    Prop where
  rests : c.engine.Rests j j.length
  ended : c.ended = before ++ [⟨j.caller, start + j.pauses * pause,
    some (.ended ((j.courseAt j.length).run.outcome j.pauses))⟩]

variable {c : Clock η κ γ σ} {j : Job η κ γ σ} {start pause n : Nat}

theorem engine_happen (c : Clock η κ γ σ) (event : Event) :
    (c.happen event).engine = (c.engine.handle event).2 := rfl

theorem ended_happen (c : Clock η κ γ σ) (event : Event) :
    (c.happen event).ended =
      c.ended ++ ((c.engine.handle event).1.map fun a => ⟨a.1, c.now, some a.2⟩).toList := rfl

/-- Where nothing is in flight, time passes and that is all. -/
theorem advance_of_free (h : c.engine.flight = none) (time : Nat) :
    c.advance time = { c with now := time } := by
  unfold advance
  rw [endPauses_of_not_isDue (isDue_of_free h _)]

theorem finish_of_free (h : c.engine.flight = none) : c.finish = c :=
  endPauses_of_not_isDue (isDue_of_free h _) _

theorem Waits.isDue (h : c.Waits j start pause n) (limit : Option Nat) :
    c.isDue limit = limit.all (start + n * pause ≤ ·) := by
  unfold Clock.isDue
  rw [Engine.isRunning_of_flight h.flight, h.wake, Bool.true_and]

theorem Waits.advance_of_lt {time : Nat} (h : c.Waits j start pause n)
    (hlt : time < start + n * pause) : c.advance time = { c with now := time } := by
  have hnot : c.isDue (some time) = false := by
    rw [h.isDue]
    exact decide_eq_false (Nat.not_le.mpr hlt)
  unfold Clock.advance
  rw [endPauses_of_not_isDue hnot]

theorem Waits.lt_pausesLeft (h : c.Waits j start pause n) : j.pauses - n < c.pausesLeft := by
  have hexecuted : (j.courseAt n).run.executed = n :=
    j.executed_courseAt (Nat.le_trans h.stands.inBounds j.pauses_le)
  have hactions : j.pauses ≤ (j.courseAt n).run.actions.length :=
    Nat.le_trans j.pauses_le (Action.length_upToEnd_le _)
  unfold pausesLeft
  rw [h.flight]
  dsimp only [Engine.flightAt]
  rw [hexecuted]
  omega

/-- **The end of a pause** is the beginning of the next one, or the end of the run. -/
theorem Waits.endPause (h : c.Waits j start pause n) :
    (n < j.pauses → c.endPause.Waits j start pause (n + 1) ∧ c.endPause.ended = c.ended) ∧
      (n = j.pauses → c.endPause.Ends j start pause c.ended) := by
  have hproceeds : c.engine.handle .pauseEnd = c.engine.proceed (Engine.flightAt j n) := by
    dsimp only [Engine.handle]
    rw [h.flight]
  have hengine : c.endPause.engine = (c.engine.proceed (Engine.flightAt j n)).2 := by
    unfold Clock.endPause
    rw [engine_happen, hproceeds]
  have hended : c.endPause.ended = c.ended ++
      ((c.engine.proceed (Engine.flightAt j n)).1.map fun a => ⟨a.1, c.wake, some a.2⟩).toList := by
    unfold Clock.endPause
    rw [ended_happen, hproceeds]
  constructor
  · intro hlt
    obtain ⟨hanswer, hflight, hstands⟩ := h.stands.proceed_of_lt hlt
    refine ⟨⟨hengine ▸ hflight, hengine ▸ hstands, ?_, ?_⟩, ?_⟩
    · rw [hengine, Engine.settings_proceed]
      exact h.pacing
    · show c.wake + min c.engine.settings.pacing longestWait = start + (n + 1) * pause
      rw [h.wake, h.pacing, Nat.succ_mul, Nat.add_assoc]
    · rw [hended, hanswer]
      exact List.append_nil _
  · rintro rfl
    obtain ⟨hanswer, hrests⟩ := h.stands.proceed_of_eq
    refine ⟨hengine ▸ hrests, ?_⟩
    rw [hended, hanswer, h.wake]
    rfl

/-- **Time passes**: the pauses that are over by then end, and the run with the last of them. -/
theorem Waits.endPauses (limit : Option Nat) (fuel : Nat) :
    ∀ {c : Clock η κ γ σ} {n : Nat}, c.Waits j start pause n → j.pauses - n < fuel →
      limit.all (start + n * pause ≤ · + pause) = true →
      (∃ k, (c.endPauses limit fuel).Waits j start pause k ∧
          (c.endPauses limit fuel).ended = c.ended ∧ n ≤ k ∧
          limit.all (start + k * pause ≤ ·) = false ∧
          limit.all (start + k * pause ≤ · + pause) = true) ∨
        (c.endPauses limit fuel).Ends j start pause c.ended ∧
          limit.all (start + j.pauses * pause ≤ ·) = true := by
  induction fuel with
  | zero =>
    intro c n _ hfuel
    exact absurd hfuel (Nat.not_lt_zero _)
  | succ fuel ih =>
    intro c n h hfuel hsince
    rw [endPauses_succ, h.isDue]
    cases hdue : limit.all (start + n * pause ≤ ·) with
    | false => exact .inl ⟨n, h, rfl, Nat.le_refl n, hdue, hsince⟩
    | true =>
      rw [if_pos rfl]
      obtain ⟨hnext, hlast⟩ := h.endPause
      rcases Nat.lt_or_eq_of_le h.stands.inBounds with hlt | heq
      · obtain ⟨hwaits, hended⟩ := hnext hlt
        have hsince' : limit.all (start + (n + 1) * pause ≤ · + pause) = true := by
          cases limit with
          | none => rfl
          | some time =>
            simp only [Option.all_some, decide_eq_true_eq, Nat.succ_mul] at hdue ⊢
            omega
        rcases ih hwaits (by omega) hsince' with ⟨k, hk, hsame, hle, hrest⟩ | ⟨hends, hover⟩
        · exact .inl ⟨k, hk, hsame.trans hended, by omega, hrest⟩
        · exact .inr ⟨hended ▸ hends, hover⟩
      · have hends := hlast heq
        rw [endPauses_of_not_isDue (isDue_of_free hends.rests.flight limit)]
        exact .inr ⟨hends, heq ▸ hdue⟩

/-! ## A call from its moment on -/

/-- Nothing is in flight, and a job is a call that has not been made yet, with what it would find. -/
structure Expects (c : Clock η κ γ σ) (j : Job η κ γ σ) : Prop where
  free : c.engine.flight = none
  unanswered : c.endOf? j.caller = none
  mode : c.engine.settings.mode = j.mode
  world : c.engine.world = j.world
  cells : c.engine.cells = j.cells

theorem Expects.shows (h : c.Expects j) : c.engine.Shows j (j.courseAt 0) := by
  obtain ⟨hlt, hshown⟩ := List.getElem?_eq_some_iff.mp j.isShown
  rw [j.courseAt_zero]
  refine ⟨h.world, ?_⟩
  show c.engine.cells = j.cells.set j.cell j.shown
  rw [h.cells, ← hshown, List.set_getElem_self]

theorem Expects.handle_call (h : c.Expects j) :
    c.engine.handle (.call j.caller (some j.document) j.cell) =
      c.engine.proceed (Engine.flightAt j 0) := by
  have hrun : (j.courseAt 0).run = j.run := congrArg Course.run j.courseAt_zero
  rw [Engine.handle_call h.free (h.mode ▸ j.starts), Engine.flightAt, hrun]

/-- A call is made at its moment, which nothing happens before. -/
theorem Expects.happenAt_call (h : c.Expects j) (start : Nat) :
    c.happenAt start (.call j.caller (some j.document) j.cell) =
      (({ c with now := start } : Clock η κ γ σ).happen
        (.call j.caller (some j.document) j.cell)).advance start := by
  have hnone : ({ c with now := start } : Clock η κ γ σ).endOf? j.caller = none := h.unanswered
  unfold happenAt
  rw [advance_of_free h.free]
  dsimp only
  rw [hnone]
  rfl

theorem Expects.wake_call (h : c.Expects j) :
    (c.happen (.call j.caller (some j.document) j.cell)).wake =
      c.now + min c.engine.settings.pacing longestWait := by
  have hbegins : c.beginsPause (.call j.caller (some j.document) j.cell) = true := by
    show (!c.engine.isRunning) = true
    rw [Engine.isRunning_of_free h.free]
    rfl
  show (if c.beginsPause _ = true then _ else _) = _
  rw [if_pos hbegins]

/-- **A call that is admitted** does the first action at once. -/
theorem Expects.happen_call (h : c.Expects j) (unfired : j.caller ∉ c.engine.fired)
    (hpause : min c.engine.settings.pacing longestWait = pause) :
    let called := c.happen (.call j.caller (some j.document) j.cell)
    called.Waits j c.now pause 1 ∧ called.ended = c.ended ∨
      called.Ends j c.now pause c.ended ∧ j.pauses = 0 := by
  intro called
  have hengine : called.engine = (c.engine.proceed (Engine.flightAt j 0)).2 := by
    rw [engine_happen, h.handle_call]
  have hended : called.ended = c.ended ++
      ((c.engine.proceed (Engine.flightAt j 0)).1.map fun a => ⟨a.1, c.now, some a.2⟩).toList := by
    rw [ended_happen, h.handle_call]
  have hstands : c.engine.Stands j 0 := ⟨h.shows, unfired, Nat.zero_le _⟩
  rcases Nat.eq_zero_or_pos j.pauses with hnone | hsome
  · -- The first action ends the run.
    rw [← hnone] at hstands
    obtain ⟨hanswer, hrests⟩ := hstands.proceed_of_eq
    rw [hnone] at hanswer hrests
    refine .inr ⟨⟨hengine ▸ hrests, ?_⟩, hnone⟩
    rw [hended, hanswer, hnone, Nat.zero_mul]
    rfl
  · obtain ⟨hanswer, hflight, hwaiting⟩ := hstands.proceed_of_lt hsome
    refine .inl ⟨⟨hengine ▸ hflight, hengine ▸ hwaiting, ?_, ?_⟩, ?_⟩
    · rw [hengine, Engine.settings_proceed]
      exact hpause
    · rw [h.wake_call, hpause, Nat.one_mul]
    · rw [hended, hanswer]
      exact List.append_nil _

/-- The call of someone who has cancelled before ends at once, with nothing done. -/
theorem Expects.happen_call_of_fired (h : c.Expects j) (fired : j.caller ∈ c.engine.fired) :
    let called := c.happen (.call j.caller (some j.document) j.cell)
    called.engine.Rests j 0 ∧
      called.ended = c.ended ++
        [⟨j.caller, c.now, some (.ended ((j.courseAt 0).run.outcome 0))⟩] := by
  intro called
  have hproceed := Engine.proceed_of_fired (f := Engine.flightAt j 0) fired
  have hengine : called.engine = { c.engine with flight := none } := by
    rw [engine_happen, h.handle_call, hproceed]
  refine ⟨⟨by rw [hengine], ?_⟩, ?_⟩
  · rw [hengine]
    exact ⟨h.shows.world, h.shows.cells⟩
  · rw [ended_happen, h.handle_call, hproceed]
    rfl

/-- A clock at a moment after the call of a job: its run is in a pause or has come to its end. -/
structure Follows (c : Clock η κ γ σ) (j : Job η κ γ σ) (start pause time : Nat)
    (before : List Ended) : Prop where
  now : c.now = time
  early : time < start + j.pauses * pause →
    c.Waits j start pause (j.doneBy start pause time) ∧ c.ended = before
  late : start + j.pauses * pause ≤ time → c.Ends j start pause before ∧
    j.doneBy start pause time = j.length

/-- Where a run stands at a moment, however long its call is ago. -/
theorem Waits.follows_advance {time : Nat} (h : c.Waits j start pause 1) (hpause : 0 < pause)
    (hstart : start ≤ time) : (c.advance time).Follows j start pause time c.ended := by
  have hsince : (some time).all (start + 1 * pause ≤ · + pause) = true := by
    simp only [Option.all_some, decide_eq_true_eq]
    omega
  have hpauses := h.endPauses (some time) c.pausesLeft h.lt_pausesLeft hsince
  simp only [Option.all_some, decide_eq_true_eq, decide_eq_false_iff_not] at hpauses
  rcases hpauses with ⟨k, hwaits, hended, hk, huntil, hsince⟩ | ⟨hends, hover⟩
  · have hmul : k * pause ≤ j.pauses * pause := Nat.mul_le_mul_right _ hwaits.stands.inBounds
    refine ⟨rfl, fun _ => ?_, fun hover => by omega⟩
    rw [Job.doneBy_of_wait hk hwaits.stands.inBounds hsince (by omega)]
    exact ⟨⟨hwaits.flight, hwaits.stands, hwaits.pacing, hwaits.wake⟩, hended⟩
  · refine ⟨rfl, fun hearly => by omega, fun _ => ⟨⟨hends.rests, hends.ended⟩, ?_⟩⟩
    exact Job.doneBy_of_over hpause hover

theorem Ends.follows_advance {time : Nat} {before : List Ended} (h : c.Ends j start pause before)
    (hpause : 0 < pause) (hover : start + j.pauses * pause ≤ time) :
    (c.advance time).Follows j start pause time before := by
  rw [advance_of_free h.rests.flight]
  exact ⟨rfl, fun hearly => by omega,
    fun _ => ⟨⟨h.rests, h.ended⟩, Job.doneBy_of_over hpause hover⟩⟩

theorem Waits.ends_finish (h : c.Waits j start pause n) : c.finish.Ends j start pause c.ended := by
  rcases h.endPauses none c.pausesLeft h.lt_pausesLeft rfl with ⟨k, -, -, -, hnever, -⟩ | ⟨hends, -⟩
  · exact absurd hnever (by simp)
  · exact hends

/-- **Whoever cancels ends the run there**, unless it is over. -/
theorem Follows.fire {time : Nat} {before : List Ended}
    (h : c.Follows j start pause time before) :
    let cancelled := (c.happen (.fire j.caller)).happen .notice
    let done := j.doneBy start pause time
    cancelled.engine.Rests j done ∧
      cancelled.ended = before ++ [⟨j.caller, min time (start + j.pauses * pause),
        some (.ended ((j.courseAt done).run.outcome (min done j.pauses)))⟩] := by
  intro cancelled done
  let fired : Engine η κ γ σ := (c.engine.handle (.fire j.caller)).2
  have hfired : j.caller ∈ fired.fired := List.mem_cons_self
  have hengine : cancelled.engine = (fired.handle .notice).2 := rfl
  have hended : cancelled.ended = c.ended ++
      ((fired.handle .notice).1.map fun a => ⟨a.1, c.now, some a.2⟩).toList := by
    show (c.ended ++ []) ++ _ = _
    rw [List.append_nil]
    rfl
  rcases Nat.lt_or_ge time (start + j.pauses * pause) with hearly | hlate
  · obtain ⟨hwaits, hbefore⟩ := h.early hearly
    have hflight : fired.flight = some (Engine.flightAt j done) := hwaits.flight
    have hnotices := Engine.handle_notice_of_fired hflight hfired
    rw [hengine, hended, hnotices, hbefore, h.now, Nat.min_eq_left (Nat.le_of_lt hearly),
      Nat.min_eq_left hwaits.stands.inBounds]
    exact ⟨⟨rfl, hwaits.stands.shows.world, hwaits.stands.shows.cells⟩, rfl⟩
  · obtain ⟨hends, hdone⟩ := h.late hlate
    have hfree : fired.flight = none := hends.rests.flight
    have hnotices : fired.handle .notice = (none, fired) :=
      Engine.handle_notice_of_unfired fun f hf => absurd (hfree.symm.trans hf) (by simp)
    rw [hengine, hended, hnotices, hends.ended, Nat.min_eq_right hlate]
    show _ ∧ (before ++ [_]) ++ [] = _
    rw [List.append_nil]
    have hpauses : min done j.pauses = j.pauses := by
      rw [show done = j.length from hdone]
      exact Nat.min_eq_right j.pauses_le
    rw [hpauses, show done = j.length from hdone]
    exact ⟨⟨hfree, hends.rests.shows.world, hends.rests.shows.cells⟩, rfl⟩

/-- **Whoever goes away ends the run there**, unless it is over, and is told nothing. -/
theorem Follows.drop {time : Nat} {before : List Ended}
    (h : (c.advance time).Follows j start pause time before)
    (unanswered : before.find? (·.caller = j.caller) = none) :
    (c.happenAt time (.drop j.caller)).engine.Rests j (j.doneBy start pause time) ∧
      (c.happenAt time (.drop j.caller)).ended = before ++
        [if time < start + j.pauses * pause then ⟨j.caller, time, none⟩
          else ⟨j.caller, start + j.pauses * pause,
            some (.ended ((j.courseAt j.length).run.outcome j.pauses))⟩] := by
  unfold happenAt
  dsimp only
  rcases Nat.lt_or_ge time (start + j.pauses * pause) with hearly | hlate
  · obtain ⟨hwaits, hsame⟩ := h.early hearly
    have hnone : (c.advance time).endOf? j.caller = none := by
      unfold endOf?
      rw [hsame]
      exact unanswered
    have hdrops : (c.advance time).engine.handle (.drop j.caller) = _ :=
      Engine.handle_drop hwaits.flight
    rw [hnone, if_neg (by simp), if_pos hearly]
    dsimp only
    rw [engine_happen, ended_happen, hdrops, hsame, Option.map_none, Option.toList_none,
      List.append_nil]
    exact ⟨⟨rfl, hwaits.stands.shows.world, hwaits.stands.shows.cells⟩, rfl⟩
  · obtain ⟨hends, hdone⟩ := h.late hlate
    have hsome : ((c.advance time).endOf? j.caller).isSome = true := by
      unfold endOf?
      rw [hends.ended, List.find?_append, unanswered]
      simp
    rw [if_pos hsome, if_neg (Nat.not_lt.mpr hlate), hdone]
    exact ⟨hends.rests, hends.ended⟩

/-- A clock shows, beyond what another one did, the course of a run in a cell, and tells of calls
that have ended since. -/
structure ShowsRun (c before : Clock η κ γ σ) (cell : Nat) (course : Course η κ γ σ)
    (running : Bool) (ended : List Ended) : Prop where
  world : c.engine.world = course.world
  cells : c.engine.cells = before.engine.cells.set cell course.shown
  isRunning : c.engine.isRunning = running
  ended : c.ended = before.ended ++ ended

/-- What is shown when nothing is in flight is shown for good. -/
theorem ShowsRun.advance {before : Clock η κ γ σ} {cell : Nat} {course : Course η κ γ σ}
    {ended : List Ended} (h : c.ShowsRun before cell course false ended) (time : Nat) :
    (c.advance time).ShowsRun before cell course false ended := by
  have hfree : c.engine.flight = none :=
    Option.isNone_iff_eq_none.mp (Option.isSome_eq_false_iff.mp h.isRunning)
  rw [advance_of_free hfree]
  exact ⟨h.world, h.cells, h.isRunning, h.ended⟩

theorem ShowsRun.of_rests {before : Clock η κ γ σ} {ended : List Ended}
    (cells : before.engine.cells = j.cells) (hrests : c.engine.Rests j n)
    (hended : c.ended = before.ended ++ ended) :
    c.ShowsRun before j.cell (j.courseAt n) false ended := by
  refine ⟨hrests.shows.world, ?_, ?_, hended⟩
  · rw [cells]
    exact hrests.shows.cells
  · exact Engine.isRunning_of_free hrests.flight

theorem Follows.showsRun {before : Clock η κ γ σ} {time : Nat}
    (cells : before.engine.cells = j.cells) (h : c.Follows j start pause time before.ended) :
    c.ShowsRun before j.cell (j.courseAt (j.doneBy start pause time))
      (time < start + j.pauses * pause)
      (if time < start + j.pauses * pause then []
        else [⟨j.caller, start + j.pauses * pause,
          some (.ended ((j.courseAt j.length).run.outcome j.pauses))⟩]) := by
  rcases Nat.lt_or_ge time (start + j.pauses * pause) with hearly | hlate
  · obtain ⟨hwaits, hended⟩ := h.early hearly
    rw [if_pos hearly, decide_eq_true hearly]
    refine ⟨hwaits.stands.shows.world, ?_, ?_, by rw [hended, List.append_nil]⟩
    · rw [cells]
      exact hwaits.stands.shows.cells
    · exact Engine.isRunning_of_flight hwaits.flight
  · obtain ⟨hends, hdone⟩ := h.late hlate
    rw [if_neg (Nat.not_lt.mpr hlate), decide_eq_false (Nat.not_lt.mpr hlate), hdone]
    exact .of_rests cells hends.rests hends.ended

/-- How a call that is admitted stands at every moment from then on, and when its run ends. -/
theorem Expects.follows (h : c.Expects j) (unfired : j.caller ∉ c.engine.fired)
    (hpause : min c.engine.settings.pacing longestWait = pause) (hpos : 0 < pause) (start : Nat) :
    let called := c.happenAt start (.call j.caller (some j.document) j.cell)
    (∀ time, start ≤ time → (called.advance time).Follows j start pause time c.ended) ∧
      called.finish.Ends j start pause c.ended := by
  intro called
  let there : Clock η κ γ σ := { c with now := start }
  have hthere : there.Expects j := ⟨h.free, h.unanswered, h.mode, h.world, h.cells⟩
  have hcalled : called = (there.happen (.call j.caller (some j.document) j.cell)).advance start :=
    h.happenAt_call start
  rcases hthere.happen_call unfired hpause with ⟨hwaits, hsame⟩ | ⟨hends, hnone⟩
  · have hlt : start < start + 1 * pause := by omega
    rw [hwaits.advance_of_lt hlt] at hcalled
    have hcall : called.Waits j start pause 1 := by
      rw [hcalled]
      exact ⟨hwaits.flight, hwaits.stands, hwaits.pacing, hwaits.wake⟩
    have hended : called.ended = c.ended := by
      rw [hcalled]
      exact hsame
    rw [← hended]
    exact ⟨fun time hstart => hcall.follows_advance hpos hstart, hcall.ends_finish⟩
  · rw [advance_of_free hends.rests.flight] at hcalled
    have hcall : called.Ends j start pause c.ended := by
      rw [hcalled]
      exact ⟨hends.rests, hends.ended⟩
    refine ⟨fun time hstart => hcall.follows_advance hpos ?_, ?_⟩
    · rw [hnone, Nat.zero_mul]
      exact hstart
    · rw [finish_of_free hcall.rests.flight]
      exact hcall

/-- The call of someone who has cancelled before shows at no moment. -/
theorem Expects.rests_of_fired (h : c.Expects j) (fired : j.caller ∈ c.engine.fired)
    (start : Nat) :
    let called := c.happenAt start (.call j.caller (some j.document) j.cell)
    called.engine.Rests j 0 ∧ called.ended =
      c.ended ++ [⟨j.caller, start, some (.ended ((j.courseAt 0).run.outcome 0))⟩] := by
  intro called
  let there : Clock η κ γ σ := { c with now := start }
  have hthere : there.Expects j := ⟨h.free, h.unanswered, h.mode, h.world, h.cells⟩
  have hcalled : called = (there.happen (.call j.caller (some j.document) j.cell)).advance start :=
    h.happenAt_call start
  obtain ⟨hrests, hended⟩ := hthere.happen_call_of_fired fired
  rw [hcalled, advance_of_free hrests.flight]
  exact ⟨hrests, hended⟩

/-- **The moment of a call says the moment of everything in its run.** Action number `i` has been done
from `i` pauses after the call on, so whoever looks finds what the actions done by then have left.
The run ends when its last pause is over; cancelled before, it ends there, and given up before, it
ends there and the engine is free. Whoever has cancelled before the call is answered at once, and
nothing is done or put back to its start. -/
theorem timing_of_call {c : Clock η κ γ σ} {d : Document} {run : Run} {cell : Nat} {shown : σ}
    (caller start : Nat) (free : c.engine.flight = none) (unanswered : c.endOf? caller = none)
    (paced : 0 < c.engine.settings.pacing)
    (starts : Run.start d c.engine.settings.mode = .ok run)
    (isShown : c.engine.cells[cell]? = some shown) :
    let pause := min c.engine.settings.pacing longestWait
    let length := (Action.upToEnd d.actions).length
    let pauses := if d.actions.any Action.endsRun then length - 1 else d.actions.length
    let ending := start + pauses * pause
    let after := (⟨run, c.engine.world, shown⟩ : Course η κ γ σ).after
    let done (time : Nat) := min length ((time - start) / pause + 1)
    let told (time n pauses : Nat) : Ended :=
      ⟨caller, time, some (.ended ((after n).run.outcome pauses))⟩
    let called := c.happenAt start (.call caller (some d) cell)
    (∀ n ≤ length, (after n).run.executed = n) ∧
      if caller ∈ c.engine.fired then
        ∀ time, start ≤ time → (called.advance time).engine.cells = c.engine.cells ∧
          (called.advance time).ShowsRun c cell (after 0) false [told start 0 0]
      else
        (∀ i < length, ∀ time, start ≤ time → (i < done time ↔ start + i * pause ≤ time)) ∧
        called.finish.ShowsRun c cell (after length) false [told ending length pauses] ∧
        ∀ time, start ≤ time →
          (called.advance time).ShowsRun c cell (after (done time)) (time < ending)
            (if time < ending then [] else [told ending length pauses]) ∧
          ∀ later, time ≤ later →
            ((called.happenAt time (.fire caller)).advance later).ShowsRun c cell
              (after (done time)) false
              [told (min time ending) (done time) (min (done time) pauses)] ∧
            ((called.happenAt time (.drop caller)).advance later).ShowsRun c cell
              (after (done time)) false
              [if time < ending then ⟨caller, time, none⟩ else told ending length pauses] := by
  intro pause length pauses ending after done told called
  let j : Job η κ γ σ := ⟨caller, cell, d, c.engine.settings.mode, run, starts, c.engine.world,
    c.engine.cells, shown, isShown⟩
  have hpos : 0 < pause := Nat.lt_min.mpr ⟨paced, by decide⟩
  have hexpects : c.Expects j := ⟨free, unanswered, rfl, rfl, rfl⟩
  have hafter : after = j.courseAt := funext fun n => Course.after_eq starts ..
  have hpauses : pauses = j.pauses := (Action.pauses_eq d.actions).symm
  have hending : ending = start + j.pauses * pause := by rw [← hpauses]
  refine ⟨?_, ?_⟩
  · intro n hn
    rw [hafter]
    exact j.executed_courseAt hn
  split
  · case isTrue hfired =>
    obtain ⟨hrests, hended⟩ := hexpects.rests_of_fired hfired start
    have hshows : called.ShowsRun c cell (after 0) false [told start 0 0] := by
      simp only [told, hafter]
      exact .of_rests rfl hrests hended
    intro time _
    refine ⟨?_, hshows.advance time⟩
    rw [(hshows.advance time).cells]
    exact hexpects.shows.cells.symm
  · case isFalse hunfired =>
    obtain ⟨hfollows, hends⟩ := hexpects.follows hunfired rfl hpos start
    simp only [told, hending, hpauses, hafter]
    refine ⟨?_, .of_rests rfl hends.rests hends.ended, ?_⟩
    · intro i hi time hstart
      exact j.lt_doneBy_iff hpos hi hstart
    · intro time hstart
      have hnow := hfollows time hstart
      refine ⟨hnow.showsRun rfl, fun later _ => ⟨?_, ?_⟩⟩
      · obtain ⟨hrests, hended⟩ := hnow.fire
        refine ShowsRun.advance ?_ later
        exact ShowsRun.advance (.of_rests rfl hrests hended) time
      · obtain ⟨hrests, hended⟩ := hnow.drop unanswered
        exact ShowsRun.advance (.of_rests rfl hrests hended) later

/-- Three texts with a tenth of a second between them, called at 50: whoever cancels at 249 has seen
two of them, and who does not cancel sees the run end at 350. -/
theorem timing_interrupted :
    let c : Clock ScriptedHost MemoryStore Palette Presentation :=
      .start (.new ⟨100, .lenient⟩ ⟨.withAnswers [], .empty, .ofList []⟩ [.initial])
    let called := c.happenAt 50 (.call 0 (some Engine.interrupted) 0)
    (called.advance 249).engine.cells.map (·.log) = [[.text "one", .text "two"]] ∧
      ((called.happenAt 249 (.fire 0)).advance 400).ended.map (·.time) = [249] ∧
      called.finish.ended.map (·.time) = [350] := by
  intro c called
  have starts : Run.start Engine.interrupted .lenient = .ok _ :=
    Run.start_of_isRunnable (by decide) .lenient
  have isShown : c.engine.cells[0]? = some .initial := rfl
  obtain ⟨-, htimes⟩ := timing_of_call (c := c) 0 50 rfl rfl (by decide) starts isShown
  rw [if_neg (by decide)] at htimes
  obtain ⟨-, hfinish, hmoments⟩ := htimes
  obtain ⟨hlook, hlater⟩ := hmoments 249 (by decide)
  obtain ⟨hfire, -⟩ := hlater 400 (by decide)
  refine ⟨?_, ?_, ?_⟩
  · rw [hlook.cells]
    decide +kernel
  · rw [hfire.ended]
    decide +kernel
  · rw [hfinish.ended]
    decide +kernel

/-- Two texts. -/
def patient : Document :=
  ⟨"Go", [⟨"showText-1", "showText", "showText", some "0"⟩,
    ⟨"showText-2", "showText", "showText", some "1"⟩]⟩

/-- A pacing of one millisecond more than the longest wait is not kept: the second text is there
before it is over, and the run ends two milliseconds before twice the pacing. -/
theorem timing_overlong :
    let pacing := 946080000001
    let c : Clock ScriptedHost MemoryStore Palette Presentation :=
      .start (.new ⟨pacing, .lenient⟩ ⟨.withAnswers [], .empty, .ofList []⟩ [.initial])
    let called := c.happenAt 0 (.call 0 (some patient) 0)
    called.finish.ended.map (·.time) = [1892160000000] ∧ 1892160000000 ≠ 0 + pacing * 2 ∧
      (called.advance (0 + 1 * pacing - 1)).engine.cells.map (·.log) =
        [[.text "0", .text "1"]] := by
  decide +kernel

end Clock
end TriggerFlow
