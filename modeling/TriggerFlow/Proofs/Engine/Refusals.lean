import TriggerFlow.Proofs.Engine.Plan
import TriggerFlow.Proofs.Engine.Time

/-!
# A refused call is as good as none

Play a plan, strike out every call that was refused in it together with what its caller did besides,
and play what is left. **Nobody can tell the two apart**: the calls that are left end as before and
at the same moments, and at every moment the world and the cells are the same.

The same holds of histories, in which no time passes and events come in any order at all, the end of
a pause after a call of the same moment as well as before it.

The two plays are compared event by event. While one of them does what was struck out, the other
stands still, so at a given event their clocks need not agree: what agrees is what both come to
when time passes, `Clock.Alike` at every later moment.
-/

set_option autoImplicit false

namespace TriggerFlow

variable {η κ γ σ : Type}

/-! ## Engines that are alike -/

namespace Engine

/-- What can be seen of an engine: all but who has cancelled. -/
def view (e : Engine η κ γ σ) : Engine η κ γ σ :=
  { e with fired := [] }

/-- Two engines are alike if they differ at most in who of some callers has cancelled, none of whom
has a run in flight. -/
structure Alike (out : List Nat) (e e' : Engine η κ γ σ) : Prop where
  settings : e.settings = e'.settings
  world : e.world = e'.world
  cells : e.cells = e'.cells
  flight : e.flight = e'.flight
  fired : ∀ caller, caller ∉ out → (caller ∈ e.fired ↔ caller ∈ e'.fired)
  flies : ∀ f, e.flight = some f → f.caller ∉ out

/-- Nobody who has cancelled has a run in flight. -/
def Unfired (e : Engine η κ γ σ) : Prop :=
  ∀ f, e.flight = some f → f.caller ∉ e.fired

variable {out : List Nat} {e e' : Engine η κ γ σ}

theorem Alike.view (h : Alike out e e') : e.view = e'.view := by
  unfold Engine.view
  rw [h.settings, h.world, h.cells, h.flight]

theorem Alike.isRunning (h : Alike out e e') : e.isRunning = e'.isRunning := by
  unfold Engine.isRunning
  rw [h.flight]

variable [Host η] [KeyValueStore κ] [ColorSource γ] [Sink σ]

theorem fired_proceed (e : Engine η κ γ σ) (f : Flight) : (e.proceed f).2.fired = e.fired := by
  unfold proceed
  dsimp only
  split <;> rfl

theorem unfired_proceed (e : Engine η κ γ σ) (f : Flight) : (e.proceed f).2.Unfired := by
  intro g hg
  obtain ⟨hfired, hwho, -⟩ := proceed_of_flight hg
  rw [fired_proceed, hwho]
  exact hfired

/-- Once a cancellation has been noticed it has taken effect. -/
theorem unfired_notice (e : Engine η κ γ σ) : (e.handle .notice).2.Unfired := by
  dsimp only [handle]
  split
  · case h_1 f hf =>
    split
    · exact unfired_proceed e _
    · case isFalse hnot =>
      intro g hg
      rw [hf, Option.some.injEq] at hg
      rw [← hg]
      exact hnot
  · case h_2 hnone => exact fun g hg => absurd (hnone.symm.trans hg) (by simp)

theorem unfired_handle (h : e.Unfired) {event : Event} (hevent : ∀ caller, event ≠ .fire caller) :
    (e.handle event).2.Unfired := by
  cases event with
  | call caller document cell =>
    dsimp only [handle, call]
    split
    · exact h
    · split
      · exact h
      · exact unfired_proceed e _
  | pauseEnd =>
    dsimp only [handle]
    split
    · exact unfired_proceed e _
    · exact h
  | fire caller => exact absurd rfl (hevent caller)
  | notice => exact unfired_notice e
  | drop caller =>
    dsimp only [handle]
    split
    · exact fun f hf => absurd hf (by simp)
    · exact h

theorem handle_notice_of_unfired (h : e.Unfired) : e.handle .notice = (none, e) := by
  dsimp only [handle]
  split
  · case h_1 f hf => rw [if_neg (h f hf)]
  · rfl

/-- Who is answered has just called, or has a run in flight whose pause ends. -/
theorem caller_of_answer {event : Event} {who : Nat} {answer : Answer}
    (h : (e.handle event).1 = some (who, answer)) :
    event.caller? = some who ∨
      event.caller? = none ∧ ∃ f, e.flight = some f ∧ f.caller = who := by
  have hdoes := handle_does e event
  generalize e.handle event = r at hdoes h
  cases hdoes with
  | idle => exact .inl (congrArg some (congrArg Prod.fst (Option.some.inj h)))
  | busy => exact .inl (congrArg some (congrArg Prod.fst (Option.some.inj h)))
  | beganAndEnded => exact .inl (congrArg some (congrArg Prod.fst (Option.some.inj h)))
  | ended isPause before =>
    have hnobody : event.caller? = none := by rcases isPause with rfl | rfl <;> rfl
    exact .inr ⟨hnobody, _, before, congrArg Prod.fst (Option.some.inj h)⟩
  | began | wentOn | dropped | passed => exact absurd h (by simp)

theorem Alike.proceed (h : Alike out e e') {f : Flight} (hf : f.caller ∉ out) :
    (e.proceed f).1 = (e'.proceed f).1 ∧ Alike out (e.proceed f).2 (e'.proceed f).2 := by
  have hfired : (f.caller ∈ e.fired) = (f.caller ∈ e'.fired) := propext (h.fired f.caller hf)
  unfold Engine.proceed
  simp only [hfired, h.world, h.cells]
  split
  · exact ⟨rfl, h.settings, rfl, rfl, rfl, h.fired, by rintro g ⟨⟩; exact hf⟩
  · exact ⟨rfl, h.settings, rfl, rfl, rfl, h.fired, by simp⟩
  · exact ⟨rfl, h.settings, rfl, rfl, rfl, h.fired, by simp⟩

/-- **Alike engines stay alike** when the same happens to both. -/
theorem Alike.handle (h : Alike out e e') {event : Event}
    (hevent : ∀ caller, event.caller? = some caller → caller ∉ out) :
    (e.handle event).1 = (e'.handle event).1 ∧
      Alike out (e.handle event).2 (e'.handle event).2 := by
  cases event with
  | call caller document cell =>
    have hcaller : caller ∉ out := hevent caller rfl
    dsimp only [Engine.handle, Engine.call]
    rw [← h.settings, ← h.isRunning]
    split
    · exact ⟨rfl, h⟩
    · split
      · exact ⟨rfl, h⟩
      · exact h.proceed hcaller
  | pauseEnd =>
    dsimp only [Engine.handle]
    rw [← h.flight]
    split
    · case h_1 f hf => exact h.proceed (h.flies f hf)
    · exact ⟨rfl, h⟩
  | fire caller =>
    refine ⟨rfl, h.settings, h.world, h.cells, h.flight, fun who hwho => ?_, h.flies⟩
    simp only [Engine.handle, List.mem_cons, h.fired who hwho]
  | notice =>
    dsimp only [Engine.handle]
    rw [← h.flight]
    split
    · case h_1 f hf =>
      simp only [h.fired f.caller (h.flies f hf)]
      split
      · exact h.proceed (f := { f with run := f.run.cancel }) (h.flies f hf)
      · exact ⟨rfl, h⟩
    · exact ⟨rfl, h⟩
  | drop caller =>
    have hsame : e.flightOf? caller = e'.flightOf? caller := by
      unfold Engine.flightOf?
      rw [h.flight]
    dsimp only [Engine.handle]
    rw [← hsame]
    split
    · exact ⟨rfl, h.settings, h.world, h.cells, rfl, h.fired, by simp⟩
    · exact ⟨rfl, h⟩

theorem Alike.handle_out (h : Alike out e e') {event : Event} {caller : Nat}
    (hevent : event.caller? = some caller) (hout : caller ∈ out)
    (hcall : ∀ document cell, event = .call caller document cell →
      ∃ cause, (e.handle event).1 = some (caller, .refused cause)) :
    Alike out (e.handle event).2 e' := by
  cases event with
  | call who document cell =>
    obtain ⟨cause, hrefused⟩ := hcall document cell (by rw [← Option.some.inj hevent])
    rw [handle_of_refused hrefused]
    exact h
  | pauseEnd | notice => exact absurd hevent (by simp [Event.caller?])
  | fire who =>
    refine ⟨h.settings, h.world, h.cells, h.flight, fun other hother => ?_, h.flies⟩
    have hne : other ≠ who := by
      rintro rfl
      exact hother (Option.some.inj hevent ▸ hout)
    simp only [Engine.handle, List.mem_cons, hne, false_or, h.fired other hother]
  | drop who =>
    have hnone : e.flightOf? who = none := by
      unfold Engine.flightOf?
      cases hf : e.flight with
      | none => rfl
      | some f =>
        have hne : f.caller ≠ who := fun heq =>
          h.flies f hf (heq ▸ Option.some.inj hevent ▸ hout)
        simp [hne]
    dsimp only [Engine.handle]
    rw [hnone]
    exact h

/-- Who is in flight afterwards was so before, unless the event lets a run proceed. -/
theorem flight_of_handle {event : Event} {f : Flight} (hf : (e.handle event).2.flight = some f)
    (hcall : ∀ caller document cell, event = .call caller document cell → e.isRunning = true)
    (hpause : event ≠ .pauseEnd) : e.isRunning = true := by
  have hdoes := handle_does e event
  generalize e.handle event = r at hdoes hf
  cases hdoes with
  | idle => exact Option.isSome_iff_exists.mpr ⟨f, hf⟩
  | busy _ taken => exact taken
  | began => exact hcall _ _ _ rfl
  | beganAndEnded _ _ flight => exact absurd (flight.symm.trans hf) (by simp)
  | wentOn _ before => exact Option.isSome_iff_exists.mpr ⟨_, before⟩
  | ended _ before => exact Option.isSome_iff_exists.mpr ⟨_, before⟩
  | dropped before => exact Option.isSome_iff_exists.mpr ⟨_, before⟩
  | passed _ flight => exact Option.isSome_iff_exists.mpr ⟨f, flight.symm.trans hf⟩

/-! ### Histories -/

/-- Whatever some callers call for in a history is refused. -/
def AreRefused (out : List Nat) (history : List (Event × Option (Nat × Answer))) : Prop :=
  ∀ x ∈ history, ∀ caller ∈ out, ∀ document cell, x.1 = .call caller document cell →
    ∃ cause, x.2 = some (caller, .refused cause)

theorem handleAll_cons (e : Engine η κ γ σ) (event : Event) (events : List Event) :
    e.handleAll (event :: events) =
      ((event, (e.handle event).1) :: ((e.handle event).2.handleAll events).1,
        ((e.handle event).2.handleAll events).2) := rfl

/-- **Events that are struck out leave the others their answers**, if all calls among them were
refused. -/
theorem Alike.handleAll (events : List Event) :
    ∀ {e e' : Engine η κ γ σ}, Alike out e e' → AreRefused out (e.handleAll events).1 →
      (e'.handleAll (events.filter (·.isApartFrom out))).1 =
          (e.handleAll events).1.filter (·.1.isApartFrom out) ∧
        Alike out (e.handleAll events).2 (e'.handleAll (events.filter (·.isApartFrom out))).2 := by
  induction events with
  | nil =>
    intro e e' h _
    exact ⟨rfl, h⟩
  | cons event events ih =>
    intro e e' h hrefused
    have hlater : AreRefused out ((e.handle event).2.handleAll events).1 :=
      fun x hx => hrefused x (List.mem_cons_of_mem _ hx)
    by_cases hkept : event.isApartFrom out = true
    · obtain ⟨hanswer, hnext⟩ := h.handle (Event.isApartFrom_iff.mp hkept)
      obtain ⟨hhistory, hlast⟩ := ih hnext hlater
      rw [List.filter_cons_of_pos hkept, handleAll_cons, handleAll_cons]
      refine ⟨?_, hlast⟩
      simp only [List.filter_cons, hkept, if_true, hhistory, hanswer]
    · obtain ⟨caller, hcaller, hstruck⟩ :
          ∃ caller, event.caller? = some caller ∧ caller ∈ out := by
        simpa [Event.isApartFrom_iff] using hkept
      have hnext : Alike out (e.handle event).2 e' := by
        refine h.handle_out hcaller hstruck fun document cell heq => ?_
        exact hrefused _ List.mem_cons_self caller hstruck document cell heq
      obtain ⟨hhistory, hlast⟩ := ih hnext hlater
      rw [List.filter_cons_of_neg hkept, handleAll_cons]
      refine ⟨?_, hlast⟩
      simp only [List.filter_cons, hkept, Bool.false_eq_true, if_false, hhistory]

theorem answers_isPrefix {before events : List Event} (h : before <+: events)
    (e : Engine η κ γ σ) : (e.handleAll before).1 <+: (e.handleAll events).1 := by
  induction before generalizing e events with
  | nil => exact List.nil_prefix
  | cons event before ih =>
    obtain ⟨rest, rfl⟩ := h
    refine List.cons_prefix_cons.mpr ⟨rfl, ?_⟩
    exact ih (List.prefix_append before rest) (e.handle event).2

/-- **A history without those who were refused is the same for everyone else**: each of the events
that are left is answered as before, and after each of them the engine looks the same. -/
theorem handleAll_without_refused (settings : Settings) (w : World η κ γ) (cells : List σ)
    {events : List Event}
    (hrefused : AreRefused out ((new settings w cells).handleAll events).1)
    {before : List Event} (hbefore : before <+: events) :
    let whole := (new settings w cells).handleAll before
    let rest := (new settings w cells).handleAll (before.filter (·.isApartFrom out))
    rest.1 = whole.1.filter (·.1.isApartFrom out) ∧ rest.2.view = whole.2.view := by
  have hstart : Alike out (new settings w cells) (new settings w cells) :=
    ⟨rfl, rfl, rfl, rfl, fun _ _ => Iff.rfl, by simp [new]⟩
  obtain ⟨hhistory, hlast⟩ := hstart.handleAll before fun x hx =>
    hrefused x ((answers_isPrefix hbefore _).subset hx)
  exact ⟨hhistory, hlast.view.symm⟩

end Engine

/-! ## Clocks that are alike -/

namespace Clock

/-- Two clocks are alike if their engines are and one has nothing more to tell than what became of
some callers. When a pause is over matters only while there is one. -/
structure Alike (out : List Nat) (c c' : Clock η κ γ σ) : Prop where
  engine : c.engine.Alike out c'.engine
  now : c.now = c'.now
  wake : c.engine.isRunning = true → c.wake = c'.wake
  ended : c'.ended = c.ended.filter (·.caller ∉ out)

variable {out : List Nat} {c c' : Clock η κ γ σ}

theorem Alike.isDue (h : Alike out c c') (limit : Option Nat) : c.isDue limit = c'.isDue limit := by
  unfold Clock.isDue
  rw [← h.engine.isRunning]
  cases hr : c.engine.isRunning with
  | false => rfl
  | true => rw [h.wake hr]

theorem Alike.pausesLeft (h : Alike out c c') : c.pausesLeft = c'.pausesLeft := by
  unfold Clock.pausesLeft
  rw [h.engine.flight]

theorem Alike.endOf? (h : Alike out c c') {caller : Nat} (hcaller : caller ∉ out) :
    c.endOf? caller = c'.endOf? caller := by
  unfold Clock.endOf?
  rw [h.ended, List.find?_filter]
  congr 1
  funext x
  by_cases hx : x.caller = caller
  · simp [hx, hcaller]
  · simp [hx]

theorem Alike.setNow (h : Alike out c c') (now : Nat) : Alike out { c with now } { c' with now } :=
  ⟨h.engine, rfl, h.wake, h.ended⟩

variable [Host η] [KeyValueStore κ] [ColorSource γ] [Sink σ]

theorem isRunning_of_happen {event : Event} (hbegins : c.beginsPause event = false)
    (h : (c.happen event).engine.isRunning = true) : c.engine.isRunning = true := by
  obtain ⟨f, hf⟩ := Option.isSome_iff_exists.mp h
  refine Engine.flight_of_handle (e := c.engine) hf ?_ ?_
  · rintro caller document cell rfl
    simpa [beginsPause] using hbegins
  · rintro rfl
    exact absurd hbegins (by simp [beginsPause])

/-- **Alike clocks stay alike** when the same happens at both. -/
theorem Alike.happen (h : Alike out c c') {event : Event}
    (hevent : ∀ caller, event.caller? = some caller → caller ∉ out) :
    Alike out (c.happen event) (c'.happen event) := by
  obtain ⟨hanswer, hengine⟩ := h.engine.handle hevent
  have hbegins : c.beginsPause event = c'.beginsPause event := by
    cases event with
    | call _ _ _ => simp only [beginsPause, h.engine.isRunning]
    | pauseEnd | fire _ | notice | drop _ => rfl
  refine ⟨hengine, h.now, fun hrunning => ?_, ?_⟩
  · show (if c.beginsPause event = true then _ else c.wake) =
      if c'.beginsPause event = true then _ else c'.wake
    -- A pause that begins is as long at both; one that goes on was there before.
    rw [← hbegins, h.now, h.engine.settings]
    cases hb : c.beginsPause event with
    | true => rfl
    | false => exact h.wake (isRunning_of_happen hb hrunning)
  · show c'.ended ++ ((c'.engine.handle event).1.map _).toList =
      (c.ended ++ ((c.engine.handle event).1.map _).toList).filter _
    rw [List.filter_append, ← h.ended, ← hanswer, h.now]
    cases ha : (c.engine.handle event).1 with
    | none => rfl
    | some answer =>
      obtain ⟨who, answer⟩ := answer
      have hwho : who ∉ out := by
        rcases Engine.caller_of_answer ha with hcall | ⟨-, f, hf, hwho⟩
        · exact hevent _ hcall
        · exact hwho ▸ h.engine.flies f hf
      simp [hwho]

theorem Alike.happen_out (h : Alike out c c') {event : Event} {caller : Nat}
    (hevent : event.caller? = some caller) (hout : caller ∈ out)
    (hcall : ∀ document cell, event = .call caller document cell →
      ∃ cause, (c.engine.handle event).1 = some (caller, .refused cause)) :
    Alike out (c.happen event) c' := by
  have hengine := h.engine.handle_out hevent hout hcall
  refine ⟨hengine, h.now, fun hrunning => ?_, ?_⟩
  · show (if c.beginsPause event = true then _ else c.wake) = c'.wake
    -- A call that finds nothing in flight moves the end of a pause that is not there.
    have hbefore : c.engine.isRunning = true := by
      rw [h.engine.isRunning, ← hengine.isRunning]
      exact hrunning
    have hbegins : c.beginsPause event = false := by
      cases event with
      | call _ _ _ => simp [beginsPause, hbefore]
      | pauseEnd => exact absurd hevent (by simp [Event.caller?])
      | fire _ | notice | drop _ => rfl
    rw [hbegins]
    exact h.wake hbefore
  · show c'.ended = (c.ended ++ ((c.engine.handle event).1.map _).toList).filter _
    rw [List.filter_append, ← h.ended]
    cases ha : (c.engine.handle event).1 with
    | none => simp
    | some answer =>
      obtain ⟨who, answer⟩ := answer
      have hwho : who ∈ out := by
        rcases Engine.caller_of_answer ha with hcall' | ⟨hnobody, -⟩
        · rw [← Option.some.inj (hevent.symm.trans hcall')]
          exact hout
        · exact absurd (hevent.symm.trans hnobody) (by simp)
      simp [hwho]

theorem Alike.endPauses (h : Alike out c c') (limit : Option Nat) (fuel : Nat) :
    Alike out (c.endPauses limit fuel) (c'.endPauses limit fuel) := by
  induction fuel generalizing c c' with
  | zero => exact h
  | succ fuel ih =>
    rw [endPauses_succ, endPauses_succ, ← h.isDue]
    cases hdue : c.isDue limit with
    | false => exact h
    | true =>
      have hwake : c.wake = c'.wake := h.wake (isRunning_of_isDue hdue)
      have hend : Alike out c.endPause c'.endPause := by
        unfold endPause
        rw [← hwake]
        exact (h.setNow c.wake).happen (by simp [Event.caller?])
      exact ih hend

theorem Alike.advance (h : Alike out c c') (time : Nat) :
    Alike out (c.advance time) (c'.advance time) := by
  unfold Clock.advance
  rw [← h.pausesLeft]
  exact (h.endPauses _ _).setNow time

theorem Alike.finish (h : Alike out c c') : Alike out c.finish c'.finish := by
  unfold Clock.finish
  rw [← h.pausesLeft]
  exact h.endPauses _ _

theorem unfired_happen (h : c.engine.Unfired) {event : Event}
    (hevent : ∀ caller, event ≠ .fire caller) : (c.happen event).engine.Unfired :=
  Engine.unfired_handle h hevent

theorem unfired_endPauses (h : c.engine.Unfired) (limit : Option Nat) (fuel : Nat) :
    (c.endPauses limit fuel).engine.Unfired := by
  induction fuel generalizing c with
  | zero => exact h
  | succ fuel ih =>
    rw [endPauses_succ]
    split
    · exact ih (unfired_happen (c := { c with now := c.wake }) h (by simp))
    · exact h

theorem unfired_advance (h : c.engine.Unfired) (time : Nat) : (c.advance time).engine.Unfired :=
  unfired_endPauses h _ _

theorem unfired_happenAt (h : c.engine.Unfired) (time : Nat) (event : Event) :
    (c.happenAt time event).engine.Unfired := by
  have hadvance := unfired_advance h time
  cases event with
  | call caller document cell =>
    dsimp only [happenAt]
    split
    · exact hadvance
    · exact unfired_advance (unfired_happen hadvance (by simp)) time
  | drop caller =>
    dsimp only [happenAt]
    split
    · exact hadvance
    · show ((c.advance time).happen (.drop caller)).engine.Unfired
      exact unfired_happen hadvance (by simp)
  | fire caller => exact unfired_advance (Engine.unfired_notice _) time
  | pauseEnd | notice => exact unfired_advance (unfired_happen hadvance (by simp)) time

theorem now_happenAt (c : Clock η κ γ σ) (time : Nat) (event : Event) :
    (c.happenAt time event).now = time := by
  cases event with
  | call caller document cell =>
    dsimp only [happenAt]
    split <;> rfl
  | drop caller =>
    dsimp only [happenAt]
    split <;> rfl
  | fire caller | pauseEnd | notice => rfl

theorem Alike.happenAt {time : Nat} (h : Alike out (c.advance time) (c'.advance time))
    {event : Event} (hevent : ∀ caller, event.caller? = some caller → caller ∉ out) :
    Alike out (c.happenAt time event) (c'.happenAt time event) := by
  cases event with
  | call caller document cell =>
    dsimp only [Clock.happenAt]
    rw [← h.endOf? (hevent caller rfl)]
    split
    · exact h
    · exact (h.happen hevent).advance time
  | drop caller =>
    dsimp only [Clock.happenAt]
    rw [← h.endOf? (hevent caller rfl)]
    split
    · exact h
    · obtain ⟨hengine, hnow, hwake, hended⟩ := h.happen hevent
      refine ⟨hengine, hnow, hwake, ?_⟩
      simp [hended, List.filter_append, hevent caller rfl]
  | fire caller => exact ((h.happen hevent).happen (by simp [Event.caller?])).advance time
  | pauseEnd | notice => exact (h.happen hevent).advance time

/-- **What is left out happens at one clock only**, while the other one lets time pass. -/
theorem Alike.happenAt_out {time : Nat} (h : Alike out (c.advance time) (c'.advance time))
    (hstep : c'.engine.InStep) (hunfired : c.engine.Unfired) {event : Event} {caller : Nat}
    (hevent : event.caller? = some caller) (hout : caller ∈ out)
    (hcall : ∀ document cell, event = .call caller document cell →
      ∃ cause, ((c.advance time).engine.handle event).1 = some (caller, .refused cause)) :
    Alike out (c.happenAt time event) (c'.advance time) := by
  have hagain : (c'.advance time).advance time = c'.advance time :=
    advance_advance hstep (Nat.le_refl time)
  have hhappen := h.happen_out hevent hout hcall
  cases event with
  | call who document cell =>
    dsimp only [Clock.happenAt]
    split
    · exact h
    · rw [← hagain]
      exact hhappen.advance time
  | drop who =>
    dsimp only [Clock.happenAt]
    split
    · exact h
    · obtain ⟨hengine, hnow, hwake, hended⟩ := hhappen
      have hwho : who ∈ out := Option.some.inj hevent ▸ hout
      refine ⟨hengine, hnow, hwake, ?_⟩
      simp [hended, List.filter_append, hwho]
  | fire who =>
    -- Who is in flight is somebody else, who has not cancelled, so there is nothing to notice.
    have hwho : who ∈ out := Option.some.inj hevent ▸ hout
    have hstill : ((c.advance time).happen (.fire who)).engine.Unfired := by
      intro f hf
      have hf : (c.advance time).engine.flight = some f := hf
      have hne : f.caller ≠ who := fun heq => h.engine.flies f hf (heq ▸ hwho)
      have hbefore := unfired_advance hunfired time f hf
      show f.caller ∉ who :: (c.advance time).engine.fired
      simp [hne, hbefore]
    have hidle : ((c.advance time).happen (.fire who)).happen .notice =
        (c.advance time).happen (.fire who) := by
      conv_lhs => rw [Clock.happen, Engine.handle_notice_of_unfired hstill]
      simp [beginsPause]
    show Alike out ((((c.advance time).happen (.fire who)).happen .notice).advance time) _
    rw [hidle, ← hagain]
    exact hhappen.advance time
  | pauseEnd | notice => exact absurd hevent (by simp [Event.caller?])

/-- What agrees at two clocks of which the second stands still while what is left out happens at
the first: whatever both come to when time passes. -/
structure Trails (out : List Nat) (c c' : Clock η κ γ σ) : Prop where
  alike : ∀ time, c.now ≤ time → Alike out (c.advance time) (c'.advance time)
  inStep : c.engine.InStep
  inStep_other : c'.engine.InStep
  unfired : c.engine.Unfired

theorem Trails.of_alike (h : Alike out c c') (hstep : c.engine.InStep)
    (hstep' : c'.engine.InStep) (hunfired : c.engine.Unfired) : Trails out c c' :=
  ⟨fun time _ => h.advance time, hstep, hstep', hunfired⟩

theorem Trails.advance (h : Trails out c c') {time : Nat} (hnow : c.now ≤ time) :
    Trails out (c.advance time) (c'.advance time) :=
  .of_alike (h.alike time hnow) (inStep_advance h.inStep time) (inStep_advance h.inStep_other time)
    (unfired_advance h.unfired time)

theorem Trails.happenAt (h : Trails out c c') {time : Nat} (hnow : c.now ≤ time) {event : Event}
    (hevent : ∀ caller, event.caller? = some caller → caller ∉ out) :
    Trails out (c.happenAt time event) (c'.happenAt time event) :=
  .of_alike ((h.alike time hnow).happenAt hevent) (inStep_happenAt h.inStep time event)
    (inStep_happenAt h.inStep_other time event) (unfired_happenAt h.unfired time event)

theorem Trails.happenAt_out (h : Trails out c c') {time : Nat} (hnow : c.now ≤ time)
    {event : Event} {caller : Nat} (hevent : event.caller? = some caller) (hout : caller ∈ out)
    (hcall : ∀ document cell, event = .call caller document cell →
      ∃ cause, ((c.advance time).engine.handle event).1 = some (caller, .refused cause)) :
    Trails out (c.happenAt time event) c' := by
  refine ⟨fun later hlater => ?_, inStep_happenAt h.inStep time event, h.inStep_other,
    unfired_happenAt h.unfired time event⟩
  have hle : time ≤ later := by simpa only [now_happenAt] using hlater
  have halike := (h.alike time hnow).happenAt_out h.inStep_other h.unfired hevent hout hcall
  rw [← advance_advance h.inStep_other hle]
  exact halike.advance later

/-- In the end nothing tells the two apart but what became of those who are left out. -/
theorem Trails.finish (h : Trails out c c') :
    c.finish.engine.view = c'.finish.engine.view ∧
      c'.finish.ended = c.finish.ended.filter (·.caller ∉ out) := by
  have halike := (h.alike c.now (Nat.le_refl _)).finish.setNow 0
  rw [finish_advance h.inStep, finish_advance h.inStep_other] at halike
  exact ⟨halike.engine.view, halike.ended⟩

/-! ## Refusals -/

omit [Host η] [KeyValueStore κ] [ColorSource γ] [Sink σ] in
def refused (c : Clock η κ γ σ) : List Nat :=
  c.ended.filterMap fun x =>
    match x.answer with
    | some (.refused _) => some x.caller
    | _ => none

theorem mem_refused_happen {event : Event} {who : Nat} (h : who ∈ (c.happen event).refused) :
    who ∈ c.refused ∨ ∃ cause, (c.engine.handle event).1 = some (who, .refused cause) := by
  have hended : (c.happen event).ended =
      c.ended ++ ((c.engine.handle event).1.map fun a => ⟨a.1, c.now, some a.2⟩).toList := rfl
  unfold refused at h ⊢
  rw [hended, List.filterMap_append, List.mem_append] at h
  refine h.imp_right fun hnew => ?_
  cases ha : (c.engine.handle event).1 with
  | none =>
    rw [ha] at hnew
    exact absurd hnew (by simp)
  | some a =>
    obtain ⟨caller, answer⟩ := a
    rw [ha] at hnew
    cases answer with
    | ended outcome => exact absurd hnew (by simp)
    | refused cause =>
      have hwho : who = caller := by simpa using hnew
      exact ⟨cause, by rw [hwho]⟩

/-- Only a call is refused, and only to its caller. -/
theorem eq_call_of_refused {e : Engine η κ γ σ} {event : Event} {who : Nat} {cause : Failure}
    (h : (e.handle event).1 = some (who, .refused cause)) :
    ∃ document cell, event = .call who document cell := by
  have hdoes := Engine.handle_does e event
  generalize e.handle event = r at hdoes h
  cases hdoes with
  | @idle caller document cell | @busy caller document cell =>
    have hwho : caller = who := congrArg Prod.fst (Option.some.inj h)
    exact ⟨document, cell, by rw [hwho]⟩
  | began | beganAndEnded | wentOn | ended | dropped | passed => exact absurd h (by simp)

theorem mem_refused_of_happen {event : Event} {who : Nat}
    (hevent : ∀ document cell, event ≠ .call who document cell)
    (h : who ∈ (c.happen event).refused) : who ∈ c.refused := by
  refine (mem_refused_happen h).resolve_right fun ⟨cause, hrefused⟩ => ?_
  obtain ⟨document, cell, heq⟩ := eq_call_of_refused hrefused
  exact hevent document cell heq

/-- Time refuses nobody. -/
theorem mem_refused_of_endPauses {limit : Option Nat} {fuel who : Nat}
    (h : who ∈ (c.endPauses limit fuel).refused) : who ∈ c.refused := by
  induction fuel generalizing c with
  | zero => exact h
  | succ fuel ih =>
    rw [endPauses_succ] at h
    split at h
    · exact mem_refused_of_happen (c := { c with now := c.wake }) (by simp) (ih h)
    · exact h

theorem mem_refused_of_advance {time who : Nat} (h : who ∈ (c.advance time).refused) :
    who ∈ c.refused := by
  have hpauses : who ∈ (c.endPauses (some time) c.pausesLeft).refused := h
  exact mem_refused_of_endPauses hpauses

/-- **Who is refused at a moment** makes the call at that moment and is refused by the engine that
it finds. -/
theorem mem_refused_happenAt {time : Nat} {event : Event} {who : Nat}
    (h : who ∈ (c.happenAt time event).refused) :
    who ∈ c.refused ∨ (∃ document cell, event = .call who document cell) ∧
      ∃ cause, ((c.advance time).engine.handle event).1 = some (who, .refused cause) := by
  cases event with
  | call caller document cell =>
    dsimp only [happenAt] at h
    split at h
    · exact .inl (mem_refused_of_advance h)
    · rcases mem_refused_happen (mem_refused_of_advance h) with hbefore | ⟨cause, hrefused⟩
      · exact .inl (mem_refused_of_advance hbefore)
      · exact .inr ⟨eq_call_of_refused hrefused, cause, hrefused⟩
  | drop caller =>
    dsimp only [happenAt] at h
    split at h
    · exact .inl (mem_refused_of_advance h)
    · have hdropped : who ∈ ((c.advance time).happen (.drop caller)).refused := by
        unfold refused at h ⊢
        simpa [List.filterMap_append] using h
      exact .inl (mem_refused_of_advance (mem_refused_of_happen (by simp) hdropped))
  | fire caller =>
    have hfired := mem_refused_of_happen (by simp) (mem_refused_of_advance h)
    exact .inl (mem_refused_of_advance (mem_refused_of_happen (by simp) hfired))
  | pauseEnd | notice =>
    exact .inl (mem_refused_of_advance (mem_refused_of_happen (by simp) (mem_refused_of_advance h)))

end Clock

/-! ## Plans that are alike -/

namespace Schedule

variable [Host η] [KeyValueStore κ] [ColorSource γ] [Sink σ] {out : List Nat}

def Observation.view (o : Observation η κ γ σ) : Nat × Engine η κ γ σ :=
  (o.time, o.engine.view)

theorem mem_refused_playMoments {ms : List Moment} {c : Clock η κ γ σ} {who : Nat}
    (h : who ∈ (playMoments ms c).2.refused) : who ∈ c.refused ∨ who ∈ callers ms := by
  induction ms generalizing c with
  | nil => exact .inl h
  | cons m ms ih =>
    obtain ⟨time, _ | event⟩ := m
    · exact (ih (c := c.advance time) h).imp_left Clock.mem_refused_of_advance
    · rcases ih (c := c.happenAt time event) h with hnow | hmem
      · rcases Clock.mem_refused_happenAt hnow with hbefore | ⟨⟨document, cell, rfl⟩, -⟩
        · exact .inl hbefore
        · exact .inr (by simp [callers_cons_call])
      · exact .inr (((List.sublist_cons_self (time, some event) ms).filterMap _).subset hmem)

/-- **What is left of the moments shows the same**, if of the calls that are struck out all are
refused. -/
theorem playMoments_apartFrom (ms : List Moment) {c c' : Clock η κ γ σ}
    (hinOrder : ms.Pairwise fun m n => m.1 ≤ n.1) (hnow : ∀ m ∈ ms, c.now ≤ m.1)
    (honce : (callers ms).Nodup) (h : c.Trails out c')
    (hout : ∀ who ∈ out, who ∈ callers ms →
      who ∉ c.refused ∧ who ∈ (playMoments ms c).2.refused) :
    (playMoments ms c).1.map Observation.view =
        (playMoments (ms.filter (·.isApartFrom out)) c').1.map Observation.view ∧
      (playMoments ms c).2.Trails out (playMoments (ms.filter (·.isApartFrom out)) c').2 := by
  induction ms generalizing c c' with
  | nil => exact ⟨rfl, h⟩
  | cons m ms ih =>
    obtain ⟨hfirst, hrest⟩ := List.pairwise_cons.mp hinOrder
    have hle := hnow m (by simp)
    obtain ⟨time, _ | event⟩ := m
    · -- Someone looks.
      have hkept : Moment.isApartFrom out (time, none) = true := rfl
      rw [List.filter_cons_of_pos hkept]
      obtain ⟨hseen, hlast⟩ := ih hrest (fun n hn => hfirst n hn) honce (h.advance hle)
        fun who hwho hcalls => (hout who hwho hcalls).imp_left
          fun hnot hrefused => hnot (Clock.mem_refused_of_advance hrefused)
      have hview := (h.alike time hle).engine.view
      refine ⟨?_, hlast⟩
      simp only [playMoments, List.map_cons, Observation.view, hview] at hseen ⊢
      exact congrArg _ hseen
    · have hfrom : ∀ n ∈ ms, (c.happenAt time event).now ≤ n.1 := fun n hn => by
        rw [Clock.now_happenAt]
        exact hfirst n hn
      have hcallers : (callers ms).Nodup :=
        honce.sublist ((List.sublist_cons_self (time, some event) ms).filterMap _)
      have hmore : ∀ who, who ∈ callers ms → who ∈ callers ((time, some event) :: ms) := fun who =>
        fun hmem => ((List.sublist_cons_self (time, some event) ms).filterMap _).subset hmem
      -- Who calls now does not call again.
      have hnever : ∀ who document cell, event = .call who document cell → who ∉ callers ms := by
        rintro who document cell rfl hmem
        exact (List.nodup_cons.mp (show (who :: callers ms).Nodup from honce)).1 hmem
      have hlater : ∀ who ∈ out, who ∈ callers ms → who ∉ (c.happenAt time event).refused ∧
          who ∈ (playMoments ms (c.happenAt time event)).2.refused := by
        intro who hwho hcalls
        obtain ⟨hnot, hrefused⟩ := hout who hwho (hmore who hcalls)
        refine ⟨fun hnow => ?_, hrefused⟩
        rcases Clock.mem_refused_happenAt hnow with hbefore | ⟨⟨document, cell, heq⟩, -⟩
        · exact hnot hbefore
        · exact hnever who document cell heq hcalls
      by_cases hkept : Moment.isApartFrom out (time, some event) = true
      · rw [List.filter_cons_of_pos hkept]
        exact ih hrest hfrom hcallers (h.happenAt hle (Moment.isApartFrom_iff.mp hkept)) hlater
      · rw [List.filter_cons_of_neg hkept]
        obtain ⟨caller, hcaller, hstruck⟩ :
            ∃ caller, event.caller? = some caller ∧ caller ∈ out := by
          simpa [Moment.isApartFrom_iff] using hkept
        refine ih hrest hfrom hcallers (h.happenAt_out hle hcaller hstruck ?_) hlater
        -- Who is refused in the end is refused here, since nobody calls twice.
        rintro document cell rfl
        obtain ⟨hnot, hrefused⟩ := hout caller hstruck (by simp [callers_cons_call])
        have hnow := (mem_refused_playMoments (c := c.happenAt time _) hrefused).resolve_right
          (hnever caller document cell rfl)
        exact ((Clock.mem_refused_happenAt hnow).resolve_left hnot).2

theorem startAfter_eq (fired : List Nat) (e : Engine η κ γ σ) :
    startAfter fired e = ⟨{ e with fired := fired.reverse }, 0, 0, []⟩ := by
  unfold startAfter
  induction fired using List.reverseRecOn with
  | nil => rfl
  | append_singleton fired caller ih =>
    rw [List.foldl_append, ih]
    simp [Clock.happen, Engine.handle, Clock.beginsPause]

/-- Before anything is played, who is left out has at most cancelled. -/
theorem trails_startAfter (fired out : List Nat) (settings : Settings) (w : World η κ γ)
    (cells : List σ) :
    (startAfter fired (Engine.new settings w cells)).Trails out
      (startAfter (fired.filter (· ∉ out)) (Engine.new settings w cells)) := by
  rw [startAfter_eq, startAfter_eq]
  refine .of_alike ⟨⟨rfl, rfl, rfl, rfl, fun who hwho => ?_, ?_⟩, rfl, fun _ => rfl, rfl⟩ ?_ ?_ ?_
  · simp [hwho]
  all_goals exact fun f hf => absurd hf (by simp [Engine.new])

/-- **Striking out what was refused changes nothing else.** Of everyone else it is told as before
how and when their calls ended, and whoever looks, whenever they look, sees the same. A call that is
refused leaves the whole engine as it finds it, the cell it was to be shown in included. -/
theorem Plan.play_without_refused (p : Plan) (settings : Settings) (w : World η κ γ)
    (cells : List σ) :
    let whole := p.play (Engine.new settings w cells)
    let rest := (p.without whole.2.refused).play (Engine.new settings w cells)
    rest.1.map Observation.view = whole.1.map Observation.view ∧
      rest.2.ended = whole.2.ended.filter (·.caller ∉ whole.2.refused) ∧
      rest.2.engine.view = whole.2.engine.view ∧
      ∀ (e : Engine η κ γ σ) (event : Event) (caller : Nat) (cause : Failure),
        (e.handle event).1 = some (caller, .refused cause) → (e.handle event).2 = e := by
  intro whole rest
  have hstart : startAfter p.beforehand (Engine.new settings w cells) =
      ⟨{ Engine.new settings w cells with fired := p.beforehand.reverse }, 0, 0, []⟩ :=
    startAfter_eq p.beforehand _
  have hrefused : ∀ who ∈ whole.2.refused, who ∈ callers p.moments →
      who ∉ (startAfter p.beforehand (Engine.new settings w cells)).refused ∧
        who ∈ (playMoments p.moments
          (startAfter p.beforehand (Engine.new settings w cells))).2.refused := by
    refine fun who hwho _ => ⟨?_, Clock.mem_refused_of_endPauses hwho⟩
    rw [hstart]
    exact List.not_mem_nil
  obtain ⟨hseen, hlast⟩ := playMoments_apartFrom p.moments p.inOrder
    (fun m _ => by rw [hstart]; exact Nat.zero_le m.1) p.once
    (trails_startAfter p.beforehand whole.2.refused settings w cells) hrefused
  obtain ⟨hview, hended⟩ := hlast.finish
  exact ⟨hseen.symm, hended, hview.symm, fun e event caller cause h => Engine.handle_of_refused h⟩

-- Who calls while a run is in flight into the same cell is refused, and so is who has nothing to run.
example :
    let d : Document := ⟨"Go", [⟨"1", "showText", "", some "one"⟩]⟩
    let p : Plan :=
      ⟨[2], [(0, some (.call 0 (some d) 0)), (10, some (.call 1 (some d) 0)),
        (20, some (.call 2 none 0)), (30, some (.drop 1))], by decide, by decide⟩
    let e : Engine ScriptedHost MemoryStore Palette Presentation :=
      .new .default ⟨.withAnswers [], .empty, .ofList []⟩ [.initial]
    (p.play e).2.refused = [1, 2] := by
  decide +kernel

end Schedule
end TriggerFlow
