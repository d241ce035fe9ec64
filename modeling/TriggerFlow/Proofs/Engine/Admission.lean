import TriggerFlow.Engine
import TriggerFlow.Proofs.Run.Steps

/-!
# Who is admitted

An engine answers calls, and from its answers alone everyone can tell which calls are under way: a
call that was not answered at once is, until it is answered or its caller goes away. `openCalls`
reads this off a history and never looks at the engine. The engine, for its part, only knows
whether a run is in flight. **The two agree after every history**, in whatever order calls, ends of
pauses, cancellations and departures come, so at most one call is ever under way, and what a call is
answered depends on its document and on that alone.

Everything is derived from `Does`, which says once what an event can come to.
-/

set_option autoImplicit false

namespace TriggerFlow

variable {η κ γ σ : Type}

namespace Event

/-- A call with something to run. -/
def isRunnableCall : Event → Bool
  | .call _ document _ => (document.getD .empty).isRunnable
  | .pauseEnd | .fire _ | .notice | .drop _ => false

end Event

namespace Engine

/-- What an event can come to. -/
inductive Does (e : Engine η κ γ σ) : Event → Reply η κ γ σ → Prop where
  | idle {caller : Nat} {document : Option Document} {cell : Nat}
      (blank : (document.getD .empty).isRunnable = false) :
      Does e (.call caller document cell) (some (caller, .refused .noActions), e)
  | busy {caller : Nat} {document : Option Document} {cell : Nat}
      (runnable : (document.getD .empty).isRunnable = true) (taken : e.flight.isSome = true) :
      Does e (.call caller document cell) (some (caller, .refused .runInProgress), e)
  /-- A call that is admitted and gets as far as a pause. -/
  | began {caller : Nat} {document : Option Document} {cell : Nat} {e' : Engine η κ γ σ}
      {f : Flight} (runnable : (document.getD .empty).isRunnable = true)
      (free : e.flight = none) (flight : e'.flight = some f) (who : f.caller = caller) :
      Does e (.call caller document cell) (none, e')
  /-- A call that is admitted and ends before any pause. -/
  | beganAndEnded {caller : Nat} {document : Option Document} {cell : Nat} {e' : Engine η κ γ σ}
      {outcome : Outcome} (runnable : (document.getD .empty).isRunnable = true)
      (free : e.flight = none) (flight : e'.flight = none) :
      Does e (.call caller document cell) (some (caller, .ended outcome), e')
  /-- The run in flight goes on to its next pause. -/
  | wentOn {event : Event} {e' : Engine η κ γ σ} {f f' : Flight}
      (isPause : event = .pauseEnd ∨ event = .notice) (before : e.flight = some f)
      (flight : e'.flight = some f') (who : f'.caller = f.caller) :
      Does e event (none, e')
  | ended {event : Event} {e' : Engine η κ γ σ} {f : Flight} {outcome : Outcome}
      (isPause : event = .pauseEnd ∨ event = .notice) (before : e.flight = some f)
      (flight : e'.flight = none) :
      Does e event (some (f.caller, .ended outcome), e')
  | dropped {e' : Engine η κ γ σ} {f : Flight} (before : e.flight = some f)
      (flight : e'.flight = none) : Does e (.drop f.caller) (none, e')
  /-- Nothing happens to a run. -/
  | passed {event : Event} {e' : Engine η κ γ σ}
      (notCall : ∀ caller document cell, event ≠ .call caller document cell)
      (flight : e'.flight = e.flight)
      (notDrop : ∀ f, e.flight = some f → event ≠ .drop f.caller) :
      Does e event (none, e')

theorem isRunning_of_flight {e : Engine η κ γ σ} {f : Flight} (h : e.flight = some f) :
    e.isRunning = true := by
  unfold isRunning
  rw [h]
  rfl

theorem isRunning_of_free {e : Engine η κ γ σ} (h : e.flight = none) : e.isRunning = false := by
  unfold isRunning
  rw [h]
  rfl

variable [Host η] [KeyValueStore κ] [ColorSource γ] [Sink σ]

/-- A run that is let go on comes to a pause or to its end, and stays its caller's. -/
theorem proceed_cases (e : Engine η κ γ σ) (f : Flight) :
    (∃ e' f', e.proceed f = (none, e') ∧ e'.flight = some f' ∧ f'.caller = f.caller) ∨
      ∃ e' outcome, e.proceed f = (some (f.caller, .ended outcome), e') ∧ e'.flight = none := by
  unfold proceed
  dsimp only
  split
  · exact .inl ⟨_, _, rfl, rfl, rfl⟩
  · exact .inr ⟨_, _, rfl, rfl⟩
  · exact .inr ⟨_, _, rfl, rfl⟩

theorem call_does (e : Engine η κ γ σ) (caller : Nat) (document : Option Document) (cell : Nat) :
    e.Does (.call caller document cell) (e.call caller document cell) := by
  unfold call
  cases hd : (document.getD .empty).isRunnable with
  | false =>
    rw [Run.start_of_not_isRunnable hd]
    exact .idle hd
  | true =>
    rw [Run.start_of_isRunnable hd]
    dsimp only
    cases hf : e.flight with
    | some f =>
      rw [if_pos (isRunning_of_flight hf)]
      exact .busy hd (by rw [hf]; rfl)
    | none =>
      rw [if_neg (by simp [isRunning_of_free hf])]
      rcases proceed_cases e ⟨caller, cell, ⟨(document.getD .empty).actions, e.settings.mode,
        .idle, 0, []⟩, 0⟩ with ⟨e', f', heq, hflight, hwho⟩ | ⟨e', outcome, heq, hflight⟩
      · rw [heq]
        exact .began hd hf hflight hwho
      · rw [heq]
        exact .beganAndEnded hd hf hflight

theorem proceed_does (e : Engine η κ γ σ) {event : Event} {f g : Flight}
    (isPause : event = .pauseEnd ∨ event = .notice) (before : e.flight = some f)
    (who : g.caller = f.caller) : e.Does event (e.proceed g) := by
  rcases proceed_cases e g with ⟨e', f', heq, hflight, hwho⟩ | ⟨e', outcome, heq, hflight⟩
  · rw [heq]
    exact .wentOn isPause before hflight (hwho.trans who)
  · rw [heq, who]
    exact .ended isPause before hflight

omit [Host η] [KeyValueStore κ] [ColorSource γ] [Sink σ] in
theorem flightOf?_eq {e : Engine η κ γ σ} {f : Flight} (hf : e.flight = some f) (caller : Nat) :
    e.flightOf? caller = if f.caller = caller then some f else none := by
  unfold flightOf?
  rw [hf, Option.filter_some]
  simp only [decide_eq_true_eq]

/-- **What an event can come to.** -/
theorem handle_does (e : Engine η κ γ σ) (event : Event) : e.Does event (e.handle event) := by
  cases event with
  | call caller document cell => exact call_does e caller document cell
  | fire caller => exact .passed (by simp) rfl (by simp)
  | pauseEnd =>
    unfold handle
    cases hf : e.flight with
    | none => exact .passed (by simp) rfl (by simp [hf])
    | some f => exact proceed_does e (.inl rfl) hf rfl
  | notice =>
    unfold handle
    cases hf : e.flight with
    | none => exact .passed (by simp) rfl (by simp [hf])
    | some f =>
      dsimp only
      by_cases hfired : f.caller ∈ e.fired
      · rw [if_pos hfired]
        exact proceed_does e (.inr rfl) hf rfl
      · rw [if_neg hfired]
        exact .passed (by simp) rfl (by simp)
  | drop caller =>
    dsimp only [handle]
    cases hf : e.flight with
    | none =>
      have hnone : e.flightOf? caller = none := by unfold flightOf?; rw [hf]; rfl
      rw [hnone]
      exact .passed (by simp) rfl (by simp [hf])
    | some f =>
      rw [flightOf?_eq hf]
      by_cases hwho : f.caller = caller
      · rw [if_pos hwho, ← hwho]
        exact .dropped hf rfl
      · rw [if_neg hwho]
        refine .passed (by simp) rfl fun g hg heq => hwho ?_
        rw [hf, Option.some.injEq] at hg
        rw [hg, Event.drop.inj heq]

/-! ## Histories -/

/-- Lets events happen one after the other and notes what each of them brought. -/
def handleAll (e : Engine η κ γ σ) :
    List Event → List (Event × Option (Nat × Answer)) × Engine η κ γ σ
  | [] => ([], e)
  | event :: events =>
    let (answer, e) := e.handle event
    let (history, e) := e.handleAll events
    ((event, answer) :: history, e)

end Engine

/-- Which calls are under way after something more has happened: a call that is not answered at once
comes in, and one goes out that has ended or whose caller has gone away. -/
def openAfter (calls : List Nat) : Event × Option (Nat × Answer) → List Nat
  | (.call caller _ _, none) => caller :: calls
  | (.drop caller, _) => calls.filter (· ≠ caller)
  | (_, some (caller, .ended _)) => calls.filter (· ≠ caller)
  | _ => calls

/-- The calls that are under way after a history: admitted, not ended and not given up. -/
def openCalls (history : List (Event × Option (Nat × Answer))) : List Nat :=
  history.foldl openAfter []

namespace Engine

def callers (e : Engine η κ γ σ) : List Nat :=
  (e.flight.map (·.caller)).toList

theorem callers_eq_nil_iff {e : Engine η κ γ σ} : e.callers = [] ↔ e.flight = none := by
  unfold callers
  cases e.flight <;> simp

/-- **One event keeps history and engine in step.** -/
theorem openAfter_callers {e : Engine η κ γ σ} {event : Event} {r : Reply η κ γ σ}
    (h : e.Does event r) : openAfter e.callers (event, r.1) = r.2.callers := by
  cases h with
  | idle => rfl
  | busy => rfl
  | began _ free flight who => simp [openAfter, callers, free, flight, who]
  | beganAndEnded _ free flight => simp [openAfter, callers, free, flight]
  | wentOn isPause before flight who =>
    rcases isPause with rfl | rfl <;> simp [openAfter, callers, before, flight, who]
  | ended isPause before flight =>
    rcases isPause with rfl | rfl <;> simp [openAfter, callers, before, flight]
  | dropped before flight => simp [openAfter, callers, before, flight]
  | @passed _ e' notCall flight notDrop =>
    -- What is in flight stays; of the events that come here only a departure reads the list.
    have hsame : e'.callers = e.callers := by unfold callers; rw [flight]
    rw [hsame]
    cases event with
    | call caller document cell => exact absurd rfl (notCall caller document cell)
    | pauseEnd | fire _ | notice => rfl
    | drop caller =>
      unfold callers
      cases hf : e.flight with
      | none => rfl
      | some f =>
        have hne : f.caller ≠ caller := fun heq => notDrop f hf (by rw [heq])
        simp [openAfter, hne]

variable [Host η] [KeyValueStore κ] [ColorSource γ] [Sink σ]

theorem foldl_openAfter (e : Engine η κ γ σ) (events : List Event) :
    (e.handleAll events).1.foldl openAfter e.callers = (e.handleAll events).2.callers := by
  induction events generalizing e with
  | nil => rfl
  | cons event events ih =>
    have hstep := openAfter_callers (handle_does e event)
    have hrest := ih (e.handle event).2
    rw [← hstep] at hrest
    exact hrest

/-- An engine that nothing is asked to run stays free. -/
theorem flight_handleAll_of_none {e : Engine η κ γ σ} (free : e.flight = none)
    {events : List Event} (h : ∀ event ∈ events, event.isRunnableCall = false) :
    (e.handleAll events).2.flight = none := by
  induction events generalizing e with
  | nil => exact free
  | cons event events ih =>
    -- Only an admitted call puts something in flight, and it would have something to run.
    have hstep : (e.handle event).2.flight = none := by
      have hevent := h event (by simp)
      have hdoes := handle_does e event
      generalize e.handle event = r at hdoes ⊢
      cases hdoes with
      | idle => exact free
      | busy runnable => exact absurd (hevent.symm.trans runnable) (by simp)
      | began runnable => exact absurd (hevent.symm.trans runnable) (by simp)
      | beganAndEnded _ _ flight => exact flight
      | wentOn _ before => exact absurd (free.symm.trans before) (by simp)
      | ended _ _ flight => exact flight
      | dropped _ flight => exact flight
      | passed _ flight => exact flight.trans free
    exact ih hstep fun l hl => h l (List.mem_cons_of_mem _ hl)

/-- **What a call is answered**: that there is nothing to run, that a run is in flight, or neither,
and then it is under way or has ended already. -/
theorem answer_call (e : Engine η κ γ σ) (caller : Nat) (document : Option Document) (cell : Nat) :
    let r := e.handle (.call caller document cell)
    ((document.getD .empty).isRunnable = false ∧ r.1 = some (caller, .refused .noActions)) ∨
      ((document.getD .empty).isRunnable = true ∧ e.flight ≠ none ∧
        r.1 = some (caller, .refused .runInProgress)) ∨
      ((document.getD .empty).isRunnable = true ∧ e.flight = none ∧
        (r.1 = none ∨ ∃ outcome, r.1 = some (caller, .ended outcome))) := by
  have hdoes := handle_does e (.call caller document cell)
  dsimp only
  generalize e.handle (.call caller document cell) = r at hdoes ⊢
  cases hdoes with
  | idle blank => exact .inl ⟨blank, rfl⟩
  | busy runnable taken =>
    exact .inr (.inl ⟨runnable, Option.isSome_iff_ne_none.mp taken, rfl⟩)
  | began runnable free => exact .inr (.inr ⟨runnable, free, .inl rfl⟩)
  | beganAndEnded runnable free => exact .inr (.inr ⟨runnable, free, .inr ⟨_, rfl⟩⟩)
  | wentOn isPause => exact absurd isPause (by simp)
  | ended isPause => exact absurd isPause (by simp)
  | passed notCall => exact absurd rfl (notCall caller document cell)

theorem handle_of_refused {e : Engine η κ γ σ} {event : Event} {caller : Nat} {cause : Failure}
    (h : (e.handle event).1 = some (caller, .refused cause)) : (e.handle event).2 = e := by
  have hdoes := handle_does e event
  generalize e.handle event = r at hdoes h ⊢
  cases hdoes with
  | idle => rfl
  | busy => rfl
  | began | beganAndEnded | wentOn | ended | dropped | passed => simp at h

theorem flight_handle_of_ended {e : Engine η κ γ σ} {event : Event} {caller : Nat}
    {outcome : Outcome} (h : (e.handle event).1 = some (caller, .ended outcome)) :
    (e.handle event).2.flight = none := by
  have hdoes := handle_does e event
  generalize e.handle event = r at hdoes h ⊢
  cases hdoes with
  | beganAndEnded _ _ flight => exact flight
  | ended _ _ flight => exact flight
  | idle | busy | began | wentOn | dropped | passed => simp at h

theorem flight_handle_drop {e : Engine η κ γ σ} {f : Flight} (hf : e.flight = some f) :
    (e.handle (.drop f.caller)).2.flight = none := by
  dsimp only [handle]
  rw [flightOf?_eq hf, if_pos rfl]

end Engine

theorem Document.isRunnable_getD_iff {document : Option Document} :
    (document.getD .empty).isRunnable = true ↔ ∃ d, document = some d ∧ d.actions ≠ [] := by
  cases document with
  | none => simp [isRunnable, empty]
  | some d => simp [isRunnable]

/-! ## At every moment -/

variable [Host η] [KeyValueStore κ] [ColorSource γ] [Sink σ]

/-- What an engine does at a moment, given the calls that are under way. -/
structure Engine.AdmitsOne (e : Engine η κ γ σ) (underWay : List Nat) : Prop where
  atMostOne : underWay.length ≤ 1
  isRunning_iff : e.isRunning = true ↔ ∃ caller, underWay = [caller]
  /-- That there is nothing to run is told whether or not a run is in flight. -/
  noActions_iff (caller : Nat) (document : Option Document) (cell : Nat) :
    (e.handle (.call caller document cell)).1 = some (caller, .refused .noActions) ↔
      document = none ∨ ∃ d, document = some d ∧ d.actions = []
  runInProgress_iff (caller : Nat) (document : Option Document) (cell : Nat) :
    (e.handle (.call caller document cell)).1 = some (caller, .refused .runInProgress) ↔
      (∃ d, document = some d ∧ d.actions ≠ []) ∧ underWay ≠ []
  /-- A call that is admitted is not answered yet, or has ended before any pause. -/
  admitted_iff (caller : Nat) (document : Option Document) (cell : Nat) :
    ((e.handle (.call caller document cell)).1 = none ∨
        ∃ outcome, (e.handle (.call caller document cell)).1 = some (caller, .ended outcome)) ↔
      (∃ d, document = some d ∧ d.actions ≠ []) ∧ underWay = []
  /-- Who is refused changes nothing, so a run in flight stays in flight. -/
  unchanged (event : Event) (caller : Nat) (cause : Failure) :
    (e.handle event).1 = some (caller, .refused cause) → (e.handle event).2 = e
  /-- Once a call has ended or its caller has gone away, the next one that has something to run is
  admitted, whatever else comes before it. -/
  reopens (event : Event) (others : List Event) (caller : Nat) (d : Document) (cell : Nat) :
    ((∃ who outcome, (e.handle event).1 = some (who, .ended outcome)) ∨
        ∃ who ∈ underWay, event = .drop who) →
      (∀ other ∈ others, other.isRunnableCall = false) → d.actions ≠ [] →
      ∀ cause, (((e.handle event).2.handleAll others).2.handle (.call caller (some d) cell)).1 ≠
        some (caller, .refused cause)

namespace Engine

/-- What is in flight decides about the next call, and nothing else does. -/
theorem admitsOne_callers (e : Engine η κ γ σ) : e.AdmitsOne e.callers where
  atMostOne := by
    unfold callers
    cases e.flight <;> simp
  isRunning_iff := by
    unfold callers isRunning
    cases e.flight <;> simp
  noActions_iff caller document cell := by
    have hblank : (document = none ∨ ∃ d, document = some d ∧ d.actions = []) ↔
        ¬ (document.getD .empty).isRunnable = true := by
      rw [Document.isRunnable_getD_iff]
      cases document <;> simp
    rw [hblank]
    rcases answer_call e caller document cell with
      ⟨hd, heq⟩ | ⟨hd, -, heq⟩ | ⟨hd, -, heq | ⟨outcome, heq⟩⟩ <;> simp [hd, heq]
  runInProgress_iff caller document cell := by
    rw [← Document.isRunnable_getD_iff, ne_eq, callers_eq_nil_iff]
    rcases answer_call e caller document cell with
      ⟨hd, heq⟩ | ⟨hd, hf, heq⟩ | ⟨hd, hf, heq | ⟨outcome, heq⟩⟩
    · simp [hd, heq]
    all_goals simp [hd, heq, hf]
  admitted_iff caller document cell := by
    rw [← Document.isRunnable_getD_iff, callers_eq_nil_iff]
    rcases answer_call e caller document cell with
      ⟨hd, heq⟩ | ⟨hd, hf, heq⟩ | ⟨hd, hf, heq | ⟨outcome, heq⟩⟩
    · simp [hd, heq]
    all_goals simp [hd, heq, hf]
  unchanged event caller cause h := handle_of_refused h
  reopens event others caller d cell hends hothers hd cause := by
    -- However the call has ended, it leaves nothing in flight, and nothing else is put there.
    have hfree : (e.handle event).2.flight = none := by
      rcases hends with ⟨who, outcome, heq⟩ | ⟨who, hwho, rfl⟩
      · exact flight_handle_of_ended heq
      · cases hf : e.flight with
        | none => simp [callers, hf] at hwho
        | some f =>
          have hwho : who = f.caller := by simpa [callers, hf] using hwho
          rw [hwho]
          exact flight_handle_drop hf
    have hstill := flight_handleAll_of_none hfree hothers
    have hrun : ((some d).getD .empty).isRunnable = true :=
      Document.isRunnable_getD_iff.mpr ⟨d, rfl, hd⟩
    rcases answer_call ((e.handle event).2.handleAll others).2 caller (some d) cell with
      ⟨hno, -⟩ | ⟨-, htaken, -⟩ | ⟨-, -, heq | ⟨outcome, heq⟩⟩
    · exact absurd (hno.symm.trans hrun) (by simp)
    · exact absurd hstill htaken
    · simp [heq]
    · simp [heq]

/-- **One at a time, after every history.** The calls under way are those that the answers so far
leave open. -/
theorem admitsOne_handleAll (settings : Settings) (w : World η κ γ) (cells : List σ)
    (events : List Event) :
    ((new settings w cells).handleAll events).2.AdmitsOne
      (openCalls ((new settings w cells).handleAll events).1) := by
  have hopen : openCalls ((new settings w cells).handleAll events).1 =
      ((new settings w cells).handleAll events).2.callers :=
    foldl_openAfter (new settings w cells) events
  rw [hopen]
  exact admitsOne_callers _

end Engine

end TriggerFlow
