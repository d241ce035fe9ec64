import TriggerFlow.Engine.Schedule

/-!
# Plans

A schedule is a table of calls, and whoever strikes a call out of it renumbers those after it. A
plan is what a schedule comes to when it is played, a list of what happens and when, in which
**every caller keeps their name whatever is struck out**. It is also more than a schedule can say:
calls, cancellations and departures of one moment may come in any order.
-/

set_option autoImplicit false

namespace TriggerFlow

variable {η κ γ σ : Type}

/-- Whose doing an event is, if it is a caller's. -/
def Event.caller? : Event → Option Nat
  | .call caller _ _ | .fire caller | .drop caller => some caller
  | .pauseEnd | .notice => none

/-- Who makes the call that an event is, if it is one. -/
def Event.calls? : Event → Option Nat
  | .call caller _ _ => some caller
  | .pauseEnd | .fire _ | .notice | .drop _ => none

/-- The event is not of these callers' making. -/
def Event.isApartFrom (callers : List Nat) (event : Event) : Bool :=
  event.caller?.all (· ∉ callers)

theorem Event.isApartFrom_iff {out : List Nat} {event : Event} :
    event.isApartFrom out = true ↔ ∀ caller, event.caller? = some caller → caller ∉ out := by
  unfold isApartFrom
  cases h : event.caller? <;> simp

namespace Schedule

/-- Who calls, in order. -/
def callers (moments : List Moment) : List Nat :=
  moments.filterMap fun m => m.2.bind Event.calls?

/-- The moment is not of these callers' making. -/
def Moment.isApartFrom (callers : List Nat) (m : Moment) : Bool :=
  (m.2.bind Event.caller?).all (· ∉ callers)

theorem Moment.isApartFrom_iff {out : List Nat} {time : Nat} {event : Event} :
    Moment.isApartFrom out (time, some event) = true ↔
      ∀ caller, event.caller? = some caller → caller ∉ out := by
  unfold Moment.isApartFrom
  cases h : event.caller? <;> simp [h]

/-- What is to happen and when, each caller calling once. -/
structure Plan where
  /-- Who cancels before anything else happens. -/
  beforehand : List Nat
  moments : List Moment
  inOrder : moments.Pairwise fun m n => m.1 ≤ n.1
  once : (callers moments).Nodup

namespace Plan

/-- A plan without everything that some callers do. -/
def without (p : Plan) (out : List Nat) : Plan where
  beforehand := p.beforehand.filter (· ∉ out)
  moments := p.moments.filter (·.isApartFrom out)
  inOrder := p.inOrder.sublist List.filter_sublist
  once := p.once.sublist (List.filter_sublist.filterMap _)

end Plan

/-! ## Every schedule is a plan -/

theorem callers_cons_call (time caller : Nat) (document : Option Document) (cell : Nat)
    (ms : List Moment) :
    callers ((time, some (.call caller document cell)) :: ms) = caller :: callers ms := rfl

theorem callers_append (ms ns : List Moment) : callers (ms ++ ns) = callers ms ++ callers ns :=
  List.filterMap_append

/-- A schedule has the calls that are planned, each one once. -/
theorem perm_callers_moments (s : Schedule) :
    (callers s.moments).Perm (List.range s.calls.length) := by
  have hreached : ∀ ms : List Moment,
      callers (ms.map fun m => (reached m.1, m.2)) = callers ms := fun ms => List.filterMap_map
  have hstarts : callers (s.calls.zipIdx.map fun p =>
      (p.1.start, some (Event.call p.2 p.1.document p.1.cell))) = List.range s.calls.length := by
    unfold callers
    rw [List.filterMap_map, List.range_eq_range', ← List.zipIdx_map_snd, ← List.filterMap_eq_map']
    rfl
  have hnobody : ∀ {ms : List Moment}, (∀ m ∈ ms, m.2.bind Event.calls? = none) →
      callers ms = [] := List.filterMap_eq_nil_iff.mpr
  unfold moments
  refine ((List.mergeSort_perm _ _).filterMap _).trans (.of_eq ?_)
  show callers _ = _
  rw [hreached, callers_append, callers_append, callers_append, hstarts, hnobody, hnobody,
    hnobody, List.append_nil, List.append_nil, List.append_nil]
  · simp
  · rintro m hm
    obtain ⟨⟨p, i⟩, -, hleave⟩ := List.mem_filterMap.mp hm
    obtain ⟨time, -, rfl⟩ := Option.map_eq_some_iff.mp hleave
    rfl
  · rintro m hm
    obtain ⟨⟨p, i⟩, -, hfire⟩ := List.mem_filterMap.mp hm
    cases hcancel : p.cancel with
    | never | beforehand => simp [hcancel] at hfire
    | «at» time =>
      simp only [hcancel, Option.some.injEq] at hfire
      rw [← hfire]
      rfl

/-- What is to happen if a schedule is played. -/
def plan (s : Schedule) : Plan where
  beforehand := s.firedBeforehand
  moments := s.moments
  inOrder := by
    unfold moments
    have htrans : ∀ a b c : Moment, decide (a.1 ≤ b.1) = true → decide (b.1 ≤ c.1) = true →
        decide (a.1 ≤ c.1) = true := fun a b c hab hbc => by simp at *; omega
    have htotal : ∀ a b : Moment, (decide (a.1 ≤ b.1) || decide (b.1 ≤ a.1)) = true :=
      fun a b => by simp; omega
    exact (List.pairwise_mergeSort htrans htotal _).imp of_decide_eq_true
  once := s.perm_callers_moments.nodup_iff.mpr List.nodup_range

/-! ## Playing -/

variable [Host η] [KeyValueStore κ] [ColorSource γ] [Sink σ]

/-- A clock at the moment from which time is counted, when some callers have cancelled. -/
def startAfter (fired : List Nat) (e : Engine η κ γ σ) : Clock η κ γ σ :=
  fired.foldl (fun c caller => c.happen (.fire caller)) (Clock.start e)

/-- Plays a plan to the end of its last run. -/
def Plan.play (p : Plan) (e : Engine η κ γ σ) : List (Observation η κ γ σ) × Clock η κ γ σ :=
  let (seen, c) := playMoments p.moments (startAfter p.beforehand e)
  (seen, c.finish)

/-- To play a schedule is to play its plan. -/
theorem play_eq_plan (s : Schedule) (e : Engine η κ γ σ) :
    s.play e =
      (s.looks.filterMap fun time =>
          ((s.plan.play e).1.find? (·.time = reached time)).map fun o => { o with time },
        (s.plan.play e).2) := rfl

end Schedule

end TriggerFlow
