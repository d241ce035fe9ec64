import TriggerFlow.Run

/-!
# How far a run goes

A document may hold actions that no run of it ever does: **a run stops after the first action that
reloads or closes the host**, whatever follows. `Action.upToEnd` cuts a list there. It looks at the
kinds alone, where the run looks at how it has just been told to end, and the lemmas below say that
the two agree at every position.
-/

set_option autoImplicit false

namespace TriggerFlow
namespace Action

/-- The action reloads or closes the host. -/
def endsRun (a : Action) : Bool :=
  a.kind? = some .refresh || a.kind? = some .close

/-- The actions up to and including the first that ends the run; all of them if none does. -/
def upToEnd : List Action → List Action
  | [] => []
  | a :: as => if a.endsRun then [a] else a :: upToEnd as

theorem isSome_ending? (a : Action) : a.ending?.isSome = a.endsRun := by
  unfold ending? endsRun
  cases a.kind? with
  | none => rfl
  | some kind => cases kind <;> rfl

theorem ending?_eq_none_iff {a : Action} : a.ending? = none ↔ a.endsRun = false := by
  rw [← isSome_ending?, Option.isSome_eq_false_iff, Option.isNone_iff_eq_none]

theorem isPrefix_upToEnd : ∀ (as : List Action), upToEnd as <+: as
  | [] => List.prefix_refl []
  | a :: as => by
    rw [upToEnd]
    split
    · exact ⟨as, rfl⟩
    · exact (List.prefix_cons_inj a).mpr (isPrefix_upToEnd as)

theorem length_upToEnd_le (as : List Action) : (upToEnd as).length ≤ as.length :=
  (isPrefix_upToEnd as).length_le

theorem upToEnd_eq_nil_iff {as : List Action} : upToEnd as = [] ↔ as = [] := by
  cases as with
  | nil => simp [upToEnd]
  | cons a as => rw [upToEnd]; split <;> simp

theorem length_upToEnd_pos {as : List Action} (h : as ≠ []) : 0 < (upToEnd as).length :=
  List.length_pos_iff.mpr fun hnil => h (upToEnd_eq_nil_iff.mp hnil)

/-- The position of an action that is reached is its position in the document. -/
theorem getElem?_of_upToEnd {as : List Action} {n : Nat} {a : Action}
    (h : (upToEnd as)[n]? = some a) : as[n]? = some a := by
  obtain ⟨rest, hrest⟩ := isPrefix_upToEnd as
  have hn : n < (upToEnd as).length := (List.getElem?_eq_some_iff.mp h).1
  rw [← hrest, List.getElem?_append_left hn, h]

/-- **Where a run goes on**: after an action that is reached another one is reached exactly if the
document has one and this one does not end the run. -/
theorem succ_lt_length_upToEnd_iff {as : List Action} {n : Nat} {a : Action}
    (h : (upToEnd as)[n]? = some a) :
    n + 1 < (upToEnd as).length ↔ a.endsRun = false ∧ n + 1 < as.length := by
  induction as generalizing n with
  | nil => simp [upToEnd] at h
  | cons b as ih =>
    rw [upToEnd] at h ⊢
    by_cases hb : b.endsRun = true
    · -- The list was cut right here, so `n` is its only position.
      rw [if_pos hb] at h ⊢
      cases n with
      | zero =>
        obtain rfl : b = a := by simpa using h
        simp [hb]
      | succ n => simp at h
    · rw [if_neg hb] at h ⊢
      cases n with
      | zero =>
        obtain rfl : b = a := by simpa using h
        have hne : 0 < (upToEnd as).length ↔ 0 < as.length := by
          rw [List.length_pos_iff, List.length_pos_iff, ne_eq, ne_eq, upToEnd_eq_nil_iff]
        simpa [hb] using hne
      | succ n =>
        have hstep := ih (n := n) (by simpa using h)
        simpa using hstep

theorem getLast?_upToEnd {as : List Action} {n : Nat} {a : Action}
    (h : (upToEnd as)[n]? = some a) (hlast : (upToEnd as).length ≤ n + 1) :
    (upToEnd as).getLast? = some a := by
  have hn : n < (upToEnd as).length := (List.getElem?_eq_some_iff.mp h).1
  rw [List.getLast?_eq_getElem?, show (upToEnd as).length - 1 = n by omega, h]

end Action
end TriggerFlow
