import TriggerFlow.Proofs.Document.Edits

/-!
# Where a move puts the actions

A move takes one action out and puts it in again, and the target is counted in between. **So what
stands between the two positions shifts by one towards the source**, and every other action stays
where it was. Nothing else happens, which is why a second move takes it all back, and why the
document without the moved action is the same before and after.
-/

set_option autoImplicit false

namespace TriggerFlow.Document

/-- The position that the action at `k` had before a move from `source` to `target`. -/
def origin (source target k : Nat) : Nat :=
  if k = target then source
  else if source ≤ k ∧ k < target then k + 1
  else if target < k ∧ k ≤ source then k - 1
  else k

section Lists

variable {α : Type}

theorem length_moved {l : List α} {source target : Nat} {a : α} (hsource : source < l.length)
    (htarget : target < l.length) :
    ((l.eraseIdx source).insertIdx target a).length = l.length := by
  have hlength := List.length_eraseIdx_of_lt hsource
  rw [List.length_insertIdx_of_le_length (by omega), hlength]
  omega

/-- Each place of a moved list, read off the old one. -/
theorem getElem?_moved {l : List α} {source target k : Nat} (hsource : source < l.length)
    (htarget : target < l.length) :
    ((l.eraseIdx source).insertIdx target l[source])[k]? = l[origin source target k]? := by
  have hlength := List.length_eraseIdx_of_lt hsource
  rw [List.getElem?_insertIdx]
  unfold origin
  rcases Nat.lt_trichotomy k target with hk | rfl | hk
  · -- In front of the target nothing has been put in, so only the gap counts.
    rw [if_pos hk, List.getElem?_eraseIdx, if_neg (Nat.ne_of_lt hk)]
    by_cases hgap : k < source
    · rw [if_pos hgap, if_neg (by omega), if_neg (by omega)]
    · rw [if_neg hgap, if_pos ⟨Nat.not_lt.mp hgap, hk⟩]
  · rw [if_neg (Nat.lt_irrefl k), if_pos rfl, if_pos (by omega), if_pos rfl,
      List.getElem?_eq_getElem hsource]
  · -- Behind the target the gap and what was put in cancel out, but not before the gap.
    rw [if_neg (Nat.not_lt.mpr (Nat.le_of_lt hk)), if_neg (Nat.ne_of_gt hk),
      List.getElem?_eraseIdx, if_neg (Nat.ne_of_gt hk),
      if_neg fun h : source ≤ k ∧ k < target => Nat.lt_asymm hk h.2]
    by_cases hgap : k ≤ source
    · rw [if_pos (by omega), if_pos ⟨hk, hgap⟩]
    · rw [if_neg (by omega), if_neg (by omega), Nat.sub_add_cancel (by omega)]

end Lists

/-- **A move reorders and does nothing else.** The label and the actions are those there were. The
action that stood at the source stands at the target, those that remain keep their order, and each
position holds what its origin held. Moving back gives the document again, and without the action
that was moved it makes no difference whether it was. -/
theorem move_reorders {d : Document} {source target : Nat} (hsource : source < d.size)
    (htarget : target < d.size) :
    ∃ moved, d.move source target = .ok moved ∧
      moved.label = d.label ∧
      moved.actions.Perm d.actions ∧
      moved.actions[target]? = d.actions[source]? ∧
      moved.actions.eraseIdx target = d.actions.eraseIdx source ∧
      (∀ k, moved.actions[k]? = d.actions[origin source target k]?) ∧
      moved.move target source = .ok d ∧
      ∃ without, d.remove source = .ok without ∧ moved.remove target = .ok without := by
  have hmove : d.move source target =
      .ok { d with actions := (d.actions.eraseIdx source).insertIdx target d.actions[source] } :=
    move_eq_ok_iff.mpr ⟨htarget, _, List.getElem?_eq_getElem hsource, rfl⟩
  have hsize : ((d.actions.eraseIdx source).insertIdx target d.actions[source]).length =
      d.size := length_moved hsource htarget
  have hplaces := fun k => getElem?_moved (k := k) hsource htarget
  have hput : ((d.actions.eraseIdx source).insertIdx target d.actions[source])[target]? =
      d.actions[source]? := by
    rw [hplaces target, origin, if_pos rfl]
  have hrest := List.eraseIdx_insertIdx_self (i := target) (l := d.actions.eraseIdx source)
    d.actions[source]
  refine ⟨_, hmove, rfl, perm_of_move hmove, hput, hrest, hplaces, ?_, ?_⟩
  · refine move_eq_ok_iff.mpr ⟨?_, _, hput.trans (List.getElem?_eq_getElem hsource), ?_⟩
    · exact Nat.lt_of_lt_of_eq hsource hsize.symm
    · rw [hrest, List.insertIdx_eraseIdx_getElem hsource]
  · refine ⟨_, remove_eq_ok_iff.mpr ⟨hsource, rfl⟩, remove_eq_ok_iff.mpr ⟨?_, ?_⟩⟩
    · exact Nat.lt_of_lt_of_eq htarget hsize.symm
    · rw [hrest]

/-- Five actions, the fourth with the id of the second. -/
def five : Document :=
  ⟨"Go", [⟨"a", "alert", "Alert", some "1"⟩, ⟨"b", "showText", "Show Text", some ""⟩,
    ⟨"c", "close", "Close Window", none⟩, ⟨"b", "beep", "Beep", none⟩,
    ⟨"e", "refresh", "Refresh Page", none⟩]⟩

theorem move_reorders_five :
    1 < five.size ∧ 3 < five.size ∧
    ((five.move 1 3).toOption.map (·.actions.map (·.kind))) =
      some ["alert", "close", "beep", "showText", "refresh"] ∧
    (List.range 5).map (origin 1 3) = [0, 2, 3, 1, 4] ∧
    ∃ moved, five.move 1 3 = .ok moved ∧ moved.label = "Go" ∧
      moved.actions.Perm five.actions ∧ moved.actions[3]? = five.actions[1]? ∧
      moved.actions.eraseIdx 3 = five.actions.eraseIdx 1 ∧
      (∀ k, moved.actions[k]? = five.actions[origin 1 3 k]?) ∧
      moved.move 3 1 = .ok five ∧
      ∃ without, five.remove 1 = .ok without ∧ moved.remove 3 = .ok without :=
  ⟨by decide, by decide, by decide, by decide, move_reorders (by decide) (by decide)⟩

end TriggerFlow.Document
