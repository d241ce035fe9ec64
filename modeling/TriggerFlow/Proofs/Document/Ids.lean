import Mathlib.Data.List.Induction
import Mathlib.Data.List.Nodup
import TriggerFlow.Document

/-!
# Ids that are there twice

The walk that looks for repeated ids keeps a list of those it has seen and one of those it has
found. **It finds exactly the ids that stand in the document at least twice**, so a document in
which it finds none has an id of its own for each action.

What one more action adds is told from the ids before it: its own id, if that was there once, and
nothing if it is new or has been found already. Read from the first action on, this gives the order
in which ids are found: an id comes where it occurs a second time.
-/

set_option autoImplicit false

namespace TriggerFlow.Document

/-! ## One more id -/

/-- What the walk makes of the last id: it is found if it has been seen and not yet found. -/
theorem repeated_concat (x : String) (ids : List String) :
    ∀ seen found : List String, repeated seen found (ids ++ [x]) =
      if (x ∈ seen ∨ x ∈ ids) ∧ x ∉ repeated seen found ids then repeated seen found ids ++ [x]
      else repeated seen found ids := by
  induction ids with
  | nil =>
    intro seen found
    by_cases hseen : x ∈ seen <;> by_cases hfound : x ∈ found <;> simp [repeated, hseen, hfound]
  | cons y ids ih =>
    intro seen found
    rw [List.cons_append, repeated, repeated]
    by_cases hy : y ∈ seen
    · -- The id that is passed has been seen, so it makes no difference to what has been.
      have hsame : x ∈ seen ∨ x ∈ y :: ids ↔ x ∈ seen ∨ x ∈ ids := by
        rw [List.mem_cons]
        constructor
        · rintro (hx | rfl | hx)
          · exact .inl hx
          · exact .inl hy
          · exact .inr hx
        · rintro (hx | hx)
          · exact .inl hx
          · exact .inr (.inr hx)
      simp only [if_pos hy, ih, hsame]
    · have hsame : x ∈ seen ∨ x ∈ y :: ids ↔ x ∈ y :: seen ∨ x ∈ ids := by
        rw [List.mem_cons, List.mem_cons, ← or_assoc, or_comm (a := x ∈ seen)]
      simp only [if_neg hy, ih, hsame]

theorem repeated_nil_concat (x : String) (ids : List String) :
    repeated [] [] (ids ++ [x]) =
      if x ∈ ids ∧ x ∉ repeated [] [] ids then repeated [] [] ids ++ [x]
      else repeated [] [] ids := by
  rw [repeated_concat]
  simp only [List.not_mem_nil, false_or]

/-- The ids found are those that occur at least twice. -/
theorem mem_repeated {id : String} {ids : List String} :
    id ∈ repeated [] [] ids ↔ 2 ≤ ids.count id := by
  induction ids using List.reverseRecOn with
  | nil => simp [repeated]
  | append_singleton ids x ih =>
    rw [repeated_nil_concat, List.count_append]
    by_cases hx : id = x
    · -- The id is met once more, and is there from now on if it has been met at all.
      subst hx
      rw [List.count_singleton_self]
      split
      · rename_i hmet
        have hcount := List.one_le_count_iff.mpr hmet.1
        simp [hcount]
      · rename_i hnot
        rw [← List.one_le_count_iff, ih] at hnot
        rw [ih]
        omega
    · have hcount : [x].count id = 0 := by simp [Ne.symm hx]
      rw [hcount, Nat.add_zero, ← ih]
      split <;> simp [hx]

/-- An id is found where it has been seen exactly once. -/
theorem repeated_nil_concat_of_count (x : String) (ids : List String) :
    repeated [] [] (ids ++ [x]) =
      if ids.count x = 1 then repeated [] [] ids ++ [x] else repeated [] [] ids := by
  rw [repeated_nil_concat]
  refine if_congr ?_ rfl rfl
  rw [← List.one_le_count_iff, mem_repeated]
  omega

theorem nodup_repeated (ids : List String) : (repeated [] [] ids).Nodup := by
  induction ids using List.reverseRecOn with
  | nil => exact List.nodup_nil
  | append_singleton ids x ih =>
    rw [repeated_nil_concat_of_count]
    split
    · rename_i hcount
      rw [← List.concat_eq_append]
      refine ih.concat ?_
      rw [mem_repeated]
      omega
    · exact ih

/-! ## The ids of a document -/

theorem mem_duplicateIds {d : Document} {id : String} :
    id ∈ d.duplicateIds ↔ 2 ≤ d.ids.count id :=
  mem_repeated

theorem duplicateIds_eq_nil_iff {d : Document} : d.duplicateIds = [] ↔ d.ids.Nodup := by
  rw [List.eq_nil_iff_forall_not_mem, List.nodup_iff_count_le_one]
  refine forall_congr' fun id => ?_
  rw [mem_duplicateIds]
  omega

theorem containsId_iff {d : Document} {id : String} : d.containsId id = true ↔ id ∈ d.ids := by
  unfold containsId ids
  simp [List.any_eq_true]

theorem length_ids (d : Document) : d.ids.length = d.size :=
  List.length_map _

/-! ## Second occurrences -/

/-- The id at a position, if it occurs exactly once before that position. -/
def secondAt? (ids : List String) (i : Nat) : Option String :=
  ids[i]?.filter fun id => (ids.take i).count id = 1

theorem secondAt?_concat_of_lt {ids : List String} {i : Nat} (x : String) (hi : i < ids.length) :
    secondAt? (ids ++ [x]) i = secondAt? ids i := by
  unfold secondAt?
  rw [List.getElem?_append_left hi, List.take_append_of_le_length (Nat.le_of_lt hi)]

theorem secondAt?_concat_length (ids : List String) (x : String) :
    secondAt? (ids ++ [x]) ids.length = if ids.count x = 1 then some x else none := by
  unfold secondAt?
  rw [List.getElem?_concat_length, List.take_left, Option.filter_some]
  simp

/-- The walk finds an id where it occurs a second time. -/
theorem repeated_eq_filterMap (ids : List String) :
    repeated [] [] ids = (List.range ids.length).filterMap (secondAt? ids) := by
  induction ids using List.reverseRecOn with
  | nil => rfl
  | append_singleton ids x ih =>
    have hbefore : (List.range ids.length).filterMap (secondAt? (ids ++ [x])) =
        (List.range ids.length).filterMap (secondAt? ids) :=
      List.filterMap_congr fun i hi => secondAt?_concat_of_lt x (List.mem_range.mp hi)
    rw [repeated_nil_concat_of_count, List.length_append, List.length_singleton, List.range_succ,
      List.filterMap_append, hbefore, ← ih, List.filterMap_cons, secondAt?_concat_length]
    by_cases h : ids.count x = 1 <;> simp [h]

/-- Here `b` comes a second time before `a` does. -/
example : repeated [] [] ["a", "b", "c", "b", "a", "b", "a"] = ["b", "a"] := by decide

/-- **The ids found are those that two actions or more carry, each once, in the order in which they
occur a second time.** None is found exactly if the ids differ from each other. Only the ids have a
say, and one more action adds its own id at the end, if the actions before it carry it exactly once,
and nothing otherwise. -/
theorem duplicateIds_in_order (d : Document) :
    d.duplicateIds.Nodup ∧
    (∀ id, id ∈ d.duplicateIds ↔ 2 ≤ d.actions.countP (·.id = id)) ∧
    d.duplicateIds = (List.range d.size).filterMap (secondAt? d.ids) ∧
    (d.duplicateIds = [] ↔ d.actions.Pairwise (·.id ≠ ·.id)) ∧
    (∀ d' : Document, d'.ids = d.ids → d'.duplicateIds = d.duplicateIds) ∧
    ∀ a : Action, duplicateIds { d with actions := d.actions ++ [a] } =
      if d.actions.countP (·.id = a.id) = 1 then d.duplicateIds ++ [a.id] else d.duplicateIds := by
  have hcount : ∀ id, d.ids.count id = d.actions.countP (·.id = id) := by
    intro id
    rw [ids, List.count, List.countP_map]
    rfl
  refine ⟨nodup_repeated d.ids, fun id => ?_, ?_, ?_, fun d' h => ?_, fun a => ?_⟩
  · rw [mem_duplicateIds, hcount]
  · rw [← length_ids]
    exact repeated_eq_filterMap d.ids
  · rw [duplicateIds_eq_nil_iff, ids, List.Nodup, List.pairwise_map]
  · rw [duplicateIds, h, duplicateIds]
  · rw [duplicateIds, ids, List.map_append, List.map_singleton, ← hcount]
    exact repeated_nil_concat_of_count a.id d.ids

end TriggerFlow.Document
