/-!
# Entries

What a key-value store holds: for each key at most one value, the keys in the order of their
characters. **The order is part of the type**, so two stores that hold the same values hold equal
entries, and whoever lists them lists them alike.
-/

set_option autoImplicit false

namespace TriggerFlow

namespace Entries

/-- Sets the value of a key among pairs that are sorted by key. -/
def insertPair (key value : String) : List (String × String) → List (String × String)
  | [] => [(key, value)]
  | p :: ps =>
    if key < p.1 then (key, value) :: p :: ps
    else if key = p.1 then (key, value) :: ps
    else p :: insertPair key value ps

/-- Sorted by key, no key twice. -/
def IsSorted (pairs : List (String × String)) : Prop :=
  pairs.Pairwise fun p q => p.1 < q.1

theorem mem_insertPair {key value : String} {q : String × String} :
    ∀ {pairs : List (String × String)},
      q ∈ insertPair key value pairs → q = (key, value) ∨ q ∈ pairs
  | [], h => by simpa [insertPair] using h
  | p :: ps, h => by
    unfold insertPair at h
    split at h
    · simpa using h
    · split at h
      · rcases List.mem_cons.mp h with h | h
        · exact .inl h
        · exact .inr (List.mem_cons_of_mem _ h)
      · rcases List.mem_cons.mp h with h | h
        · exact .inr (h ▸ List.mem_cons_self)
        · exact (mem_insertPair h).imp_right (List.mem_cons_of_mem _)

private theorem lt_of_not_lt {a b : String} (h : ¬ a < b) (hne : a ≠ b) : b < a :=
  Classical.byContradiction fun h' => hne (String.le_antisymm h' h)

/-- Setting a value keeps the order. -/
theorem IsSorted.insertPair {key value : String} :
    ∀ {pairs : List (String × String)}, IsSorted pairs →
      IsSorted (Entries.insertPair key value pairs)
  | [], _ => by simp [Entries.insertPair, IsSorted]
  | p :: ps, h => by
    obtain ⟨hp, hps⟩ := List.pairwise_cons.mp h
    unfold Entries.insertPair
    split
    · rename_i hlt
      exact List.pairwise_cons.mpr ⟨fun q hq => by
        rcases List.mem_cons.mp hq with rfl | hq
        · exact hlt
        · exact String.lt_trans hlt (hp q hq), h⟩
    · rename_i hlt
      split
      · rename_i heq
        exact List.pairwise_cons.mpr ⟨fun q hq => heq ▸ hp q hq, hps⟩
      · rename_i hne
        exact List.pairwise_cons.mpr ⟨fun q hq => by
          rcases mem_insertPair hq with rfl | hq
          · exact lt_of_not_lt hlt hne
          · exact hp q hq, IsSorted.insertPair hps⟩

end Entries

/-- A value for each of some keys. -/
structure Entries where
  pairs : List (String × String)
  isSorted : Entries.IsSorted pairs
  deriving DecidableEq

namespace Entries

def empty : Entries :=
  ⟨[], .nil⟩

/-- Sets the value of a key. -/
def insert (key value : String) (e : Entries) : Entries :=
  ⟨insertPair key value e.pairs, e.isSorted.insertPair⟩

/-- The value of a key. -/
def get? (e : Entries) (key : String) : Option String :=
  e.pairs.lookup key

/-- Entries from a list, in which a later value of a key takes the place of an earlier one. -/
def ofList (pairs : List (String × String)) : Entries :=
  pairs.foldl (fun e p => e.insert p.1 p.2) empty

/-! ## What is found after a value is set -/

theorem lookup_insertPair_self (key value : String) :
    ∀ pairs : List (String × String), (insertPair key value pairs).lookup key = some value
  | [] => by simp [insertPair]
  | (k, v) :: ps => by
    unfold insertPair
    split
    · simp
    · split
      · simp
      · rename_i hne
        have hne : (key == k) = false := by simpa using hne
        rw [List.lookup_cons, hne]
        exact lookup_insertPair_self key value ps

theorem lookup_insertPair_of_ne {key other : String} (value : String) (h : other ≠ key) :
    ∀ pairs : List (String × String),
      (insertPair key value pairs).lookup other = pairs.lookup other
  | [] => by simp [insertPair, h]
  | (k, v) :: ps => by
    have hk : (other == key) = false := by simpa using h
    unfold insertPair
    split
    · rw [List.lookup_cons, hk]
    · split
      · rename_i heq
        have hp : (other == k) = false := by simpa [← show key = k from heq] using h
        rw [List.lookup_cons, hk, List.lookup_cons, hp]
      · rw [List.lookup_cons, List.lookup_cons, lookup_insertPair_of_ne value h ps]

/-- The key that was set has the value it was set to. -/
@[simp] theorem get?_insert_self (key value : String) (e : Entries) :
    (e.insert key value).get? key = some value :=
  lookup_insertPair_self key value e.pairs

/-- Every other key has the value it had. -/
theorem get?_insert_of_ne {key other : String} (value : String) (h : other ≠ key) (e : Entries) :
    (e.insert key value).get? other = e.get? other :=
  lookup_insertPair_of_ne value h e.pairs

end Entries

end TriggerFlow
