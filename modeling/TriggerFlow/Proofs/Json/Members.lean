import Mathlib.Data.List.Forall2
import TriggerFlow.Proofs.Json.Agreement

/-!
# Members in any order

The members of an object come in any order, so what a record makes of them is said field by field:
**each field goes by the values of its own key**, and by nothing else. It stays as it was where its
key does not occur, is filled by the only value of its key, and has no room for a second one.

A record is a list of fields on one state. For this to be said of any record, its state is taken
apart into components (`Component.MakeUp`).
-/

set_option autoImplicit false

namespace TriggerFlow.Json

/-- The values that a key has among members, in their order. -/
def valuesOf (key : String) (members : List (Option String × Tree)) : List Tree :=
  members.filterMap fun m => if m.1 = some key then some m.2 else none

theorem valuesOf_cons (key name : String) (t : Tree) (members : List (Option String × Tree)) :
    valuesOf key ((some name, t) :: members) =
      if name = key then t :: valuesOf key members else valuesOf key members := by
  unfold valuesOf
  by_cases h : name = key <;> simp [h]

/-- A field goes from what it held to what it holds by the values of its key. -/
inductive Slot {α : Type} (ofTree : Tree → Option α) : List Tree → Option α → Option α → Prop where
  | kept (held : Option α) : Slot ofTree [] held held
  | filled {t : Tree} {a : α} (decodes : ofTree t = some a) : Slot ofTree [t] none (some a)

section Slots

variable {α : Type} {ofTree : Tree → Option α} {t : Tree} {ts : List Tree}
  {before after : Option α}

theorem slot_nil_iff : Slot ofTree [] before after ↔ after = before := by
  constructor
  · intro h
    cases h
    rfl
  · rintro rfl
    exact .kept after

theorem slot_cons_iff : Slot ofTree (t :: ts) before after ↔
    before = none ∧ ∃ a, ofTree t = some a ∧ Slot ofTree ts (some a) after := by
  constructor
  · intro h
    cases h with
    | filled decodes => exact ⟨rfl, _, decodes, .kept _⟩
  · rintro ⟨rfl, a, decodes, hothers⟩
    cases hothers
    exact .filled decodes

/-- Nothing fills a field twice. -/
theorem Slot.length_le (h : Slot ofTree ts before after) : ts.length ≤ 1 := by
  cases h <;> simp

/-- What is among the values of a field can be decoded. -/
theorem Slot.decodes_of_mem (h : Slot ofTree ts before after) (ht : t ∈ ts) :
    ∃ a, ofTree t = some a := by
  cases h with
  | kept => cases ht
  | filled decodes =>
    obtain rfl := List.mem_singleton.mp ht
    exact ⟨_, decodes⟩

/-- A field that was empty is filled by what its key's only value decodes to. -/
theorem slot_none_some_iff {a : α} : Slot ofTree ts none (some a) ↔
    ∃ t, ts = [t] ∧ ofTree t = some a := by
  constructor
  · intro h
    cases h with
    | filled decodes => exact ⟨_, rfl, decodes⟩
  · rintro ⟨t, rfl, decodes⟩
    exact .filled decodes

theorem slot_none_none_iff : Slot ofTree ts none none ↔ ts = [] := by
  constructor
  · intro h
    cases h
    rfl
  · rintro rfl
    exact .kept none

theorem slot_text_iff {s : String} :
    Slot Tree.text? ts none (some s) ↔ ts = [.text (some s)] := by
  rw [slot_none_some_iff]
  constructor
  · rintro ⟨t, rfl, ht⟩
    cases t <;> simp_all [Tree.text?]
  · rintro rfl
    exact ⟨_, rfl, rfl⟩

theorem slot_optionalText_iff {held : Option String} :
    Slot Tree.optionalText? ts none (some held) ↔ ts = [.optional held] := by
  rw [slot_none_some_iff]
  constructor
  · rintro ⟨t, rfl, ht⟩
    cases t with
    | null =>
      cases ht
      rfl
    | text s =>
      obtain ⟨s, rfl, rfl⟩ := Option.map_eq_some_iff.mp ht
      rfl
    | bool | number | list | object => cases ht
  · rintro rfl
    cases held <;> exact ⟨_, rfl, rfl⟩

end Slots

theorem mapM_eq_some_iff {α β : Type} {f : α → Option β} {items : List α} :
    ∀ {as : List β}, items.mapM f = some as ↔ items.map f = as.map some := by
  induction items with
  | nil =>
    intro as
    cases as <;> simp
  | cons item items ih =>
    intro as
    cases as <;> simp [Option.bind_eq_some_iff, ih]

/-! ## Records -/

/-- One of the parts that make up a state, with the key of its values. -/
structure Component (σ : Type) where
  key : String
  Held : Type
  ofTree : Tree → Option Held
  get : σ → Option Held
  set : σ → Held → σ

namespace Component

variable {σ : Type} {components : List (Component σ)}

/-- What the value of a key makes of a state. -/
def decode (components : List (Component σ)) (key : String) (p : σ) (t : Tree) : Option σ :=
  (components.find? (·.key = key)).bind fun component => (component.ofTree t).map (component.set p)

/-- A field of a record stands for this part of the state. -/
def Matches (field : Field σ) (component : Component σ) : Prop :=
  field.key = component.key ∧ ∀ p, field.isSet p = (component.get p).isSome

/-- The components are the record's fields, each with a key of its own, and nothing but them makes
up a state. -/
structure MakeUp (components : List (Component σ)) (r : Record σ) : Prop where
  fields : List.Forall₂ Matches r.fields components
  unique : ∀ component ∈ components, components.find? (·.key = component.key) = some component
  get_set : ∀ component ∈ components, ∀ p a, component.get (component.set p a) = some a
  get_set_of_ne : ∀ component ∈ components, ∀ other ∈ components, component.key ≠ other.key →
    ∀ p a, other.get (component.set p a) = other.get p
  ext : ∀ {p q}, (∀ component ∈ components, component.get p = component.get q) → p = q

variable {r : Record σ} {p q : σ}

theorem find?_matches {fields : List (Field σ)} (h : List.Forall₂ Matches fields components)
    (key : String) :
    Option.Rel Matches (fields.find? (·.key = key)) (components.find? (·.key = key)) := by
  induction h with
  | nil => exact .none
  | cons hfirst hothers ih =>
    simp only [List.find?_cons, hfirst.1]
    split
    · exact .some hfirst
    · exact ih

theorem MakeUp.ofMember_eq (h : MakeUp components r) (p : σ) (key : String) (t : Tree) :
    r.ofMember (decode components) p key t = match components.find? (·.key = key) with
      | none => some p
      | some component =>
        if (component.get p).isSome then none else (component.ofTree t).map (component.set p) := by
  have hrel := find?_matches h.fields key
  unfold Record.ofMember
  generalize hfield : r.fields.find? (·.key = key) = field? at hrel ⊢
  generalize hcomponent : components.find? (·.key = key) = component? at hrel ⊢
  cases hrel with
  | none => rfl
  | some hmatches =>
    have hkey := List.find?_some hfield
    simp only [decide_eq_true_eq] at hkey
    simp [hmatches.2, decode, hkey, hcomponent]

/-- The first value of a component fills it and leaves the other components as they were. -/
theorem MakeUp.slot_fill (h : MakeUp components r) {component other : Component σ}
    (hcomponent : component ∈ components) (hother : other ∈ components) {t : Tree}
    {a : component.Held} (hempty : component.get p = none)
    (hdecodes : component.ofTree t = some a) (members : List (Option String × Tree))
    (held : Option other.Held) :
    Slot other.ofTree (valuesOf other.key ((some component.key, t) :: members)) (other.get p) held ↔
      Slot other.ofTree (valuesOf other.key members) (other.get (component.set p a)) held := by
  rw [valuesOf_cons]
  by_cases hkey : component.key = other.key
  · have hsame := h.unique other hother
    rw [← hkey, h.unique component hcomponent] at hsame
    cases hsame
    rw [if_pos rfl, slot_cons_iff, h.get_set component hcomponent]
    simp [hempty, hdecodes]
  · rw [if_neg hkey, h.get_set_of_ne component hcomponent other hother hkey]

theorem MakeUp.slots_nil_iff (h : MakeUp components r) :
    (∀ component ∈ components, Slot component.ofTree (valuesOf component.key [])
      (component.get p) (component.get q)) ↔ q = p := by
  constructor
  · intro hslots
    exact h.ext fun component hcomponent => slot_nil_iff.mp (hslots component hcomponent)
  · rintro rfl component -
    exact .kept _

/-- **What members make of a state is said component by component.** -/
theorem MakeUp.ofMembers_eq_some_iff (h : MakeUp components r)
    {members : List (Option String × Tree)} : r.ofMembers (decode components) p members = some q ↔
      (∀ m ∈ members, m.1.isSome = true) ∧
      (∀ component ∈ components, Slot component.ofTree (valuesOf component.key members)
        (component.get p) (component.get q)) ∧
      r.missing? q = none := by
  induction members generalizing p with
  | nil =>
    rw [Record.ofMembers, h.slots_nil_iff]
    constructor
    · intro hend
      split at hend
      · cases hend
      · rename_i hmissing
        obtain rfl := Option.some.inj hend
        exact ⟨by simp, rfl, by simpa using hmissing⟩
    · rintro ⟨-, rfl, hmissing⟩
      simp [hmissing]
  | cons m members ih =>
    obtain ⟨_ | key, t⟩ := m
    · simp [Record.ofMembers]
    rw [Record.ofMembers, h.ofMember_eq]
    cases hfind : components.find? (·.key = key) with
    | none =>
      have hvalues : ∀ component ∈ components,
          valuesOf component.key ((some key, t) :: members) = valuesOf component.key members := by
        intro component hcomponent
        rw [valuesOf_cons, if_neg]
        rintro rfl
        simpa using List.find?_eq_none.mp hfind component hcomponent
      simp +contextual [ih, hvalues]
    | some component =>
      have hcomponent := List.mem_of_find?_eq_some hfind
      obtain rfl : component.key = key := by simpa using List.find?_some hfind
      dsimp only
      by_cases hfills : component.get p = none ∧ ∃ a, component.ofTree t = some a
      · obtain ⟨hempty, a, hdecodes⟩ := hfills
        have hslots := forall₂_congr fun (other : Component σ) (hother : other ∈ components) =>
          h.slot_fill hcomponent hother hempty hdecodes members (other.get q)
        rw [hslots, hempty, hdecodes]
        simp [ih]
      · -- Neither is there room for the value nor would a slot take it.
        have hnone : (if (component.get p).isSome then none
            else (component.ofTree t).map (component.set p)) = none := by
          cases hget : component.get p <;> cases hof : component.ofTree t <;> simp_all
        rw [hnone]
        constructor
        · intro hq
          cases hq
        · rintro ⟨-, hslots, -⟩
          have hslot := hslots component hcomponent
          rw [valuesOf_cons, if_pos rfl, slot_cons_iff] at hslot
          obtain ⟨hempty, a, hdecodes, -⟩ := hslot
          exact absurd ⟨hempty, a, hdecodes⟩ hfills

end Component

end TriggerFlow.Json
