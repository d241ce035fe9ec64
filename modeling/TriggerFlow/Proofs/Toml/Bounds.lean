import Mathlib.Algebra.Ring.Int.Defs
import Mathlib.Algebra.Ring.Nat
import TriggerFlow.Proofs.Text.Loops
import TriggerFlow.Toml.Decode
import TriggerFlow.Toml.Reader

/-!
# No whole number is out of bounds

A text may hold a whole number anywhere, also inside lists and tables between braces, and tables
are changed by every statement after them. **All the numbers come from one place**, where they are
checked, and everything else only moves values about.
-/

set_option autoImplicit false

namespace TriggerFlow.Toml

/-- Every whole number in a value fits in sixty-four bits with its sign. -/
inductive Value.Bounded : Value → Prop where
  | text (s : String) : Bounded (.text s)
  | integer {n : Int} (lower : -2 ^ 63 ≤ n) (upper : n ≤ 2 ^ 63 - 1) : Bounded (.integer n)
  | number (x : Float) : Bounded (.number x)
  | bool (b : Bool) : Bounded (.bool b)
  | moment : Bounded .moment
  | list {items : List Value} (each : ∀ v ∈ items, Bounded v) : Bounded (.list items)
  | table {members : List (String × Value)} (origin : Origin) (each : ∀ m ∈ members, Bounded m.2) :
      Bounded (.table origin members)
  | tables {items : List (List (String × Value))}
      (each : ∀ members ∈ items, ∀ m ∈ members, Bounded m.2) : Bounded (.tables items)

/-- Every whole number in a table is within the bounds. -/
def Table.Bounded (t : Table) : Prop :=
  ∀ m ∈ t, m.2.Bounded

/-! ## Words -/

theorem bounded?_eq (n : Int) :
    bounded? n = if -2 ^ 63 ≤ n ∧ n ≤ 2 ^ 63 - 1 then some (.integer n) else none := by
  have hlimit : ((1 <<< 63 : Nat) : Int) = 2 ^ 63 := by decide +kernel
  unfold bounded?
  rw [hlimit]
  congr 1
  exact propext ⟨fun h => ⟨h.1, by omega⟩, fun h => ⟨h.1, by omega⟩⟩

theorem bounded_of_bounded? {n : Int} {v : Value} (h : bounded? n = some v) : v.Bounded := by
  rw [bounded?_eq] at h
  split at h
  · rename_i hbounds
    cases h
    exact .integer hbounds.1 hbounds.2
  · cases h

theorem bounded_of_integer? {cs : List Char} {v : Value} (h : integer? cs = some v) :
    v.Bounded := by
  have hbased : ∀ base cs, basedInteger? base cs = some v → v.Bounded := by
    intro base cs h
    obtain ⟨ds, -, hds⟩ := Option.bind_eq_some_iff.mp h
    exact bounded_of_bounded? hds
  unfold integer? at h
  split at h
  · exact hbased _ _ h
  · exact hbased _ _ h
  · exact hbased _ _ h
  · obtain ⟨ds, -, hds⟩ := Option.bind_eq_some_iff.mp h
    exact bounded_of_bounded? hds

theorem bounded_of_decimal? {cs : List Char} {v : Value} (h : decimal? cs = some v) :
    v.Bounded := by
  have hsigned : ∀ negative x, signed? negative x = some v → v.Bounded := by
    intro negative x h
    unfold signed? at h
    split at h
    · cases h
      exact .number _
    · split at h
      · cases h
      · cases h
        exact .number _
  unfold decimal? at h
  dsimp only at h
  split at h
  · cases h
    exact .number _
  split at h
  · cases h
    exact .number _
  split at h
  · split at h
    · cases h
    · obtain ⟨exponent, -, hx⟩ := Option.bind_eq_some_iff.mp h
      exact hsigned _ _ hx
  · cases h

theorem bounded_of_readWord {cs rest : List Char} {v : Value} (h : readWord cs = .ok (v, rest)) :
    v.Bounded := by
  unfold readWord at h
  dsimp only at h
  split at h
  · split at h
    · split at h
      · cases h
        exact .moment
      · cases h
    · cases h
      exact .moment
  · split at h
    · rename_i hword
      cases h
      unfold word? at hword
      split at hword
      · cases hword
        exact .moment
      · rcases Option.or_eq_some_iff.mp hword with hinteger | ⟨-, hdecimal⟩
        · exact bounded_of_integer? hinteger
        · exact bounded_of_decimal? hdecimal
    · cases h

/-! ## Tables -/

namespace Table

variable {t changed : Table} {key : String} {v : Value}

theorem Bounded.get? (h : t.Bounded) (hv : t.get? key = some v) : v.Bounded := by
  obtain ⟨before, after, rfl, -⟩ := List.lookup_eq_some_iff.mp hv
  exact h (key, v) (by simp)

theorem Bounded.set (h : t.Bounded) (hv : v.Bounded) : (t.set key v).Bounded := by
  induction t with
  | nil => exact fun m hm => List.mem_singleton.mp hm ▸ hv
  | cons n t ih =>
    have ht : Table.Bounded t := fun m hm => h m (List.mem_cons_of_mem n hm)
    unfold Table.set
    split
    · intro m hm
      rcases List.mem_cons.mp hm with rfl | hm
      · exact hv
      · exact ht m hm
    · intro m hm
      rcases List.mem_cons.mp hm with rfl | hm
      · exact h m List.mem_cons_self
      · exact ih ht m hm

/-- A change of a table that puts nothing out of bounds into it. -/
def Keeps (f : Table → Option Table) : Prop :=
  ∀ t changed : Table, t.Bounded → f t = some changed → changed.Bounded

theorem Keeps.changeLast {f : Table → Option Table} (hf : Keeps f) {items changed : List Table}
    (h : ∀ t ∈ items, Table.Bounded t) (hchanged : Table.changeLast f items = some changed) :
    ∀ t ∈ changed, Table.Bounded t := by
  unfold Table.changeLast at hchanged
  split at hchanged
  · rename_i last hlast
    obtain ⟨t, ht, rfl⟩ := Option.map_eq_some_iff.mp hchanged
    intro u hu
    rcases List.mem_append.mp hu with hu | hu
    · exact h u ((List.dropLast_sublist items).subset hu)
    · rw [List.mem_singleton.mp hu]
      exact hf last t (h last (List.mem_of_getLast? hlast)) ht
  · cases hchanged

/-- **A change somewhere in a table is as harmless as it is where it happens.** -/
theorem Keeps.within {f : Table → Option Table} (hf : Keeps f) (keys : List String) :
    Keeps (Table.within f keys) := by
  induction keys with
  | nil => exact hf
  | cons key keys ih =>
    intro t changed ht h
    obtain ⟨v, hv, rfl⟩ := Option.map_eq_some_iff.mp h
    refine ht.set ?_
    split at hv
    · obtain ⟨u, hu, rfl⟩ := Option.map_eq_some_iff.mp hv
      exact .table _ (ih [] u (fun m hm => absurd hm List.not_mem_nil) hu)
    · cases hv
    · rename_i members _ hget
      obtain ⟨u, hu, rfl⟩ := Option.map_eq_some_iff.mp hv
      cases ht.get? hget with
      | table _ each => exact .table _ (ih members u each hu)
    · rename_i items hget
      obtain ⟨us, hus, rfl⟩ := Option.map_eq_some_iff.mp hv
      cases ht.get? hget with
      | tables each => exact .tables (ih.changeLast each hus)
    · cases hv

theorem keeps_openTable (key : Key) : Keeps (Table.openTable key) := by
  refine Keeps.within (fun t changed ht h => ?_) key.above
  split at h
  · cases h
    exact ht.set (.table _ fun m hm => absurd hm List.not_mem_nil)
  · rename_i members hget
    cases h
    cases ht.get? hget with
    | table _ each =>
      intro m hm
      rcases List.mem_append.mp hm with hm | hm
      · exact ht m (List.mem_filter.mp hm).1
      · rw [List.mem_singleton.mp hm]
        exact .table _ each
  · cases h

theorem keeps_openItem (key : Key) : Keeps (Table.openItem key) := by
  refine Keeps.within (fun t changed ht h => ?_) key.above
  split at h
  · cases h
    exact ht.set (.tables fun u hu m hm => by
      rw [List.mem_singleton.mp hu] at hm
      cases hm)
  · rename_i items hget
    cases h
    cases ht.get? hget with
    | tables each =>
      refine ht.set (.tables fun u hu => ?_)
      rcases List.mem_append.mp hu with hu | hu
      · exact each u hu
      · rw [List.mem_singleton.mp hu]
        exact fun m hm => absurd hm List.not_mem_nil
  · cases h

theorem keeps_insert (last : String) {v : Value} (hv : v.Bounded) (keys : List String) :
    Keeps (Table.insert last v keys) := by
  induction keys with
  | nil =>
    intro t changed ht h
    unfold Table.insert at h
    split at h
    · cases h
    · cases h
      exact ht.set hv
  | cons key keys ih =>
    intro t changed ht h
    obtain ⟨w, hw, rfl⟩ := Option.map_eq_some_iff.mp h
    refine ht.set ?_
    split at hw
    · obtain ⟨u, hu, rfl⟩ := Option.map_eq_some_iff.mp hw
      exact .table _ (ih [] u (fun m hm => absurd hm List.not_mem_nil) hu)
    · rename_i members hget
      obtain ⟨u, hu, rfl⟩ := Option.map_eq_some_iff.mp hw
      cases ht.get? hget with
      | table _ each => exact .table _ (ih members u each hu)
    · rename_i members hget
      split at hw
      · cases hw
      · obtain ⟨u, hu, rfl⟩ := Option.map_eq_some_iff.mp hw
        cases ht.get? hget with
        | table _ each => exact .table _ (ih members u each hu)
    · rename_i items hget
      split at hw
      · cases hw
      · obtain ⟨us, hus, rfl⟩ := Option.map_eq_some_iff.mp hw
        cases ht.get? hget with
        | tables each => exact .tables (ih.changeLast each hus)
    · cases hw

end Table

/-! ## Values -/

/-- A reader that takes nothing out of bounds off a text. -/
def ReadsBounded (value : Reader Value) : Prop :=
  ∀ cs v rest, value cs = .ok (v, rest) → v.Bounded

variable {value : Reader Value}

theorem ReadsBounded.itemRound (hvalue : ReadsBounded value) {items : List Value}
    (hitems : ∀ v ∈ items, v.Bounded) {cs rest : List Char} {step : Text.Round (List Value) Value}
    (h : itemRound value items cs = .ok (step, rest)) :
    step.Holds (fun items => ∀ v ∈ items, v.Bounded) Value.Bounded := by
  unfold Toml.itemRound at h
  split at h
  · cases h
    exact .list fun v hv => hitems v (List.mem_reverse.mp hv)
  · split at h
    · cases h
    · rename_i v left hread
      have hall : ∀ u ∈ v :: items, u.Bounded := by
        intro u hu
        rcases List.mem_cons.mp hu with rfl | hu
        · exact hvalue _ _ _ hread
        · exact hitems u hu
      split at h
      · cases h
        exact hall
      · cases h
        exact .list fun u hu => hall u (List.mem_reverse.mp hu)
      · cases h

theorem ReadsBounded.readMember (hvalue : ReadsBounded value) {cs rest : List Char} {key : Key}
    {v : Value} (h : readMember value cs = .ok ((key, v), rest)) : v.Bounded := by
  unfold Toml.readMember at h
  split at h
  · cases h
  · split at h
    · cases h
    · rename_i hread
      cases h
      exact hvalue _ _ _ hread
  · cases h

theorem ReadsBounded.memberRound (hvalue : ReadsBounded value) {t : Table} (ht : t.Bounded)
    {cs rest : List Char} {step : Text.Round Table Value}
    (h : memberRound value t cs = .ok (step, rest)) :
    step.Holds Table.Bounded Value.Bounded := by
  unfold Toml.memberRound at h
  split at h
  · cases h
  · rename_i key v left hread
    have hinsert := Table.keeps_insert key.last (hvalue.readMember hread) key.above t
    split at h
    · rename_i changed hchanged
      cases h
      exact hinsert _ ht hchanged
    · rename_i changed hchanged
      cases h
      exact .table _ (hinsert _ ht hchanged)
    · cases h

theorem readsBounded_readValue (depth : Nat) : ReadsBounded (readValue depth) := by
  have hexact : ∀ word v, v.Bounded → ReadsBounded (readExact word v) := by
    intro word v hv cs u rest h
    unfold readExact at h
    split at h
    · cases h
      exact hv
    · cases h
  have htext : ∀ cs v rest,
      ((readText cs).map fun read => (Value.text read.1, read.2)) = .ok (v, rest) →
        v.Bounded := by
    intro cs v rest h
    obtain ⟨read, -, hread⟩ := Text.eq_ok_of_map h
    cases hread
    exact .text _
  induction depth with
  | zero =>
    intro cs v rest h
    unfold readValue at h
    split at h
    · contradiction
    · contradiction
    · exact htext _ _ _ h
    · exact htext _ _ _ h
    · exact hexact _ _ (.bool _) _ _ _ h
    · exact hexact _ _ (.bool _) _ _ _ h
    · exact bounded_of_readWord h
  | succ depth ih =>
    intro cs v rest h
    unfold readValue at h
    split at h
    · rename_i hdepth
      cases hdepth
      exact Text.loop_keeps (fun _ _ _ _ hitems hround => ih.itemRound hitems hround)
        (fun v hv => absurd hv List.not_mem_nil) h
    · rename_i hdepth
      cases hdepth
      split at h
      · cases h
        exact .table _ fun m hm => absurd hm List.not_mem_nil
      · exact Text.loop_keeps (fun _ _ _ _ ht hround => ih.memberRound ht hround)
          (fun m hm => absurd hm List.not_mem_nil) h
    · exact htext _ _ _ h
    · exact htext _ _ _ h
    · exact hexact _ _ (.bool _) _ _ _ h
    · exact hexact _ _ (.bool _) _ _ _ h
    · exact bounded_of_readWord h

/-! ## Statements -/

/-- What a round of reading statements comes to, with nothing out of bounds. -/
abbrev BoundedRound (step : Text.Round Draft Table) : Prop :=
  step.Holds (fun d => d.table.Bounded) Table.Bounded

theorem Draft.bounded_of_step {table : Option Table} {current : List String}
    (htable : ∀ t ∈ table, Table.Bounded t) {cs rest : List Char} {step : Text.Round Draft Table}
    (h : Draft.step table current cs = .ok (step, rest)) : BoundedRound step := by
  unfold Draft.step at h
  split at h
  · rename_i t
    obtain ⟨left, -, hstep⟩ := Text.eq_ok_of_map h
    cases hstep
    exact htable t rfl
  · cases h

theorem Draft.bounded_of_readHeader {d : Draft} (hd : d.table.Bounded) {cs rest : List Char}
    {step : Text.Round Draft Table} (h : d.readHeader cs = .ok (step, rest)) :
    BoundedRound step := by
  unfold Draft.readHeader at h
  split at h
  · split at h
    · cases h
    · exact Draft.bounded_of_step (fun t ht => Table.keeps_openItem _ _ _ hd ht) h
    · cases h
  · split at h
    · cases h
    · exact Draft.bounded_of_step (fun t ht => Table.keeps_openTable _ _ _ hd ht) h
    · cases h

/-- **A statement puts nothing out of bounds into the tables.** -/
theorem Draft.bounded_of_round {d : Draft} (hd : d.table.Bounded) {cs rest : List Char}
    {step : Text.Round Draft Table} (h : d.round cs = .ok (step, rest)) : BoundedRound step := by
  unfold Draft.round at h
  split at h
  · cases h
    exact hd
  · exact Draft.bounded_of_readHeader hd h
  · split at h
    · -- An empty line is a statement that adds nothing.
      exact Draft.bounded_of_step (fun t ht => Option.mem_some.mp ht ▸ hd) h
    · split at h
      · cases h
      · rename_i key v left hread
        have hv := (readsBounded_readValue deepest).readMember hread
        exact Draft.bounded_of_step (fun t ht =>
          (Table.keeps_insert key.last hv key.above).within d.current _ _ hd ht) h

/-- **No text holds a whole number that is out of bounds.** -/
theorem bounded_of_parse {s : String} {t : Table} (h : parse s = .ok t) : t.Bounded := by
  unfold parse at h
  dsimp only at h
  split at h
  all_goals
    obtain ⟨⟨u, rest⟩, hloop, rfl⟩ := Text.eq_ok_of_map h
    exact Text.loop_keeps (fun _ _ _ _ hd hround => Draft.bounded_of_round hd hround)
      (fun m hm => absurd hm List.not_mem_nil) hloop

/-! ## Taking values out -/

theorem Value.Bounded.natural {v : Value} (hv : v.Bounded) {n : Nat} (h : v.natural = .ok n) :
    n ≤ 2 ^ 63 - 1 := by
  unfold Value.natural at h
  split at h
  · cases h
    cases hv with
    | integer lower upper =>
      have hn : (n : Int) ≤ 2 ^ 63 - 1 := upper
      omega
  · cases h
  · cases h

theorem foldlM_keeps {ε σ α : Type} {f : σ → α → Except ε σ} {Holds : σ → Prop} {as : List α}
    (hf : ∀ s, Holds s → ∀ a ∈ as, ∀ next, f s a = .ok next → Holds next) :
    ∀ {s last : σ}, Holds s → as.foldlM f s = .ok last → Holds last := by
  induction as with
  | nil =>
    intro s last hs h
    cases h
    exact hs
  | cons a as ih =>
    intro s last hs h
    rw [List.foldlM_cons] at h
    cases hnext : f s a with
    | error e =>
      rw [hnext] at h
      cases h
    | ok next =>
      rw [hnext] at h
      exact ih (fun s hs b hb => hf s hs b (List.mem_cons_of_mem a hb))
        (hf s hs a List.mem_cons_self next hnext) h

theorem decodeMembers_keeps {σ : Type} {fields : List (Field σ)} {default s : σ} {t : Table}
    (Holds : σ → Prop)
    (hfields : ∀ field ∈ fields, ∀ s, Holds s → ∀ w : Value, w.Bounded →
      ∀ next, field.decode s w = .ok next → Holds next)
    (ht : t.Bounded) (hdefault : Holds default) (h : decodeMembers fields default t = .ok s) :
    Holds s := by
  refine foldlM_keeps (fun s hs m hm next hnext => ?_) hdefault h
  split at hnext
  · rename_i field hfield
    exact hfields field (List.mem_of_find?_eq_some hfield) s hs m.2 (ht m hm) next hnext
  · cases hnext
    exact hs

/-- **A record keeps what its fields keep**, in each of its forms. -/
theorem Value.Bounded.record {σ : Type} {title : String} {fields : List (Field σ)} {default s : σ}
    {v : Value} (hv : v.Bounded) (Holds : σ → Prop)
    (hfields : ∀ field ∈ fields, ∀ s, Holds s → ∀ w : Value, w.Bounded →
      ∀ next, field.decode s w = .ok next → Holds next)
    (hdefault : Holds default) (h : v.record title fields default = .ok s) : Holds s := by
  have hitems : ∀ items : List Value, (∀ w ∈ items, w.Bounded) →
      decodeItems fields default items = .ok s → Holds s := by
    intro items hbounded h
    refine foldlM_keeps (fun s hs pair hpair next hnext => ?_) hdefault h
    obtain ⟨hfield, hw⟩ := List.of_mem_zip hpair
    exact hfields _ hfield s hs _ (hbounded _ hw) next hnext
  cases hv with
  | table origin each => exact decodeMembers_keeps Holds hfields each hdefault h
  | list each => exact hitems _ each h
  | tables each =>
    refine hitems _ (fun w hw => ?_) h
    obtain ⟨members, hmembers, rfl⟩ := List.mem_map.mp hw
    exact .table _ (each members hmembers)
  | moment =>
    cases h
    exact hdefault
  | text | integer | number | bool => cases h

end TriggerFlow.Toml
