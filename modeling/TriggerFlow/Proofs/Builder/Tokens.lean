import TriggerFlow.Builder
import TriggerFlow.Proofs.Document.Ids
import TriggerFlow.Text.Digits

/-!
# An id that is free

A source may hand out the same token for ever, so that none of its tokens is free. What the builder
turns to then are tokens that do not repeat, and of these **one more than the document has actions
is always enough**: if all of them were taken, the document would hold more ids than actions. So the
id of a new action is free whatever the source does.
-/

set_option autoImplicit false

namespace TriggerFlow

/-! ## Numbered tokens -/

namespace Serial

/-- The number that hexadecimal digits write. -/
def number (digits : List Char) : Nat :=
  digits.foldl (fun n c => n * 16 + (Text.hexValue? c).getD 0) 0

theorem number_concat (digits : List Char) (c : Char) :
    number (digits ++ [c]) = number digits * 16 + (Text.hexValue? c).getD 0 := by
  simp [number]

theorem number_toDigits (n : Nat) : number (Nat.toDigits 16 n) = n := by
  induction n using Nat.strongRecOn with
  | ind n ih =>
    rw [Nat.toDigits_eq_if (by decide)]
    split
    · rename_i hlt
      simp [number, Text.hexValue?_digitChar hlt]
    · have hlast : n % 16 < 16 := Nat.mod_lt n (by decide)
      rw [number_concat, ih (n / 16) (by omega), Text.hexValue?_digitChar hlast, Option.getD_some]
      omega

theorem number_padded (zeros : Nat) (digits : List Char) :
    number (List.replicate zeros '0' ++ digits) = number digits := by
  have hzero : (Text.hexValue? '0').getD 0 = 0 := by decide
  induction zeros with
  | zero => rfl
  | succ zeros ih =>
    rw [List.replicate_succ, List.cons_append, number, List.foldl_cons, hzero]
    exact ih

/-- A padded number is told by its digits, whatever the width. -/
theorem number_padZeros (width n : Nat) :
    number (Decimal.padZeros width (Text.hexDigits n)).toList = n := by
  unfold Decimal.padZeros Text.hexDigits
  rw [String.toList_append, String.toList_ofList, String.toList_ofList, number_padded,
    number_toDigits]

/-- A token tells its number. -/
theorem number_token (n : Nat) : number (token n).toList = n :=
  number_padZeros 32 n

theorem token_injective : Function.Injective token := by
  intro m n h
  rw [← number_token m, h, number_token n]

end Serial

/-! ## The tokens of a source -/

namespace TokenSource

variable {τ : Type} [TokenSource τ]

/-- What is left of a source when so many tokens have been taken. -/
def rest (source : τ) : Nat → τ
  | 0 => source
  | n + 1 => rest (next source).2 n

/-- The token that follows so many others. -/
def token (source : τ) (n : Nat) : String :=
  (next (rest source n)).1

theorem rest_succ (source : τ) (n : Nat) : rest source (n + 1) = (next (rest source n)).2 := by
  induction n generalizing source with
  | zero => rfl
  | succ n ih => exact ih (next source).2

end TokenSource

/-! ## Free ids -/

namespace Builder

variable {τ : Type}

theorem idOf_injective (kind : Kind) : Function.Injective (idOf kind) := by
  intro s t h
  exact (String.append_right_inj _).mp h

/-- **A source is tried up to its first free token**, or as often as it may be. -/
theorem tryTokens_cases [TokenSource τ] (d : Document) (kind : Kind) (tries : Nat) :
    ∀ source : τ,
      (∃ k < tries, (∀ i < k, idOf kind (TokenSource.token source i) ∈ d.ids) ∧
        idOf kind (TokenSource.token source k) ∉ d.ids ∧
        tryTokens d kind tries source =
          (some (idOf kind (TokenSource.token source k)), TokenSource.rest source (k + 1))) ∨
      (∀ i < tries, idOf kind (TokenSource.token source i) ∈ d.ids) ∧
        tryTokens d kind tries source = (none, TokenSource.rest source tries) := by
  induction tries with
  | zero =>
    intro source
    exact .inr ⟨fun i hi => absurd hi (Nat.not_lt_zero i), rfl⟩
  | succ tries ih =>
    intro source
    unfold tryTokens
    dsimp only
    by_cases htaken : d.containsId (idOf kind (TokenSource.next source).1) = true
    · have hfirst : idOf kind (TokenSource.token source 0) ∈ d.ids :=
        Document.containsId_iff.mp htaken
      rw [if_pos htaken]
      rcases ih (TokenSource.next source).2 with ⟨k, hk, hpassed, hfree, heq⟩ | ⟨hall, heq⟩
      · refine .inl ⟨k + 1, Nat.succ_lt_succ hk, fun i hi => ?_, hfree, heq⟩
        cases i with
        | zero => exact hfirst
        | succ i => exact hpassed i (Nat.lt_of_succ_lt_succ hi)
      · refine .inr ⟨fun i hi => ?_, heq⟩
        cases i with
        | zero => exact hfirst
        | succ i => exact hall i (Nat.lt_of_succ_lt_succ hi)
    · rw [if_neg htaken]
      refine .inl ⟨0, Nat.succ_pos tries, fun i hi => absurd hi (Nat.not_lt_zero i), ?_, rfl⟩
      exact fun hmem => htaken (Document.containsId_iff.mpr hmem)

/-- Every spare token that was passed over is taken, and the search ends early only at a free
one. -/
theorem firstFree_spec (d : Document) (kind : Kind) (spare : Nat → String) (tries : Nat) :
    ∀ index,
      (∀ i, index ≤ i → i < firstFree d kind spare tries index → idOf kind (spare i) ∈ d.ids) ∧
      (idOf kind (spare (firstFree d kind spare tries index)) ∈ d.ids →
        firstFree d kind spare tries index = index + tries) := by
  induction tries with
  | zero =>
    intro index
    refine ⟨fun i hle hlt => ?_, fun _ => rfl⟩
    simp only [firstFree] at hlt
    omega
  | succ tries ih =>
    intro index
    unfold firstFree
    by_cases htaken : d.containsId (idOf kind (spare index)) = true
    · obtain ⟨hpassed, hlast⟩ := ih (index + 1)
      rw [if_pos htaken]
      refine ⟨fun i hle hlt => ?_, fun hmem => ?_⟩
      · by_cases hi : i = index
        · subst hi
          exact Document.containsId_iff.mp htaken
        · exact hpassed i (by omega) hlt
      · rw [hlast hmem]
        omega
    · rw [if_neg htaken]
      refine ⟨fun i hle hlt => by omega, fun hmem => ?_⟩
      exact absurd (Document.containsId_iff.mpr hmem) htaken

theorem le_firstFree (d : Document) (kind : Kind) (spare : Nat → String) (tries : Nat) :
    ∀ index, index ≤ firstFree d kind spare tries index := by
  induction tries with
  | zero =>
    intro index
    exact Nat.le_refl index
  | succ tries ih =>
    intro index
    unfold firstFree
    split
    · exact Nat.le_of_succ_le (ih (index + 1))
    · exact Nat.le_refl index

/-- **Among spare tokens that do not repeat, no more can be taken than there are actions.** -/
theorem le_size_of_taken {d : Document} {kind : Kind} {spare : Nat → String}
    (hspare : Function.Injective spare) {index count : Nat}
    (htaken : ∀ i < count, idOf kind (spare (index + i)) ∈ d.ids) : count ≤ d.size := by
  have hnodup : ((List.range count).map fun i => idOf kind (spare (index + i))).Nodup := by
    refine List.Nodup.map ?_ List.nodup_range
    intro i j hij
    have := hspare (idOf_injective kind hij)
    omega
  have hsubset : ((List.range count).map fun i => idOf kind (spare (index + i))) ⊆ d.ids := by
    intro id hid
    obtain ⟨i, hi, rfl⟩ := List.mem_map.mp hid
    exact htaken i (List.mem_range.mp hi)
  have hlength := hnodup.length_le_of_subset hsubset
  rwa [List.length_map, List.length_range, Document.length_ids] at hlength

/-- So one more than there are actions is enough. -/
theorem firstFree_free {spare : Nat → String} (hspare : Function.Injective spare) (d : Document)
    (kind : Kind) (index : Nat) :
    idOf kind (spare (firstFree d kind spare d.size index)) ∉ d.ids := by
  intro hmem
  obtain ⟨hpassed, hlast⟩ := firstFree_spec d kind spare d.size index
  have hend := hlast hmem
  have htaken : ∀ i < d.size + 1, idOf kind (spare (index + i)) ∈ d.ids := by
    intro i hi
    rcases Nat.lt_succ_iff_lt_or_eq.mp hi with hlt | rfl
    · exact hpassed (index + i) (by omega) (by omega)
    · rw [← hend]
      exact hmem
  have := le_size_of_taken hspare htaken
  omega

/-! ## What a search comes to -/

/-- The id of the first free token, where so many tokens of the source come before the spare ones,
and the builder without the tokens up to that one. -/
inductive FirstFree [TokenSource τ] (tries : Nat) (b : Builder τ) (d : Document) (kind : Kind) :
    String → Builder τ → Prop where
  | ofSource {k : Nat} (within : k < tries)
    (taken : ∀ i < k, idOf kind (TokenSource.token b.source i) ∈ d.ids)
    (free : idOf kind (TokenSource.token b.source k) ∉ d.ids) :
    FirstFree tries b d kind (idOf kind (TokenSource.token b.source k))
      { b with source := TokenSource.rest b.source (k + 1) }
  | ofSpare {k : Nat} (tried : ∀ i < tries, idOf kind (TokenSource.token b.source i) ∈ d.ids)
    (taken : ∀ i < k, idOf kind (b.spare (b.spared + i)) ∈ d.ids)
    (free : idOf kind (b.spare (b.spared + k)) ∉ d.ids) :
    FirstFree tries b d kind (idOf kind (b.spare (b.spared + k)))
      { b with source := TokenSource.rest b.source tries, spared := b.spared + k + 1 }

theorem FirstFree.isFree [TokenSource τ] {tries : Nat} {b b' : Builder τ} {d : Document}
    {kind : Kind} {id : String} (h : b.FirstFree tries d kind id b') :
    (∃ token, id = idOf kind token) ∧ id ∉ d.ids := by
  cases h with
  | ofSource _ _ free => exact ⟨⟨_, rfl⟩, free⟩
  | ofSpare _ _ free => exact ⟨⟨_, rfl⟩, free⟩

/-- A token of the source in front that is taken makes no difference but the attempt it costs. -/
theorem FirstFree.pass_source [TokenSource τ] {tries : Nat} {b b' : Builder τ} {d : Document}
    {kind : Kind} {id : String} (htaken : idOf kind (TokenSource.token b.source 0) ∈ d.ids)
    (h : FirstFree tries { b with source := (TokenSource.next b.source).2 } d kind id b') :
    b.FirstFree (tries + 1) d kind id b' := by
  have hshift : ∀ {count}, (∀ i < count,
      idOf kind (TokenSource.token (TokenSource.next b.source).2 i) ∈ d.ids) →
      ∀ i < count + 1, idOf kind (TokenSource.token b.source i) ∈ d.ids := by
    intro count hcount i hi
    cases i with
    | zero => exact htaken
    | succ i => exact hcount i (Nat.lt_of_succ_lt_succ hi)
  cases h with
  | @ofSource k hwithin hpassed hfree =>
    exact .ofSource (k := k + 1) (Nat.succ_lt_succ hwithin) (hshift hpassed) hfree
  | @ofSpare k htried hpassed hfree => exact .ofSpare (hshift htried) hpassed hfree

/-- Nor does a spare one, once no attempts are left. -/
theorem FirstFree.pass_spare [TokenSource τ] {b b' : Builder τ} {d : Document} {kind : Kind}
    {id : String} (htaken : idOf kind (b.spare b.spared) ∈ d.ids)
    (h : FirstFree 0 { b with spared := b.spared + 1 } d kind id b') :
    b.FirstFree 0 d kind id b' := by
  cases h with
  | ofSource hwithin => exact absurd hwithin (Nat.not_lt_zero _)
  | @ofSpare k htried hpassed hfree =>
    simp only [Nat.succ_add_eq_add_succ] at hpassed hfree ⊢
    refine .ofSpare (k := k + 1) htried (fun i hi => ?_) hfree
    cases i with
    | zero => exact htaken
    | succ i => exact hpassed i (Nat.lt_of_succ_lt_succ hi)

/-- **The id of a new action is that of the first free token.** That spare tokens do not repeat
matters only where they are turned to. -/
theorem freshId_firstFree [TokenSource τ] {b : Builder τ} (d : Document) (kind : Kind)
    (hspare : (∀ i < attempts, idOf kind (TokenSource.token b.source i) ∈ d.ids) →
      Function.Injective b.spare) :
    b.FirstFree attempts d kind (b.freshId d kind).1 (b.freshId d kind).2 := by
  unfold freshId
  rcases tryTokens_cases d kind attempts b.source with ⟨k, hk, htaken, hfree, heq⟩ | ⟨hall, heq⟩
  · rw [heq]
    exact .ofSource hk htaken hfree
  · rw [heq]
    dsimp only
    have hfree := firstFree_free (hspare hall) d kind b.spared
    obtain ⟨hpassed, -⟩ := firstFree_spec d kind b.spare d.size b.spared
    obtain ⟨k, hk⟩ := Nat.exists_eq_add_of_le (le_firstFree d kind b.spare d.size b.spared)
    rw [hk] at hpassed hfree ⊢
    exact .ofSpare hall (fun i hi => hpassed _ (by omega) (by omega)) hfree

theorem spare_freshId [TokenSource τ] (b : Builder τ) (d : Document) (kind : Kind) :
    (b.freshId d kind).2.spare = b.spare := by
  unfold freshId
  split <;> rfl

end Builder
end TriggerFlow
