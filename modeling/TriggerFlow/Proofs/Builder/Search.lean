import TriggerFlow.Proofs.Builder.Tokens
import TriggerFlow.Proofs.Document.Edits

/-!
# The search for a free id

Put plainly, the search is a loop: it draws a token and ends if that one is free, and it draws from
the source sixty-four times before it turns to the spare tokens. Nothing in the loop bounds it, and
if the spare tokens repeated themselves it could go on for ever. **It ends because each token that
is not free is held by an action of its own**, so that a document runs out of actions before the
loop runs out of tokens; and what it ends with is what the builder makes.
-/

set_option autoImplicit false

namespace TriggerFlow

variable {τ : Type} [TokenSource τ]

/-- A search that is under way. -/
structure Search (τ : Type) where
  /-- How many tokens of the source have been drawn. -/
  tried : Nat
  /-- With the tokens that are left. -/
  builder : Builder τ

namespace Search

open Builder (attempts idOf)

/-- The next token, of the source as long as it may be tried and a spare one from then on. -/
def draw (s : Search τ) : String × Search τ :=
  if s.tried < attempts then
    let (token, source) := TokenSource.next s.builder.source
    (token, ⟨s.tried + 1, { s.builder with source }⟩)
  else
    (s.builder.spare s.builder.spared,
      { s with builder := { s.builder with spared := s.builder.spared + 1 } })

/-- **Tokens are drawn until one is free**: the loop itself, of which nothing says that it ends. -/
inductive Ends (d : Document) (kind : Kind) : Search τ → String → Search τ → Prop where
  | free {s s' : Search τ} {token : String} (drawn : s.draw = (token, s'))
    (free : idOf kind token ∉ d.ids) : Ends d kind s (idOf kind token) s'
  | taken {s s₁ s' : Search τ} {token id : String} (drawn : s.draw = (token, s₁))
    (taken : idOf kind token ∈ d.ids) (later : Ends d kind s₁ id s') : Ends d kind s id s'

variable {d : Document} {kind : Kind} {id : String} {s' : Search τ}

theorem draw_of_lt (b : Builder τ) {tried : Nat} (h : tried < attempts) :
    draw ⟨tried, b⟩ = ((TokenSource.next b.source).1,
      ⟨tried + 1, { b with source := (TokenSource.next b.source).2 }⟩) :=
  if_pos h

theorem draw_of_le (b : Builder τ) {tried : Nat} (h : attempts ≤ tried) :
    draw ⟨tried, b⟩ = (b.spare b.spared, ⟨tried, { b with spared := b.spared + 1 }⟩) :=
  if_neg (Nat.not_lt.mpr h)

/-- A search has at most one end. -/
theorem Ends.unique {s s₁ s₂ : Search τ} {id₁ id₂ : String} (h₁ : Ends d kind s id₁ s₁)
    (h₂ : Ends d kind s id₂ s₂) : id₂ = id₁ ∧ s₂ = s₁ := by
  induction h₁ with
  | free hdrawn hfree =>
    cases h₂ with
    | free hagain =>
      cases hdrawn.symm.trans hagain
      exact ⟨rfl, rfl⟩
    | taken hagain htaken =>
      cases hdrawn.symm.trans hagain
      exact absurd htaken hfree
  | taken hdrawn htaken _ ih =>
    cases h₂ with
    | free hagain hfree =>
      cases hdrawn.symm.trans hagain
      exact absurd htaken hfree
    | taken hagain _ hlater =>
      cases hdrawn.symm.trans hagain
      exact ih hlater

/-- Tokens of the source that are not free are passed over. -/
theorem Ends.pass_source (k : Nat) :
    ∀ {tried : Nat} {b : Builder τ}, tried + k ≤ attempts →
      (∀ i < k, idOf kind (TokenSource.token b.source i) ∈ d.ids) →
      Ends d kind ⟨tried + k, { b with source := TokenSource.rest b.source k }⟩ id s' →
      Ends d kind ⟨tried, b⟩ id s' := by
  induction k with
  | zero =>
    intro tried b _ _ hlater
    exact hlater
  | succ k ih =>
    -- The first of them is drawn here, the others from what is left of the source.
    intro tried b hwithin htaken hlater
    refine .taken (draw_of_lt b (by omega)) (htaken 0 (Nat.succ_pos k)) ?_
    refine ih (by omega) (fun i hi => htaken (i + 1) (Nat.succ_lt_succ hi)) ?_
    rwa [← Nat.succ_add_eq_add_succ] at hlater

/-- And so are spare ones. -/
theorem Ends.pass_spare {tried : Nat} (hover : attempts ≤ tried) (k : Nat) :
    ∀ {b : Builder τ}, (∀ i < k, idOf kind (b.spare (b.spared + i)) ∈ d.ids) →
      Ends d kind ⟨tried, { b with spared := b.spared + k }⟩ id s' →
      Ends d kind ⟨tried, b⟩ id s' := by
  induction k with
  | zero =>
    intro b _ hlater
    exact hlater
  | succ k ih =>
    intro b htaken hlater
    refine .taken (draw_of_le b hover) (htaken 0 (Nat.succ_pos k)) ?_
    refine ih (fun i hi => ?_) ?_
    · rw [Nat.succ_add_eq_add_succ]
      exact htaken (i + 1) (Nat.succ_lt_succ hi)
    · rwa [← Nat.succ_add_eq_add_succ] at hlater

/-- **The loop ends at the first free token**, with as many tokens drawn as that takes. -/
theorem ends_of_firstFree {b b' : Builder τ} (h : b.FirstFree attempts d kind id b') :
    ∃ tried ≤ attempts, b'.source = TokenSource.rest b.source tried ∧
      Ends d kind ⟨0, b⟩ id ⟨tried, b'⟩ := by
  cases h with
  | @ofSource k hwithin htaken hfree =>
    refine ⟨k + 1, hwithin, rfl, .pass_source k (by omega) htaken ?_⟩
    rw [Nat.zero_add, TokenSource.rest_succ]
    exact .free (draw_of_lt _ hwithin) hfree
  | @ofSpare k htried htaken hfree =>
    refine ⟨attempts, Nat.le_refl attempts, rfl, .pass_source attempts (by omega) htried ?_⟩
    rw [Nat.zero_add]
    exact .pass_spare (Nat.le_refl attempts) k htaken
      (.free (draw_of_le _ (Nat.le_refl attempts)) hfree)

/-- **And nowhere else**, whatever the spare tokens are. -/
theorem Ends.firstFree {s : Search τ} (h : Ends d kind s id s') :
    s.builder.FirstFree (attempts - s.tried) d kind id s'.builder := by
  induction h with
  | @free s s' token hdrawn hfree =>
    obtain ⟨tried, b⟩ := s
    rcases Nat.lt_or_ge tried attempts with hlt | hge
    · rw [draw_of_lt b hlt] at hdrawn
      cases hdrawn
      exact .ofSource (k := 0) (Nat.sub_pos_of_lt hlt)
        (fun i hi => absurd hi (Nat.not_lt_zero i)) hfree
    · rw [draw_of_le b hge] at hdrawn
      cases hdrawn
      dsimp only
      rw [Nat.sub_eq_zero_of_le hge]
      exact .ofSpare (k := 0) (fun i hi => absurd hi (Nat.not_lt_zero i))
        (fun i hi => absurd hi (Nat.not_lt_zero i)) hfree
  | @taken s s₁ s' token id hdrawn htaken _ ih =>
    obtain ⟨tried, b⟩ := s
    rcases Nat.lt_or_ge tried attempts with hlt | hge
    · rw [draw_of_lt b hlt] at hdrawn
      cases hdrawn
      dsimp only at ih ⊢
      -- The attempt that this token took is the one that the search had more.
      have hleft : attempts - tried = attempts - (tried + 1) + 1 := by omega
      rw [hleft]
      exact ih.pass_source htaken
    · rw [draw_of_le b hge] at hdrawn
      cases hdrawn
      dsimp only at ih ⊢
      rw [Nat.sub_eq_zero_of_le hge] at ih ⊢
      exact ih.pass_spare htaken

end Search

/-! ## Appending -/

/-- With a new action of a kind at the end. -/
def Document.adding (d : Document) (kind : Kind) (id param : String) : Document :=
  { d with actions := d.actions ++
      [⟨id, kind.id, kind.label, if kind.hasParam then some param else none⟩] }

theorem Document.remove_adding (d : Document) (kind : Kind) (id param : String) :
    (d.adding kind id param).remove d.size = .ok d := by
  have hsize : d.size < (d.adding kind id param).size := by
    simp [adding, size]
  refine remove_eq_ok_iff.mpr ⟨hsize, ?_⟩
  unfold adding size
  rw [List.eraseIdx_append_of_length_le (Nat.le_refl _), Nat.sub_self, List.eraseIdx_cons_zero,
    List.append_nil]

namespace Builder

variable {b b' : Builder τ} {d : Document} {kind : Kind} {id : String}

theorem append_of_kind {name : String} (hkind : Kind.ofName? name = some kind) (param : String) :
    b.append d name param =
      (.ok (d.adding kind (b.freshId d kind).1 param), (b.freshId d kind).2) := by
  unfold append
  rw [hkind]
  rfl

/-- So many spare tokens are drawn in a search at most. -/
theorem FirstFree.spared_le {tries : Nat} (hspare : Function.Injective b.spare)
    (h : b.FirstFree tries d kind id b') :
    b.spared ≤ b'.spared ∧ b'.spared ≤ b.spared + (d.size + 1) := by
  cases h with
  | ofSource => exact ⟨Nat.le_refl _, Nat.le_add_right _ _⟩
  | ofSpare _ htaken _ =>
    have := le_size_of_taken hspare htaken
    dsimp only
    omega

/-- **The search for an id always ends.** Whatever the source does, even if it says the same for
ever, the loop has an end and only one, after at most sixty-four tokens of the source and, if the
spare tokens do not repeat, at most one of these more than there are actions. What it ends with is
what the builder makes, so an action of a known kind can always be appended. -/
theorem search_ends (hspare : Function.Injective b.spare) (d : Document) (kind : Kind) :
    ∃ id s, Search.Ends d kind ⟨0, b⟩ id s ∧
      (∀ id' s', Search.Ends d kind ⟨0, b⟩ id' s' → id' = id ∧ s' = s) ∧
      s.tried ≤ 64 ∧ s.builder.source = TokenSource.rest b.source s.tried ∧
      b.spared ≤ s.builder.spared ∧ s.builder.spared ≤ b.spared + (d.size + 1) ∧
      b.freshId d kind = (id, s.builder) ∧
      ∀ name param, Kind.ofName? name = some kind →
        b.append d name param = (.ok (d.adding kind id param), s.builder) := by
  have hfirst := freshId_firstFree d kind fun _ => hspare
  obtain ⟨tried, htried, hsource, hends⟩ := Search.ends_of_firstFree hfirst
  obtain ⟨hle, hbound⟩ := hfirst.spared_le hspare
  exact ⟨_, _, hends, fun id' s' hother => hends.unique hother, htried, hsource, hle, hbound, rfl,
    fun name param hkind => append_of_kind hkind param⟩

/-- A builder whose source repeats the first spare token. -/
def echoing : Builder TokenList :=
  .new ⟨[Serial.token 0]⟩ Serial.token

/-- Holds the id that the first spare token makes. -/
def echoed : Document :=
  ⟨"Go", [⟨idOf .alert (Serial.token 0), "alert", "Alert", some "hi"⟩]⟩

theorem search_ends_echoing :
    Function.Injective echoing.spare ∧
    (echoing.freshId echoed .alert).1 = "alert-00000000000000000000000000000001" ∧
    (echoing.freshId echoed .alert).2.spared = echoing.spared + (echoed.size + 1) ∧
    ∃ id s, Search.Ends echoed .alert ⟨0, echoing⟩ id s ∧ s.tried ≤ 64 ∧
      echoing.freshId echoed .alert = (id, s.builder) := by
  have hspare : Function.Injective echoing.spare := Serial.token_injective
  obtain ⟨id, s, hends, -, htried, -, -, -, hfresh, -⟩ := search_ends hspare echoed .alert
  exact ⟨hspare, by decide +kernel, by decide +kernel, id, s, hends, htried, hfresh⟩

/-- **An action that is appended gets the id of the first free token**: among the next sixty-four
tokens of the source, of which those up to the free one are used up, and only if all of these are
taken among the spare ones. The search can end with nothing else, whatever the spare tokens are, and
it is what the builder makes if they do not repeat or are not turned to. No other action has that
id. The label and the actions that were there stay as they are, so that without its last action the
document is the one it was. -/
theorem append_takes_firstFree {name : String} (hkind : Kind.ofName? name = some kind)
    (param : String) :
    (∀ id s, Search.Ends d kind ⟨0, b⟩ id s → b.FirstFree 64 d kind id s.builder) ∧
    (((∀ i < 64, idOf kind (TokenSource.token b.source i) ∈ d.ids) → Function.Injective b.spare) →
      ∃ id b' d', b.FirstFree 64 d kind id b' ∧
        b.append d name param = (.ok d', b') ∧
        (∀ a ∈ d.actions, a.id ≠ id) ∧
        d'.label = d.label ∧
        d'.actions = d.actions ++
          [⟨id, kind.id, kind.label, if kind.hasParam then some param else none⟩] ∧
        d'.remove (d'.size - 1) = .ok d) := by
  refine ⟨fun id s hends => hends.firstFree, fun hspare => ?_⟩
  have hfirst : b.FirstFree 64 d kind (b.freshId d kind).1 (b.freshId d kind).2 :=
    freshId_firstFree d kind hspare
  refine ⟨_, _, _, hfirst, append_of_kind hkind param, fun a ha heq => ?_, rfl, rfl, ?_⟩
  · exact hfirst.isFree.2 (heq ▸ List.mem_map_of_mem ha)
  · have hlast : (d.adding kind (b.freshId d kind).1 param).size - 1 = d.size := by
      simp [Document.adding, Document.size]
    rw [hlast]
    exact d.remove_adding kind _ param

/-- A builder whose source finds something new to say at the last attempt. -/
def hesitant : Builder TokenList :=
  .new ⟨List.replicate 63 "x" ++ ["y", "z"]⟩ Serial.token

/-- Two actions with the same id. -/
def doubled : Document :=
  ⟨"Go", [⟨"alert-x", "alert", "Alert", none⟩, ⟨"alert-x", "beep", "Beep", none⟩]⟩

theorem append_takes_firstFree_hesitant :
    Kind.ofName? "alert" = some .alert ∧ Function.Injective hesitant.spare ∧
    ((hesitant.append doubled "alert" "hi").1.toOption.map Document.ids) =
      some ["alert-x", "alert-x", "alert-y"] ∧
    (hesitant.append doubled "alert" "hi").2.source = ⟨["z"]⟩ ∧
    (hesitant.append doubled "alert" "hi").2.spared = 0 ∧
    ∃ id b' d', hesitant.FirstFree 64 doubled .alert id b' ∧
      hesitant.append doubled "alert" "hi" = (.ok d', b') ∧
      d'.remove (d'.size - 1) = .ok doubled := by
  have hkind : Kind.ofName? "alert" = some .alert := by decide
  have hspare : Function.Injective hesitant.spare := Serial.token_injective
  obtain ⟨id, b', d', hfirst, happend, -, -, -, hback⟩ :=
    (append_takes_firstFree (b := hesitant) (d := doubled) hkind "hi").2 fun _ => hspare
  exact ⟨hkind, hspare, by decide +kernel, by decide +kernel, by decide +kernel,
    id, b', d', hfirst, happend, hback⟩

end Builder
end TriggerFlow
