import Mathlib
import TriggerFlow.Proofs.Builder.Search
import TriggerFlow.Proofs.Builder.Session

/-!
# Numbered ids

A builder that counts hands out ids that end in a number or, when sixty-four numbers in a row are
taken, in a spare token. **What it can still hand out lies ahead of it**: numbers above the counter
and spare tokens that are not used up. Each append leaves its own id behind, and an id names its
kind and its token, so that no id comes twice in a session, on whichever documents it works and
whatever ids these already hold.
-/

set_option autoImplicit false

namespace TriggerFlow

/-! ## What an id says -/

namespace Builder

theorem toList_idOf (kind : Kind) (token : String) :
    (idOf kind token).toList = kind.id.toList ++ '-' :: token.toList := by
  unfold idOf
  rw [String.toList_append, String.toList_append, List.append_assoc]
  rfl

/-- No kind has a hyphen, so the first one of an id ends its kind. -/
theorem all_ne_hyphen (kind : Kind) : (kind.id.toList.all fun c => c ≠ '-') = true := by
  cases kind <;> decide

/-- **An id names its kind and its token.** -/
theorem idOf_inj {kind kind' : Kind} {token token' : String} :
    idOf kind token = idOf kind' token' ↔ kind = kind' ∧ token = token' := by
  constructor
  · intro h
    have hchars := congrArg String.toList h
    rw [toList_idOf, toList_idOf] at hchars
    have hbefore := congrArg (List.takeWhile fun c => c ≠ '-') hchars
    rw [List.takeWhile_append_of_pos (List.all_eq_true.mp (all_ne_hyphen kind)),
      List.takeWhile_append_of_pos (List.all_eq_true.mp (all_ne_hyphen kind'))] at hbefore
    have hid : kind.id.toList = kind'.id.toList := by simpa using hbefore
    have hkind := congrArg Kind.ofName? (String.toList_inj.mp hid)
    rw [Kind.ofName?_id, Kind.ofName?_id] at hkind
    obtain rfl := Option.some.inj hkind
    exact ⟨rfl, idOf_injective kind h⟩
  · rintro ⟨rfl, rfl⟩
    rfl

end Builder

/-! ## The tokens of a counter -/

namespace Counter

theorem rest_eq (n : Nat) : ∀ c : Counter, TokenSource.rest c n = ⟨c.last + n⟩ := by
  induction n with
  | zero =>
    intro c
    rfl
  | succ n ih =>
    intro c
    refine (ih _).trans ?_
    show (⟨c.last + 1 + n⟩ : Counter) = _
    rw [Nat.succ_add_eq_add_succ]

theorem token_eq (c : Counter) (n : Nat) :
    TokenSource.token c n = toString (c.last + n + 1) := by
  unfold TokenSource.token
  rw [rest_eq]
  rfl

end Counter

/-! ## Sessions -/

/-- An action to append, and the document to append it to. -/
structure Request where
  document : Document
  name : String
  param : String

namespace Builder

section Sessions

variable {τ : Type} [TokenSource τ]

/-- Appends in turn through one builder, and what they are answered. -/
def appendEach (b : Builder τ) : List Request → List (Except Failure Document)
  | [] => []
  | r :: requests =>
    (b.append r.document r.name r.param).1 ::
      (b.append r.document r.name r.param).2.appendEach requests

/-- The builder after them. -/
def afterEach (b : Builder τ) (requests : List Request) : Builder τ :=
  requests.foldl (fun b r => (b.append r.document r.name r.param).2) b

/-- The id of the action that an append has put at the end. -/
def newId? : Except Failure Document → Option String
  | .ok d => d.ids.getLast?
  | .error _ => none

/-- The ids that a session of appends hands out. -/
def handedOut (b : Builder τ) (requests : List Request) : List String :=
  (b.appendEach requests).filterMap newId?

theorem newId?_adding (d : Document) (kind : Kind) (id param : String) :
    newId? (.ok (d.adding kind id param)) = some id := by
  simp [newId?, Document.adding, Document.ids]

/-- What one append adds to the ids of a session, and the builder that it leaves. -/
theorem handedOut_cons (b : Builder τ) (r : Request) (requests : List Request) :
    (∃ kind, Kind.ofName? r.name = some kind ∧
      b.handedOut (r :: requests) = (b.freshId r.document kind).1 ::
        (b.freshId r.document kind).2.handedOut requests) ∨
    Kind.ofName? r.name = none ∧ b.handedOut (r :: requests) = b.handedOut requests := by
  unfold handedOut
  cases hkind : Kind.ofName? r.name with
  | none =>
    refine .inr ⟨rfl, ?_⟩
    have happend : b.append r.document r.name r.param = (.error (.unknownKind r.name), b) := by
      unfold append
      rw [hkind]
    rw [appendEach, happend]
    rfl
  | some kind =>
    refine .inl ⟨kind, rfl, ?_⟩
    rw [appendEach, append_of_kind hkind, List.filterMap_cons_some (newId?_adding _ _ _ _)]

theorem spare_afterEach (requests : List Request) :
    ∀ b : Builder τ, (b.afterEach requests).spare = b.spare := by
  induction requests with
  | nil =>
    intro b
    rfl
  | cons r requests ih =>
    intro b
    exact (ih _).trans (spare_append b r.document r.name r.param)

end Sessions

/-! ## What lies ahead -/

/-- Tokens that do not repeat and that are no numbers. -/
structure Unnumbered (spare : Nat → String) : Prop where
  injective : Function.Injective spare
  ne_number : ∀ i m : Nat, spare i ≠ toString m

/-- An id that a counting builder can still hand out. -/
inductive IsAhead (b : Builder Counter) : String → Prop where
  | number {kind : Kind} {m : Nat} (above : b.source.last < m) : IsAhead b (idOf kind (toString m))
  | spare {kind : Kind} {i : Nat} (unused : b.spared ≤ i) : IsAhead b (idOf kind (b.spare i))

variable {b b' : Builder Counter} {d : Document} {kind : Kind} {id : String}

theorem isAhead_number_iff (hspare : Unnumbered b.spare) {m : Nat} :
    b.IsAhead (idOf kind (toString m)) ↔ b.source.last < m := by
  refine ⟨fun h => ?_, .number⟩
  generalize hid : idOf kind (toString m) = id at h
  cases h with
  | number above => rwa [Nat.repr_injective (idOf_inj.mp hid).2]
  | spare _ => exact absurd (idOf_inj.mp hid).2.symm (hspare.ne_number _ _)

theorem isAhead_spare_iff (hspare : Unnumbered b.spare) {i : Nat} :
    b.IsAhead (idOf kind (b.spare i)) ↔ b.spared ≤ i := by
  refine ⟨fun h => ?_, .spare⟩
  generalize hid : idOf kind (b.spare i) = id at h
  cases h with
  | number _ => exact absurd (idOf_inj.mp hid).2 (hspare.ne_number _ _)
  | spare unused => rwa [hspare.injective (idOf_inj.mp hid).2]

/-- A builder that has gone on can hand out nothing that it could not before. -/
theorem IsAhead.mono (hkept : b'.spare = b.spare) (hlast : b.source.last ≤ b'.source.last)
    (hspared : b.spared ≤ b'.spared) (h : b'.IsAhead id) : b.IsAhead id := by
  cases h with
  | number above => exact .number (Nat.lt_of_le_of_lt hlast above)
  | spare unused =>
    rw [hkept]
    exact .spare (Nat.le_trans hspared unused)

/-- **What a search finds was ahead and is left behind**, and nothing else comes to lie ahead. -/
theorem FirstFree.isAhead {tries : Nat} (hspare : Unnumbered b.spare)
    (h : b.FirstFree tries d kind id b') :
    b'.spare = b.spare ∧ b.IsAhead id ∧ ¬ b'.IsAhead id ∧
      ∀ later, b'.IsAhead later → b.IsAhead later := by
  cases h with
  | @ofSource k _ _ _ =>
    rw [Counter.token_eq, Counter.rest_eq]
    refine ⟨rfl, .number (by omega), fun hahead => ?_, fun later => .mono rfl ?_ (Nat.le_refl _)⟩
    · have habove : b.source.last + (k + 1) < b.source.last + k + 1 :=
        (isAhead_number_iff (b := ⟨⟨b.source.last + (k + 1)⟩, b.spare, _⟩) hspare).mp hahead
      omega
    · exact Nat.le_add_right _ _
  | @ofSpare k _ _ _ =>
    rw [Counter.rest_eq]
    refine ⟨rfl, .spare (Nat.le_add_right _ _), fun hahead => ?_, fun later => .mono rfl ?_ ?_⟩
    · have hunused : b.spared + k + 1 ≤ b.spared + k :=
        (isAhead_spare_iff (b := ⟨_, b.spare, b.spared + k + 1⟩) hspare).mp hahead
      omega
    · exact Nat.le_add_right _ _
    · dsimp only
      omega

/-- **The ids of a session are all different**, and all of them lie ahead of where it begins. -/
theorem nodup_handedOut (requests : List Request) :
    ∀ {b : Builder Counter}, Unnumbered b.spare →
      (b.handedOut requests).Nodup ∧ ∀ id ∈ b.handedOut requests, b.IsAhead id := by
  induction requests with
  | nil =>
    intro b _
    exact ⟨List.nodup_nil, fun id hid => by cases hid⟩
  | cons r requests ih =>
    intro b hspare
    rcases handedOut_cons b r requests with ⟨kind, -, heq⟩ | ⟨-, heq⟩
    · have hfirst := freshId_firstFree r.document kind fun _ => hspare.injective
      obtain ⟨hkept, hahead, hbehind, hmono⟩ := hfirst.isAhead hspare
      obtain ⟨hnodup, hlater⟩ := ih (b := (b.freshId r.document kind).2) (hkept ▸ hspare)
      -- All that comes later lies ahead of the builder that is left, and this id does not.
      have hnew : (b.freshId r.document kind).1 ∉
          (b.freshId r.document kind).2.handedOut requests := fun hmem => hbehind (hlater _ hmem)
      rw [heq]
      refine ⟨List.nodup_cons.mpr ⟨hnew, hnodup⟩, fun id hid => ?_⟩
      rcases List.mem_cons.mp hid with rfl | hid
      · exact hahead
      · exact hmono id (hlater id hid)
    · rw [heq]
      exact ih hspare

/-! ## The next number -/

/-- The numbers above the counter that make an id which is free in a document. -/
def freeNumbers (b : Builder Counter) (d : Document) (kind : Kind) : Set Nat :=
  {m | b.source.last < m ∧ idOf kind (toString m) ∉ d.ids}

/-- The spare tokens not used up that do. -/
def freeSpares (b : Builder Counter) (d : Document) (kind : Kind) : Set Nat :=
  {i | b.spared ≤ i ∧ idOf kind (b.spare i) ∉ d.ids}

/-- The id that a counting builder takes and the builder that it is then: the least free number, if
it is one of the next sixty-four, or else the first free spare token. -/
inductive TakesNext (b : Builder Counter) (d : Document) (kind : Kind) :
    String → Builder Counter → Prop where
  | number {m : Nat} (least : IsLeast (b.freeNumbers d kind) m) (within : m ≤ b.source.last + 64) :
    TakesNext b d kind (idOf kind (toString m)) { b with source := ⟨m⟩ }
  | spare {m i : Nat} (least : IsLeast (b.freeNumbers d kind) m)
    (beyond : b.source.last + 64 < m) (first : IsLeast (b.freeSpares d kind) i) :
    TakesNext b d kind (idOf kind (b.spare i))
      { b with source := ⟨b.source.last + 64⟩, spared := i + 1 }

/-- No document holds all numbers, so there is one to take. -/
theorem exists_isLeast_freeNumbers (b : Builder Counter) (d : Document) (kind : Kind) :
    ∃ m, IsLeast (b.freeNumbers d kind) m := by
  classical
  have hfree : ∃ m, b.source.last < m ∧ idOf kind (toString m) ∉ d.ids := by
    by_contra hnone
    have htaken : ∀ i < d.size + 1, idOf kind (toString (b.source.last + 1 + i)) ∈ d.ids := by
      intro i _
      by_contra hmem
      exact hnone ⟨b.source.last + 1 + i, by omega, hmem⟩
    have := le_size_of_taken (fun _ _ h => Nat.repr_injective h) htaken
    omega
  exact ⟨Nat.find hfree, Nat.isLeast_find hfree⟩

/-- A number is not free if so many that follow the counter are taken and it is one of them. -/
theorem lt_of_mem_freeNumbers {count m : Nat}
    (htaken : ∀ i < count, idOf kind (toString (b.source.last + i + 1)) ∈ d.ids)
    (hm : m ∈ b.freeNumbers d kind) : b.source.last + count < m := by
  obtain ⟨habove, hfree⟩ := hm
  by_contra hle
  obtain ⟨i, rfl⟩ := Nat.exists_eq_add_of_le (Nat.succ_le_of_lt habove)
  rw [Nat.succ_add] at hfree
  exact hfree (htaken i (by omega))

theorem lt_of_mem_freeSpares {count i : Nat}
    (htaken : ∀ j < count, idOf kind (b.spare (b.spared + j)) ∈ d.ids)
    (hi : i ∈ b.freeSpares d kind) : b.spared + count ≤ i := by
  obtain ⟨hunused, hfree⟩ := hi
  by_contra hlt
  obtain ⟨j, rfl⟩ := Nat.exists_eq_add_of_le hunused
  exact hfree (htaken j (by omega))

/-- **The first free token of a counter is the least free number**, as long as it is within
reach. -/
theorem FirstFree.takesNext (h : b.FirstFree 64 d kind id b') : b.TakesNext d kind id b' := by
  cases h with
  | @ofSource k hwithin htaken hfree =>
    simp only [Counter.token_eq] at htaken hfree ⊢
    rw [Counter.rest_eq]
    have hleast : IsLeast (b.freeNumbers d kind) (b.source.last + k + 1) :=
      ⟨⟨by omega, hfree⟩, fun m hm => lt_of_mem_freeNumbers htaken hm⟩
    exact .number hleast (by omega)
  | @ofSpare k htried htaken hfree =>
    simp only [Counter.token_eq] at htried
    rw [Counter.rest_eq]
    obtain ⟨m, hleast⟩ := exists_isLeast_freeNumbers b d kind
    have hfirst : IsLeast (b.freeSpares d kind) (b.spared + k) :=
      ⟨⟨Nat.le_add_right _ _, hfree⟩, fun i hi => lt_of_mem_freeSpares htaken hi⟩
    exact .spare hleast (lt_of_mem_freeNumbers htried hleast.1) hfirst

/-- **Ids that are numbered in turn never repeat.** All ids that a session of appends hands out
are different, on whichever documents and of whichever kinds. At every moment of it an append takes
the least number above the counter that is free in its document, and the counter then stands there;
if that number is not one of the next sixty-four, it takes the first free spare token, and the
counter has gone on by sixty-four. -/
theorem handedOut_never_repeats {b : Builder Counter} (hspare : Unnumbered b.spare)
    (requests : List Request) :
    (b.handedOut requests).Nodup ∧
    ∀ (d : Document) (name param : String) (kind : Kind), Kind.ofName? name = some kind →
      ∃ id b', (b.afterEach requests).TakesNext d kind id b' ∧
        (b.afterEach requests).append d name param = (.ok (d.adding kind id param), b') := by
  refine ⟨(nodup_handedOut requests hspare).1, fun d name param kind hkind => ?_⟩
  have hkept : Function.Injective (b.afterEach requests).spare := by
    rw [spare_afterEach]
    exact hspare.injective
  exact ⟨_, _, (freshId_firstFree d kind fun _ => hkept).takesNext, append_of_kind hkind param⟩

/-- Thirty-two digits that begin with a letter. -/
def lettered (n : Nat) : String :=
  "a" ++ Decimal.padZeros 31 (Text.hexDigits n)

theorem unnumbered_lettered : Unnumbered lettered where
  injective := by
    intro m n h
    have hdigits := (String.append_right_inj _).mp h
    rw [← Serial.number_padZeros 31 m, hdigits, Serial.number_padZeros]
  ne_number := by
    intro i m h
    have hletter : 'a' ∈ (toString m).toList := by
      rw [← h, lettered, String.toList_append]
      exact List.mem_append_left _ (List.mem_singleton.mpr rfl)
    rw [Nat.toString_eq_repr, Nat.toList_repr] at hletter
    have hdigit := Nat.isDigit_of_mem_toDigits (by decide) (by decide) hletter
    exact absurd hdigit (by decide)

/-- A builder that counts from the start. -/
def counting : Builder Counter :=
  .new .initial lettered

/-- A document with two ids from an earlier builder. -/
def saved : Document :=
  ⟨"Go", [⟨"showText-1", "showText", "Show Text", some "a"⟩,
    ⟨"showText-2", "showText", "Show Text", some "b"⟩]⟩

/-- A document in which the sixty-four numbers that follow three are taken. -/
def crowded : Document :=
  ⟨"Go", (List.range 64).map fun i =>
    ⟨"alert-" ++ toString (i + 4), "alert", "Alert", some "hi"⟩⟩

/-- Four appends, one of a kind that nobody knows. -/
def mixed : List Request :=
  [⟨saved, "show-text", "c"⟩, ⟨saved, "beep", ""⟩, ⟨crowded, "alert", "hi"⟩, ⟨.empty, "close", ""⟩]

theorem handedOut_mixed :
    Unnumbered counting.spare ∧
    counting.handedOut mixed =
      ["showText-3", "alert-a0000000000000000000000000000000", "closeWindow-68"] ∧
    (counting.handedOut mixed).Nodup ∧
    Kind.ofName? "show-text" = some .showText ∧
    ∃ id b', (counting.afterEach mixed).TakesNext saved .showText id b' ∧
      (counting.afterEach mixed).append saved "show-text" "d" =
        (.ok (saved.adding .showText id "d"), b') := by
  have hspare : Unnumbered counting.spare := unnumbered_lettered
  have hkind : Kind.ofName? "show-text" = some .showText := by decide
  obtain ⟨hnodup, hnext⟩ := handedOut_never_repeats hspare mixed
  exact ⟨hspare, by decide +kernel, hnodup, hkind, hnext saved _ "d" _ hkind⟩

end Builder
end TriggerFlow
