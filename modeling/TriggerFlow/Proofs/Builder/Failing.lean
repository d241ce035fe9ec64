import TriggerFlow.Proofs.Builder.Session

/-!
# Edits that fail

An edit fails if it names a kind that nobody knows or a position that no action has, and for no
other reason. What edits have in common is the builder alone, so a failed one could be noticed later
only by the tokens that it took. **It takes none**: a session without its failed edits makes the same
documents, hands out the same ids and leaves the same tokens.
-/

set_option autoImplicit false

namespace TriggerFlow

theorem Kind.ofName?_eq_none_iff {name : String} :
    ofName? name = none ↔ ∀ k : Kind, name ≠ k.id ∧ name ≠ k.shortName := by
  unfold ofName?
  rw [List.find?_eq_none]
  constructor
  · intro h k
    have hk := h k (by cases k <;> decide)
    rw [Bool.or_eq_true, decide_eq_true_eq, decide_eq_true_eq, not_or] at hk
    exact ⟨Ne.symm hk.1, Ne.symm hk.2⟩
  · intro h k _
    rw [Bool.or_eq_true, decide_eq_true_eq, decide_eq_true_eq, not_or]
    exact ⟨Ne.symm (h k).1, Ne.symm (h k).2⟩

/-! ## Why an edit fails -/

/-- What an edit of a document fails for. Of two positions the first one that is none is told. -/
inductive Edit.FailsFor (d : Document) : Edit → Failure → Prop where
  | unknown {name param : String} (unknown : ∀ k : Kind, name ≠ k.id ∧ name ≠ k.shortName) :
    FailsFor d (.append name param) (.unknownKind name)
  | remove {index : Nat} (outside : d.size ≤ index) :
    FailsFor d (.remove index) (.indexOutOfRange index d.size)
  | source {source target : Nat} (outside : d.size ≤ source) :
    FailsFor d (.move source target) (.indexOutOfRange source d.size)
  | target {source target : Nat} (inside : source < d.size) (outside : d.size ≤ target) :
    FailsFor d (.move source target) (.indexOutOfRange target d.size)

namespace Document

variable {d : Document} {f : Failure}

theorem checkIndex_of_le {index : Nat} (h : d.size ≤ index) :
    d.checkIndex index = .error (.indexOutOfRange index d.size) :=
  if_neg (Nat.not_lt.mpr h)

theorem remove_eq_error_iff {index : Nat} :
    d.remove index = .error f ↔ (Edit.remove index).FailsFor d f := by
  constructor
  · intro h
    rcases Nat.lt_or_ge index d.size with hlt | hge
    · rw [remove_eq_ok_iff.mpr ⟨hlt, rfl⟩] at h
      cases h
    · unfold remove at h
      rw [checkIndex_of_le hge] at h
      cases h
      exact .remove hge
  · rintro ⟨⟩
    rename_i hge
    unfold remove
    rw [checkIndex_of_le hge]
    rfl

theorem move_eq_error_iff {source target : Nat} :
    d.move source target = .error f ↔ (Edit.move source target).FailsFor d f := by
  constructor
  · intro h
    rcases Nat.lt_or_ge source d.size with hsource | hsource
    · rcases Nat.lt_or_ge target d.size with htarget | htarget
      · rw [move_eq_ok_iff.mpr ⟨htarget, _, List.getElem?_eq_getElem hsource, rfl⟩] at h
        cases h
      · unfold move at h
        rw [checkIndex_eq_ok_iff.mpr hsource, checkIndex_of_le htarget] at h
        cases h
        exact .target hsource htarget
    · unfold move at h
      rw [checkIndex_of_le hsource] at h
      cases h
      exact .source hsource
  · intro h
    unfold move
    cases h with
    | source hsource =>
      rw [checkIndex_of_le hsource]
      rfl
    | target hsource htarget =>
      rw [checkIndex_eq_ok_iff.mpr hsource, checkIndex_of_le htarget]
      rfl

end Document

namespace Builder

variable {τ : Type} [TokenSource τ]

theorem append_eq_error_iff {b : Builder τ} {d : Document} {name param : String} {f : Failure} :
    (b.append d name param).1 = .error f ↔ (Edit.append name param).FailsFor d f := by
  unfold append
  constructor
  · intro h
    split at h
    · rename_i hkind
      cases h
      exact .unknown (Kind.ofName?_eq_none_iff.mp hkind)
    · cases h
  · rintro ⟨unknown⟩
    rw [Kind.ofName?_eq_none_iff.mpr unknown]

/-- **What an edit fails for is told from the document and the edit alone**, not from the tokens
that there are. -/
theorem edit_eq_error_iff (b : Builder τ) {d : Document} {e : Edit} {f : Failure} :
    (b.edit d e).1 = .error f ↔ e.FailsFor d f := by
  cases e with
  | append name param => exact append_eq_error_iff
  | remove index => exact Document.remove_eq_error_iff
  | move source target => exact Document.move_eq_error_iff
  | relabel label =>
    constructor
    · intro h
      cases h
    · rintro ⟨⟩

/-- **An edit that fails takes no token.** -/
theorem edit_of_error {b : Builder τ} {d : Document} {e : Edit} {f : Failure}
    (h : (b.edit d e).1 = .error f) : (b.edit d e).2 = b := by
  cases e with
  | append name param =>
    obtain ⟨unknown⟩ := append_eq_error_iff.mp h
    show (b.append d name param).2 = b
    unfold append
    rw [Kind.ofName?_eq_none_iff.mpr unknown]
  | remove index | move source target | relabel label => rfl

end Builder

/-! ## Sessions -/

namespace History

variable {τ : Type} [TokenSource τ]

/-- An edit that fails leaves everything as it was. -/
theorem edit_of_error {h : History τ} {number : Nat} {e : Edit} {f : Failure}
    (hfails : (h.edit number e).1 = .error f) : (h.edit number e).2 = h := by
  rw [edit_eq_after] at hfails ⊢
  dsimp only at hfails ⊢
  rw [hfails, Builder.edit_of_error hfails]
  rfl

theorem edit_eq_error_iff {h : History τ} {number : Nat} {e : Edit} {f : Failure} :
    (h.edit number e).1 = .error f ↔ e.FailsFor (h.document number) f := by
  rw [← Builder.edit_eq_error_iff h.builder, edit_eq_after]

/-- Edits in turn, each with its answer. -/
def session (h : History τ) : List (Nat × Edit) → List ((Nat × Edit) × Except Failure Document)
  | [] => []
  | x :: edits => (x, (h.edit x.1 x.2).1) :: (h.edit x.1 x.2).2.session edits

/-- The edits of a session that did not fail. -/
def succeeded (h : History τ) (edits : List (Nat × Edit)) : List (Nat × Edit) :=
  ((h.session edits).filter (·.2.isOk)).map (·.1)

/-- A failed edit can be left out of a session, whatever comes after it. -/
theorem succeeded_cons_of_error {h : History τ} {x : Nat × Edit} {f : Failure}
    (hfails : (h.edit x.1 x.2).1 = .error f) (edits : List (Nat × Edit)) :
    h.succeeded (x :: edits) = h.succeeded edits ∧
      (h.session (x :: edits)).filter (·.2.isOk) = (h.session edits).filter (·.2.isOk) ∧
      h.editAll (x :: edits) = h.editAll edits := by
  have hsame := edit_of_error hfails
  have hfilter :
      (h.session (x :: edits)).filter (·.2.isOk) = (h.session edits).filter (·.2.isOk) := by
    rw [session, hfails, hsame, List.filter_cons_of_neg (by simp [Except.isOk, Except.toBool])]
  refine ⟨?_, hfilter, ?_⟩
  · unfold succeeded
    rw [hfilter]
  · show (h.edit x.1 x.2).2.editAll edits = h.editAll edits
    rw [hsame]

theorem succeeded_cons_of_ok {h : History τ} {x : Nat × Edit} {d : Document}
    (hmade : (h.edit x.1 x.2).1 = .ok d) (edits : List (Nat × Edit)) :
    h.succeeded (x :: edits) = x :: (h.edit x.1 x.2).2.succeeded edits := by
  unfold succeeded
  rw [session, hmade, List.filter_cons_of_pos rfl, List.map_cons]

/-- The edits that did not fail, made on their own, are answered the same and come to the same. -/
theorem session_succeeded (edits : List (Nat × Edit)) :
    ∀ h : History τ, h.session (h.succeeded edits) = (h.session edits).filter (·.2.isOk) ∧
      h.editAll (h.succeeded edits) = h.editAll edits := by
  induction edits with
  | nil =>
    intro h
    exact ⟨rfl, rfl⟩
  | cons x edits ih =>
    intro h
    cases hx : (h.edit x.1 x.2).1 with
    | error f =>
      obtain ⟨hkept, hsession, hall⟩ := succeeded_cons_of_error hx edits
      rw [hkept, hsession, hall]
      exact ih h
    | ok d =>
      obtain ⟨hsession, hall⟩ := ih (h.edit x.1 x.2).2
      rw [succeeded_cons_of_ok hx]
      refine ⟨?_, hall⟩
      rw [session, session, hsession, hx, List.filter_cons_of_pos rfl]

/-- **Without its failed edits a session is the same session.** All others are answered what they
were, and the documents and the tokens that are left are those there were. At every moment of one
an edit fails only for what it says of its document, a new label never does, and what fails leaves
everything as it was. -/
theorem session_without_failed (h : History τ) (edits : List (Nat × Edit)) :
    h.session (h.succeeded edits) = (h.session edits).filter (·.2.isOk) ∧
    h.editAll (h.succeeded edits) = h.editAll edits ∧
    ∀ (now : History τ) (number : Nat),
      (∀ e f, (now.edit number e).1 = .error f ↔ e.FailsFor (now.document number) f) ∧
      (∀ e f, (now.edit number e).1 = .error f → (now.edit number e).2 = now) ∧
      ∀ label,
        (now.edit number (.relabel label)).1 = .ok ((now.document number).relabel label) := by
  obtain ⟨hsession, hall⟩ := session_succeeded edits h
  exact ⟨hsession, hall, fun now number =>
    ⟨fun e f => edit_eq_error_iff, fun e f => edit_of_error, fun label => rfl⟩⟩

/-- What is appended after failed edits has the numbers that follow. -/
example :
    let b : Builder Counter := .new .initial Serial.token
    let edits := [(0, Edit.append "close" ""), (1, .append "nothing" ""), (1, .move 0 1),
      (0, .remove 18446744073709551615), (1, .append "alert" "hi")]
    ((start .empty b).editAll edits).documents.map Document.ids =
      [[], ["closeWindow-1"], ["closeWindow-1", "alert-2"]] := by
  decide +kernel

end History
end TriggerFlow
