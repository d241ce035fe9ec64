import TriggerFlow.Builder.History
import TriggerFlow.Proofs.Builder.Search
import TriggerFlow.Proofs.Run.Orders

/-!
# Documents that were built

A document that was made by edits alone is in order: its ids are all different, and **every action
is a fresh copy of one entry of the catalog**. Each edit keeps this, from whatever earlier document
it starts, because it only takes actions away, moves them or adds one whose id is free; so no run of
such a document ever meets a kind that nobody knows. Of a document that came from elsewhere the
edits keep less, but they never make an id stand twice that did not before.

All of this is said of `Builder.Makes` first, in which the search for an id is the loop itself. The
loop ends with nothing but a free id, so there the tokens may be what they like; that they do not
repeat is needed only to say that the builder makes the same.
-/

set_option autoImplicit false

namespace TriggerFlow

/-! ## Actions that were made -/

/-- A copy of a catalog entry with an id of its own. -/
def Action.IsMade (a : Action) : Prop :=
  ∃ kind : Kind, a.kind = kind.id ∧ a.kind? = some kind ∧ a.label = kind.label ∧
    (∃ token, a.id = kind.id ++ "-" ++ token) ∧ (a.param.isSome = true ↔ kind.hasParam = true)

structure Document.IsBuilt (d : Document) : Prop where
  unique : d.duplicateIds = []
  distinct : d.ids.Nodup
  made : ∀ a ∈ d.actions, a.IsMade

theorem Document.isBuilt_empty : Document.empty.IsBuilt :=
  ⟨rfl, List.nodup_nil, fun a ha => by cases ha⟩

namespace Builder

variable {τ : Type} [TokenSource τ]

theorem spare_append (b : Builder τ) (d : Document) (name param : String) :
    (b.append d name param).2.spare = b.spare := by
  unfold append
  split
  · rfl
  · exact spare_freshId b d _

theorem spare_edit (b : Builder τ) (d : Document) (e : Edit) :
    (b.edit d e).2.spare = b.spare := by
  cases e with
  | append kind param => exact spare_append b d kind param
  | remove index => rfl
  | move source target => rfl
  | relabel label => rfl

/-- What an edit comes to, if the id of a new action is searched for without a bound. -/
inductive Makes (b : Builder τ) (d : Document) :
    Edit → Except Failure Document → Builder τ → Prop where
  | appended {name param id : String} {kind : Kind} {s : Search τ}
      (known : Kind.ofName? name = some kind) (ends : Search.Ends d kind ⟨0, b⟩ id s) :
      Makes b d (.append name param) (.ok (d.adding kind id param)) s.builder
  | unknown {name param : String} (stranger : Kind.ofName? name = none) :
      Makes b d (.append name param) (.error (.unknownKind name)) b
  | removed {index : Nat} : Makes b d (.remove index) (d.remove index) b
  | moved {source target : Nat} : Makes b d (.move source target) (d.move source target) b
  | relabeled {label : String} : Makes b d (.relabel label) (.ok (d.relabel label)) b

variable {b b' : Builder τ} {d d' : Document} {e : Edit}

/-- **The builder makes what the loop makes**, if the spare tokens do not repeat. -/
theorem makes_edit (hspare : Function.Injective b.spare) (d : Document) (e : Edit) :
    b.Makes d e (b.edit d e).1 (b.edit d e).2 := by
  cases e with
  | append name param =>
    show b.Makes d _ (b.append d name param).1 (b.append d name param).2
    cases hkind : Kind.ofName? name with
    | none =>
      have happend : b.append d name param = (.error (.unknownKind name), b) := by
        unfold append
        rw [hkind]
      rw [happend]
      exact .unknown hkind
    | some kind =>
      obtain ⟨tried, -, -, hends⟩ :=
        Search.ends_of_firstFree (freshId_firstFree d kind fun _ => hspare)
      rw [append_of_kind hkind param]
      exact .appended hkind hends
  | remove index => exact .removed
  | move source target => exact .moved
  | relabel label => exact .relabeled

/-- A new action is in order. -/
theorem isMade_adding (kind : Kind) (token param : String) :
    (⟨idOf kind token, kind.id, kind.label,
      if kind.hasParam then some param else none⟩ : Action).IsMade := by
  refine ⟨kind, rfl, Kind.ofName?_id kind, rfl, ⟨token, rfl⟩, ?_⟩
  dsimp only
  split <;> simp [*]

/-- **An edit brings in no action but one that is in order.** -/
theorem Makes.mem (h : b.Makes d e (.ok d') b') : ∀ a ∈ d'.actions, a ∈ d.actions ∨ a.IsMade := by
  intro a ha
  generalize hresult : Except.ok d' = result at h
  cases h with
  | @appended name param id kind s _ ends =>
    cases hresult
    obtain ⟨⟨token, rfl⟩, -⟩ := ends.firstFree.isFree
    rcases List.mem_append.mp ha with ha | ha
    · exact .inl ha
    · obtain rfl := List.mem_singleton.mp ha
      exact .inr (isMade_adding kind token param)
  | unknown => cases hresult
  | removed =>
    obtain ⟨-, rfl⟩ := Document.remove_eq_ok_iff.mp hresult.symm
    exact .inl (List.mem_of_mem_eraseIdx ha)
  | moved => exact .inl ((Document.perm_of_move hresult.symm).mem_iff.mp ha)
  | relabeled =>
    cases hresult
    exact .inl ha

/-- **No edit makes an id stand twice that did not.** -/
theorem Makes.duplicateIds (h : b.Makes d e (.ok d') b') : d'.duplicateIds ⊆ d.duplicateIds := by
  intro id hid
  rw [Document.mem_duplicateIds] at hid ⊢
  generalize hresult : Except.ok d' = result at h
  cases h with
  | @appended name param new kind s _ ends =>
    cases hresult
    have hfree := ends.firstFree.isFree.2
    have hids : (d.adding kind new param).ids = d.ids ++ [new] := by
      simp [Document.adding, Document.ids]
    rw [hids, List.count_append] at hid
    by_cases hnew : id = new
    · -- The new id stood nowhere, so now it stands once.
      rw [← hnew] at hfree hid
      rw [List.count_eq_zero.mpr hfree, List.count_singleton_self] at hid
      omega
    · rwa [List.count_singleton, if_neg (by simpa using Ne.symm hnew)] at hid
  | unknown => cases hresult
  | @removed index =>
    obtain ⟨-, rfl⟩ := Document.remove_eq_ok_iff.mp hresult.symm
    have hsub : (Document.ids ⟨d.label, d.actions.eraseIdx index⟩).Sublist d.ids :=
      (List.eraseIdx_sublist d.actions index).map _
    exact Nat.le_trans hid (hsub.count_le id)
  | moved =>
    -- How often an id stands does not depend on the order.
    have hperm := (Document.perm_of_move hresult.symm).map (·.id)
    rwa [Document.ids, hperm.count_eq] at hid
  | relabeled =>
    cases hresult
    exact hid

theorem Makes.isBuilt (h : b.Makes d e (.ok d') b') (hd : d.IsBuilt) : d'.IsBuilt := by
  have hunique : d'.duplicateIds = [] := by
    have hsub := h.duplicateIds
    rw [hd.unique] at hsub
    exact List.eq_nil_of_subset_nil hsub
  refine ⟨hunique, Document.duplicateIds_eq_nil_iff.mp hunique, fun a ha => ?_⟩
  rcases h.mem a ha with ha | ha
  · exact hd.made a ha
  · exact ha

end Builder

/-! ## Running what was built -/

section Running

variable {η κ γ σ : Type} [Host η] [KeyValueStore κ] [ColorSource γ]

/-- An action of a known kind never reports that its kind is unknown. -/
theorem Action.unknownKind_not_mem_issues {a : Action} {kind : Kind} (h : a.kind? = some kind)
    (mode : StorageMode) (w : World η κ γ) : Issue.unknownKind ∉ (a.perform mode w).issues := by
  have hmalformed : Issue.unknownKind ∉ a.malformed mode := by cases mode <;> simp [malformed]
  unfold perform
  rw [h]
  dsimp only
  cases kind with
  | setStorage =>
    simp only [performAs, saveValue]
    split
    · exact hmalformed
    · split <;> simp
  | getStorage =>
    simp only [performAs, showValue]
    split <;> split <;> simp [hmalformed]
  | recolorTrigger =>
    simp only [performAs, recolor]
    split <;> simp
  | alert | showText | showImage | refresh | growTrigger | close | promptAndShow
  | disableTrigger => simp [performAs, promptAndShow]

/-- **No run of a document that was built meets an unknown kind**, whatever it is told. -/
theorem Document.IsBuilt.known [Sink σ] {d : Document} (hd : d.IsBuilt) {mode : StorageMode}
    {r : Run} (hr : Run.start d mode = .ok r) (w : World η κ γ) (shown : σ)
    (orders : List Order) :
    ∀ stage ∈ (⟨r, w, shown⟩ : Course η κ γ σ).follow orders,
      ∀ x ∈ stage.course.run.diagnostics, x.issue ≠ .unknownKind := by
  obtain ⟨hne, rfl⟩ := Run.start_eq_ok_iff.mp hr
  intro stage hstage x hx hissue
  have horigin : Course.Standing d.actions mode w shown
      ⟨⟨d.actions, mode, .idle, 0, []⟩, w, shown⟩ := .stepped 0
  have hstanding := horigin.follow hne orders stage hstage
  obtain ⟨a, ha, -, w', hreported⟩ := hstanding.diagnosed.about x hx
  have hmem : a ∈ d.actions := List.mem_of_mem_take (List.mem_of_getElem? ha)
  obtain ⟨kind, -, hkind, -⟩ := hd.made a hmem
  rw [hissue] at hreported
  exact Action.unknownKind_not_mem_issues hkind mode w' hreported

end Running

/-! ## Sessions -/

namespace History

variable {τ : Type} [TokenSource τ]

/-- Makes edits in turn, each of the document with a number. -/
def editAll (h : History τ) (edits : List (Nat × Edit)) : History τ :=
  edits.foldl (fun h x => (h.edit x.1 x.2).2) h

/-- The history after an edit has come to something. -/
def after (h : History τ) (result : Except Failure Document) (b : Builder τ) : History τ :=
  match result with
  | .ok d => ⟨h.documents ++ [d], b⟩
  | .error _ => { h with builder := b }

omit [TokenSource τ] in
theorem builder_after (h : History τ) (result : Except Failure Document) (b : Builder τ) :
    (h.after result b).builder = b := by
  cases result <;> rfl

/-- What one edit adds to a history: the document it made, if it made one. -/
theorem edit_eq_after (h : History τ) (number : Nat) (e : Edit) :
    let made := h.builder.edit (h.document number) e
    h.edit number e = (made.1, h.after made.1 made.2) := by
  unfold edit
  cases h.builder.edit (h.document number) e with
  | mk result b => cases result <;> rfl

theorem spare_edit (h : History τ) (number : Nat) (e : Edit) :
    (h.edit number e).2.builder.spare = h.builder.spare := by
  rw [edit_eq_after, builder_after]
  exact Builder.spare_edit h.builder (h.document number) e

theorem spare_editAll (edits : List (Nat × Edit)) :
    ∀ h : History τ, (h.editAll edits).builder.spare = h.builder.spare := by
  induction edits with
  | nil =>
    intro h
    rfl
  | cons x edits ih =>
    intro h
    exact (ih _).trans (spare_edit h x.1 x.2)

omit [TokenSource τ] in
theorem document_of_forall {h : History τ} {p : Document → Prop} (hempty : p .empty)
    (hall : ∀ d ∈ h.documents, p d) (number : Nat) : p (h.document number) := by
  unfold document
  cases hget : h.documents[number]? with
  | none =>
    rw [List.getD_eq_getElem?_getD, hget]
    exact hempty
  | some d =>
    rw [List.getD_eq_getElem?_getD, hget]
    exact hall d (List.mem_of_getElem? hget)

/-- Edits are made in turn, each of the document with a number, and the search for an id is the loop
itself. A session in which it does not end goes nowhere. -/
inductive Goes : History τ → List (Nat × Edit) → History τ → Prop where
  | still (h : History τ) : Goes h [] h
  | onward {h last : History τ} {number : Nat} {e : Edit} {edits : List (Nat × Edit)}
      {result : Except Failure Document} {b : Builder τ}
      (makes : h.builder.Makes (h.document number) e result b)
      (others : Goes (h.after result b) edits last) : Goes h ((number, e) :: edits) last

/-- A builder whose spare tokens do not repeat goes through every session. -/
theorem goes_editAll (edits : List (Nat × Edit)) :
    ∀ {h : History τ}, Function.Injective h.builder.spare → h.Goes edits (h.editAll edits) := by
  induction edits with
  | nil =>
    intro h _
    exact .still h
  | cons x edits ih =>
    intro h hspare
    refine .onward (Builder.makes_edit hspare (h.document x.1) x.2) ?_
    have hnext := congrArg Prod.snd (edit_eq_after h x.1 x.2)
    dsimp only at hnext
    rw [← hnext]
    exact ih (by rw [spare_edit]; exact hspare)

/-- What holds of the empty document and what every edit keeps. -/
structure Kept (τ : Type) [TokenSource τ] (p : Document → Prop) : Prop where
  empty : p .empty
  edit : ∀ {b b' : Builder τ} {d d' : Document} {e : Edit}, b.Makes d e (.ok d') b' → p d → p d'

/-- **What every edit keeps holds of every document of a session**, whichever documents the edits
start from. -/
theorem Kept.forall_goes {p : Document → Prop} (hp : Kept τ p) {h last : History τ}
    {edits : List (Nat × Edit)} (hgoes : h.Goes edits last) (hall : ∀ d ∈ h.documents, p d) :
    ∀ d ∈ last.documents, p d := by
  induction hgoes with
  | still => exact hall
  | @onward h _ number e _ result b makes _ ih =>
    refine ih fun d hd => ?_
    cases result with
    | error cause => exact hall d hd
    | ok made =>
      rcases List.mem_append.mp hd with hd | hd
      · exact hall d hd
      · obtain rfl := List.mem_singleton.mp hd
        exact hp.edit makes (document_of_forall hp.empty hall number)

theorem kept_isBuilt : Kept τ Document.IsBuilt :=
  ⟨Document.isBuilt_empty, fun h hd => h.isBuilt hd⟩

/-- The ids that stand twice stay among some. -/
theorem kept_duplicateIds (ids : List String) : Kept τ fun d => d.duplicateIds ⊆ ids where
  empty := List.nil_subset ids
  edit := fun h hd => List.Subset.trans h.duplicateIds hd

variable {η κ γ σ : Type} [Host η] [KeyValueStore κ] [ColorSource γ] [Sink σ]

/-- **Whatever is edited, from whatever document, with whatever tokens**, as long as every search
for an id ends: in a session that begins with the empty document every document is built, and no run
of one meets a kind that nobody knows; and in a session that begins with any document no edit makes
an id stand twice that did not in the document it was made of. -/
theorem goes_isBuilt {b : Builder τ} {edits : List (Nat × Edit)} {last : History τ} :
    ((start .empty b).Goes edits last → ∀ d ∈ last.documents, d.IsBuilt ∧
      ∀ mode r, Run.start d mode = .ok r → ∀ (w : World η κ γ) (shown : σ) (orders : List Order),
        ∀ stage ∈ (⟨r, w, shown⟩ : Course η κ γ σ).follow orders,
          ∀ x ∈ stage.course.run.diagnostics, x.issue ≠ .unknownKind) ∧
    ∀ loaded : Document, (start loaded b).Goes edits last →
      (∀ d ∈ last.documents, d.duplicateIds ⊆ loaded.duplicateIds) ∧
      ∀ number e d b', last.builder.Makes (last.document number) e (.ok d) b' →
        d.duplicateIds ⊆ (last.document number).duplicateIds := by
  refine ⟨fun hgoes d hd => ?_, fun loaded hgoes => ⟨?_, fun number e d b' h => h.duplicateIds⟩⟩
  · have hbuilt : d.IsBuilt := by
      refine kept_isBuilt.forall_goes hgoes (fun s hs => ?_) d hd
      obtain rfl := List.mem_singleton.mp hs
      exact Document.isBuilt_empty
    exact ⟨hbuilt, fun mode r hr w shown orders => hbuilt.known hr w shown orders⟩
  · refine (kept_duplicateIds loaded.duplicateIds).forall_goes hgoes fun s hs => ?_
    obtain rfl := List.mem_singleton.mp hs
    exact List.Subset.refl _

/-- **Whatever is edited, from whatever document, with whatever source of tokens**: in a session
that begins with the empty document every document is built, and no run of one meets a kind that
nobody knows; and in a session that begins with any document no edit makes an id stand twice that
did not in the document it was made of. -/
theorem editAll_isBuilt {b : Builder τ} (hspare : Function.Injective b.spare)
    (edits : List (Nat × Edit)) :
    (∀ d ∈ ((start .empty b).editAll edits).documents, d.IsBuilt ∧
      ∀ mode r, Run.start d mode = .ok r → ∀ (w : World η κ γ) (shown : σ) (orders : List Order),
        ∀ stage ∈ (⟨r, w, shown⟩ : Course η κ γ σ).follow orders,
          ∀ x ∈ stage.course.run.diagnostics, x.issue ≠ .unknownKind) ∧
    ∀ loaded : Document,
      (∀ d ∈ ((start loaded b).editAll edits).documents, d.duplicateIds ⊆ loaded.duplicateIds) ∧
      ∀ number e d h, ((start loaded b).editAll edits).edit number e = (.ok d, h) →
        d.duplicateIds ⊆ (((start loaded b).editAll edits).document number).duplicateIds := by
  refine ⟨goes_isBuilt.1 (goes_editAll edits hspare), fun loaded => ?_⟩
  obtain ⟨hall, hnext⟩ :=
    (goes_isBuilt (η := η) (κ := κ) (γ := γ) (σ := σ)).2 loaded (goes_editAll edits hspare)
  refine ⟨hall, fun number e d h hedit => ?_⟩
  have hkept : Function.Injective ((start loaded b).editAll edits).builder.spare := by
    rw [spare_editAll]
    exact hspare
  have hmakes := Builder.makes_edit hkept (((start loaded b).editAll edits).document number) e
  rw [edit_eq_after] at hedit
  rw [(Prod.ext_iff.mp hedit).1] at hmakes
  exact hnext number e d _ hmakes

/-- A builder whose source says the same for ever. -/
def repeating : Builder TokenList :=
  .new ⟨["x"]⟩ Serial.token

def branching : List (Nat × Edit) :=
  [(0, .append "show-text" "k"), (1, .append "nothing" ""), (1, .append "showText" ""),
    (2, .move 0 1), (1, .append "close" "k"), (2, .remove 0)]

def twice : Document :=
  ⟨"", [⟨"1", "alert", "Alert", none⟩, ⟨"1", "beep", "Beep", none⟩]⟩

theorem editAll_branching :
    Function.Injective repeating.spare ∧
    ((start .empty repeating).editAll branching).documents.map Document.ids =
      [[], ["showText-x"], ["showText-x", "showText-00000000000000000000000000000000"],
        ["showText-00000000000000000000000000000000", "showText-x"],
        ["showText-x", "closeWindow-x"], ["showText-00000000000000000000000000000000"]] ∧
    (∀ d ∈ ((start .empty repeating).editAll branching).documents, d.IsBuilt) ∧
    twice.duplicateIds = ["1"] ∧
    ∀ d ∈ ((start twice repeating).editAll branching).documents, d.duplicateIds ⊆ ["1"] := by
  have hspare : Function.Injective repeating.spare := Serial.token_injective
  obtain ⟨hbuilt, hloaded⟩ := editAll_isBuilt (η := ScriptedHost) (κ := RefusingStore)
    (γ := Palette) (σ := Presentation) hspare branching
  refine ⟨hspare, by decide +kernel, fun d hd => (hbuilt d hd).1, by decide +kernel, ?_⟩
  exact (hloaded twice).1

end History
end TriggerFlow
