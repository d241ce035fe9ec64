import TriggerFlow.Proofs.Text.Trim
import TriggerFlow.Run.Effect

/-!
# The first colon

`StorageParam.splitAtColon` walks over the characters and puts the pieces together on its way back.
What comes out is told without the walk: **the characters before the first colon, and those after
it**, if there is a colon at all.

Cut at their ends, the two are plain: no colon in the key, no blank at an end of either. A plain
parameter can be written down with any blanks around its parts, and is read as it was. So what can
be read is what is plain, and the key of a value that was saved is the key it is read by.
-/

set_option autoImplicit false

namespace TriggerFlow.StorageParam

theorem splitAtColon_eq (cs : List Char) :
    splitAtColon cs =
      if ':' ∈ cs then some (cs.takeWhile (· ≠ ':'), (cs.dropWhile (· ≠ ':')).tail) else none := by
  induction cs with
  | nil => rfl
  | cons c cs ih =>
    by_cases hc : c = ':'
    · subst hc
      simp [splitAtColon]
    · rw [splitAtColon, ih]
      · by_cases h : ':' ∈ cs <;> simp [h, hc, Ne.symm hc]
      · exact hc

/-- A parameter is malformed exactly if it has no colon. -/
theorem parse_eq (param : String) :
    parse param =
      if ':' ∈ param.toList then
        .ok
          ⟨Text.trim (String.ofList (param.toList.takeWhile (· ≠ ':'))),
            Text.trim (String.ofList (param.toList.dropWhile (· ≠ ':')).tail)⟩
      else .error (.malformedStorageParam param) := by
  unfold parse
  rw [splitAtColon_eq]
  by_cases h : ':' ∈ param.toList <;> simp [h, Text.trim]

/-- The first colon is the one with no colon before it. -/
theorem splitAtColon_eq_some_iff {cs before after : List Char} :
    splitAtColon cs = some (before, after) ↔ cs = before ++ ':' :: after ∧ ':' ∉ before := by
  induction cs generalizing before with
  | nil => simp [splitAtColon]
  | cons c cs ih =>
    by_cases hc : c = ':'
    · subst hc
      cases before with
      | nil => simp [splitAtColon]
      | cons b bs =>
        simp only [splitAtColon, List.cons_append, List.mem_cons, not_or]
        constructor
        · intro h
          cases h
        · rintro ⟨h, hb, -⟩
          exact absurd (List.cons.inj h).1 hb
    · rw [splitAtColon.eq_3 c cs hc, Option.map_eq_some_iff]
      constructor
      · rintro ⟨⟨bs, rest⟩, hsplit, h⟩
        obtain ⟨rfl, rfl⟩ := Prod.mk.inj h
        obtain ⟨rfl, hbs⟩ := ih.mp hsplit
        exact ⟨rfl, by simp [hbs, Ne.symm hc]⟩
      · rintro ⟨h, hbefore⟩
        cases before with
        | nil => exact absurd (List.cons.inj h).1 hc
        | cons b bs =>
          obtain ⟨rfl, hrest⟩ := List.cons.inj h
          exact ⟨(bs, after), ih.mpr ⟨hrest, fun hmem => hbefore (List.mem_cons_of_mem _ hmem)⟩, rfl⟩

theorem parse_eq_ok_iff {text key value : String} :
    parse text = .ok ⟨key, value⟩ ↔
      ∃ before after, text.toList = before ++ ':' :: after ∧ ':' ∉ before ∧
        key = Text.trim (String.ofList before) ∧ value = Text.trim (String.ofList after) := by
  simp only [← and_assoc, ← splitAtColon_eq_some_iff, Text.trim, String.toList_ofList]
  unfold parse
  cases splitAtColon text.toList with
  | none => simp
  | some parts => simp [Prod.ext_iff, and_assoc, eq_comm]

theorem parse_eq_error_iff {text : String} {f : Failure} :
    parse text = .error f ↔ ':' ∉ text.toList ∧ f = .malformedStorageParam text := by
  rw [parse_eq]
  by_cases h : ':' ∈ text.toList <;> simp [h, eq_comm]

/-! ## Plain parameters -/

/-- What stands before and after the first colon, each without the blanks at its ends. -/
theorem parse_eq_ok_iff_trimsTo {text : String} {p : StorageParam} :
    parse text = .ok p ↔ ∃ before after, text = before ++ ":" ++ after ∧ ':' ∉ before.toList ∧
      Text.TrimsTo before p.key ∧ Text.TrimsTo after p.value := by
  obtain ⟨key, value⟩ := p
  simp only [parse_eq_ok_iff, ← Text.trim_eq_iff]
  constructor
  · rintro ⟨before, after, htext, hfirst, hkey, hvalue⟩
    refine ⟨String.ofList before, String.ofList after, ?_, ?_, hkey.symm, hvalue.symm⟩
    · rw [← String.toList_inj, htext]
      simp
    · rwa [String.toList_ofList]
  · rintro ⟨before, after, rfl, hfirst, hkey, hvalue⟩
    refine ⟨before.toList, after.toList, by simp, hfirst, ?_, ?_⟩
    · rw [String.ofList_toList, hkey]
    · rw [String.ofList_toList, hvalue]

/-- A key without a colon and a value, neither with a blank at its ends. -/
structure IsPlain (p : StorageParam) : Prop where
  noColon : ':' ∉ p.key.toList
  key : Text.IsTrimmed p.key
  value : Text.IsTrimmed p.value

theorem isPlain_of_parse {text : String} {p : StorageParam} (h : parse text = .ok p) :
    p.IsPlain := by
  obtain ⟨before, after, -, hfirst, hkey, hvalue⟩ := parse_eq_ok_iff_trimsTo.mp h
  obtain ⟨front, back, rfl, -, -, hkey⟩ := hkey
  obtain ⟨-, -, -, -, -, hvalue⟩ := hvalue
  refine ⟨fun hmem => hfirst ?_, hkey, hvalue⟩
  simp [hmem]

/-- No blank is a colon, so blanks in front of a key do not divide it. -/
theorem colon_not_mem_of_isBlankText {s : String} (h : Text.IsBlankText s) : ':' ∉ s.toList := by
  intro hmem
  exact absurd (h _ hmem) (by decide)

theorem IsPlain.parse_written {p : StorageParam} (h : p.IsPlain) {b₁ b₂ b₃ b₄ : String}
    (h₁ : Text.IsBlankText b₁) (h₂ : Text.IsBlankText b₂) (h₃ : Text.IsBlankText b₃)
    (h₄ : Text.IsBlankText b₄) :
    parse ((b₁ ++ p.key ++ b₂) ++ ":" ++ (b₃ ++ p.value ++ b₄)) = .ok p := by
  refine parse_eq_ok_iff_trimsTo.mpr
    ⟨_, _, rfl, ?_, ⟨b₁, b₂, rfl, h₁, h₂, h.key⟩, ⟨b₃, b₄, rfl, h₃, h₄, h.value⟩⟩
  simp [h.noColon, colon_not_mem_of_isBlankText h₁, colon_not_mem_of_isBlankText h₂]

/-- An action that reads cuts its parameter once more before it asks. -/
theorem store_showValue_of_isTrimmed {η κ γ : Type} [KeyValueStore κ] (mode : StorageMode)
    {a : Action} (h : Text.IsTrimmed a.paramOrEmpty) (w : World η κ γ) :
    (a.showValue mode w).world.store = (KeyValueStore.get a.paramOrEmpty w.store).2 := by
  unfold Action.showValue
  rw [h.trim_eq]
  cases hget : KeyValueStore.get a.paramOrEmpty w.store with
  | mk answer store => cases answer <;> simp [hget]

/-- **The first colon divides a parameter, and only one without a colon is refused.** The key is
what stands before it and the value all that comes after it, each without the blanks at its ends.
What is read is plain; what is plain is read again from any text that writes it, whatever blanks are
put around its parts; and its key is asked for just as it was saved. -/
theorem parse_divides (text : String) :
    (∀ f, parse text = .error f ↔ ':' ∉ text.toList ∧ f = .malformedStorageParam text) ∧
    (':' ∈ text.toList → ∃ p, parse text = .ok p) ∧
    (∀ p, parse text = .ok p ↔ ∃ before after, text = before ++ ":" ++ after ∧
      ':' ∉ before.toList ∧ Text.TrimsTo before p.key ∧ Text.TrimsTo after p.value) ∧
    (∀ p, parse text = .ok p → p.IsPlain) ∧
    ∀ p : StorageParam, p.IsPlain →
      (∀ b₁ b₂ b₃ b₄, Text.IsBlankText b₁ → Text.IsBlankText b₂ → Text.IsBlankText b₃ →
        Text.IsBlankText b₄ →
        parse ((b₁ ++ p.key ++ b₂) ++ ":" ++ (b₃ ++ p.value ++ b₄)) = .ok p) ∧
      Text.trim p.key = p.key ∧
      ∀ {η κ γ : Type} [KeyValueStore κ] (mode : StorageMode) (a : Action) (w : World η κ γ),
        a.paramOrEmpty = p.key →
        (a.showValue mode w).world.store = (KeyValueStore.get p.key w.store).2 := by
  refine ⟨fun f => parse_eq_error_iff, fun h => ?_, fun p => parse_eq_ok_iff_trimsTo,
    fun p => isPlain_of_parse, fun p hplain => ⟨?_, hplain.key.trim_eq, ?_⟩⟩
  · rw [parse_eq, if_pos h]
    exact ⟨_, rfl⟩
  · intro b₁ b₂ b₃ b₄ h₁ h₂ h₃ h₄
    exact hplain.parse_written h₁ h₂ h₃ h₄
  · intro η κ γ _ mode a w ha
    rw [← ha]
    exact store_showValue_of_isTrimmed mode (ha ▸ hplain.key) w

/-- Blanks of several kinds, and colons in the value. -/
theorem parse_divides_padded :
    let p : StorageParam := ⟨"url", "http://x:1"⟩
    let text := "\u3000 url\t:\u2028http://x:1 \u0085"
    ':' ∈ text.toList ∧ parse text = .ok p ∧ p.IsPlain ∧
      parse "\n\u2003url:http://x:1\u00a0" = .ok p ∧ Text.trim p.key = p.key := by
  intro p text
  obtain ⟨-, -, hok, hplain, hwritten⟩ := parse_divides text
  have hkey : Text.TrimsTo "\u3000 url\t" p.key :=
    ⟨"\u3000 ", "\t", by decide +kernel, by decide, by decide, by decide⟩
  have hvalue : Text.TrimsTo "\u2028http://x:1 \u0085" p.value :=
    ⟨"\u2028", " \u0085", by decide +kernel, by decide, by decide, by decide⟩
  have hparse : parse text = .ok p :=
    (hok p).mpr ⟨_, _, by decide +kernel, by decide, hkey, hvalue⟩
  obtain ⟨hagain, htrim, -⟩ := hwritten p (hplain p hparse)
  exact ⟨by decide, hparse, hplain p hparse,
    hagain "\n\u2003" "" "" "\u00a0" (by decide) (by decide) (by decide) (by decide), htrim⟩

end TriggerFlow.StorageParam
