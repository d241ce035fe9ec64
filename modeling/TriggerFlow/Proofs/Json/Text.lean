import TriggerFlow.Json.Text

/-!
# Texts come back as they were written

Writing a text escapes what it has to, and reading takes the escapes back, **for every text and
whatever follows its closing quote**. Nothing is lost, because each of the five ways to write a
character is told apart by what stands after the backslash, and the escape by number gives both
hexadecimal digits of the few characters that need it.
-/

set_option autoImplicit false

namespace TriggerFlow.Json

/-- A character below the space, written by number. -/
theorem readUnicode_controlChar {c : Char} (h : c.toNat < 0x20) (rest : List Char) :
    readUnicode ('0' :: '0' :: hexDigit (c.toNat / 16) :: hexDigit (c.toNat % 16) :: rest) =
      .ok (c, rest) := by
  have hhigh : Text.hexValue? (hexDigit (c.toNat / 16)) = some (c.toNat / 16) :=
    Text.hexValue?_digitChar (by omega)
  have hlow : Text.hexValue? (hexDigit (c.toNat % 16)) = some (c.toNat % 16) :=
    Text.hexValue?_digitChar (by omega)
  have hzero : Text.hexValue? '0' = some 0 := by decide
  have hnumber : ((0 * 16 + 0) * 16 + c.toNat / 16) * 16 + c.toNat % 16 = c.toNat := by omega
  have hhex : readHex
      ('0' :: '0' :: hexDigit (c.toNat / 16) :: hexDigit (c.toNat % 16) :: rest) =
        .ok (c.toNat, rest) := by
    simp only [readHex, hzero, hhigh, hlow, hnumber]
  unfold readUnicode
  rw [hhex]
  dsimp only
  rw [if_neg (by omega), if_neg (by omega), Char.ofNat_toNat]

/-- A character stands as it is, or it is escaped and the escape names it. -/
theorem escapeChar_cases (c : Char) :
    (escapeChar c = [c] ∧ c ≠ '"' ∧ c ≠ '\\' ∧ 0x20 ≤ c.toNat) ∨
      ∃ escape, escapeChar c = '\\' :: escape ∧
        ∀ rest, readEscape (escape ++ rest) = .ok (c, rest) := by
  unfold escapeChar
  split
  · subst c
    exact .inr ⟨_, rfl, fun _ => rfl⟩
  split
  · subst c
    exact .inr ⟨_, rfl, fun _ => rfl⟩
  split
  · subst c
    exact .inr ⟨_, rfl, fun _ => rfl⟩
  split
  · subst c
    exact .inr ⟨_, rfl, fun _ => rfl⟩
  split
  · subst c
    exact .inr ⟨_, rfl, fun _ => rfl⟩
  split
  · subst c
    exact .inr ⟨_, rfl, fun _ => rfl⟩
  split
  · subst c
    exact .inr ⟨_, rfl, fun _ => rfl⟩
  split
  · rename_i hcontrol
    exact .inr ⟨_, rfl, fun rest => readUnicode_controlChar hcontrol rest⟩
  · rename_i hquote hbackslash _ _ _ _ _ hcontrol
    exact .inl ⟨rfl, hquote, hbackslash, by omega⟩

theorem readChars_escaped {cs rest : List Char} {c : Char} (h : readEscape cs = .ok (c, rest)) :
    readChars ('\\' :: cs) = (readChars rest).map fun (more, rest) => (c :: more, rest) := by
  rw [readChars]
  simp only [show ('\\' : Char) ≠ '"' by decide, if_false, if_true]
  split
  · rename_i e he
    rw [h] at he
    cases he
  · rename_i named left hread
    rw [h] at hread
    cases hread
    cases readChars rest <;> rfl

theorem readChars_plain {c : Char} {cs : List Char} (hquote : c ≠ '"') (hbackslash : c ≠ '\\')
    (hcontrol : 0x20 ≤ c.toNat) :
    readChars (c :: cs) = (readChars cs).map fun (more, rest) => (c :: more, rest) := by
  rw [readChars, if_neg hquote, if_neg hbackslash, if_neg (by omega)]
  cases readChars cs <;> rfl

/-- **What was written is read**, up to the closing quote. -/
theorem readChars_flatMap_escapeChar (cs rest : List Char) :
    readChars (cs.flatMap escapeChar ++ '"' :: rest) = .ok (cs, rest) := by
  induction cs with
  | nil =>
    rw [List.flatMap_nil, List.nil_append, readChars, if_pos rfl]
  | cons c cs ih =>
    rw [List.flatMap_cons, List.append_assoc]
    rcases escapeChar_cases c with ⟨hplain, hquote, hbackslash, hcontrol⟩ | ⟨escape, heq, hread⟩
    · rw [hplain, List.singleton_append, readChars_plain hquote hbackslash hcontrol, ih]
      rfl
    · rw [heq, List.cons_append, readChars_escaped (hread _), ih]
      rfl

theorem readText_textChars (s : String) (rest : List Char) :
    readText ((textChars s).tail ++ rest) = .ok (s, rest) := by
  unfold readText textChars
  rw [List.tail_cons, List.append_assoc, List.singleton_append, readChars_flatMap_escapeChar]
  simp only [String.ofList_toList]

end TriggerFlow.Json
