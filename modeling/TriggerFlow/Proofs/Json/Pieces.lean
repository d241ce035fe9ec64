import TriggerFlow.Json.Skip
import TriggerFlow.Proofs.Json.Grammar

/-!
# Texts in all their escapes

Whatever pieces a text is made of, the reader finds the characters that they name, and fails where
they name none. Passing over the text needs no characters: **it ends at the same quote in any
case**.
-/

set_option autoImplicit false

namespace TriggerFlow.Json

/-! ## Escapes -/

theorem hexValue?_lt {c : Char} {n : Nat} (h : Text.hexValue? c = some n) : n < 16 := by
  have htoNat : ∀ {d : Char}, c ≤ d → c.toNat ≤ d.toNat := fun hle =>
    UInt32.le_iff_toNat_le.mp (Char.le_def.mp hle)
  unfold Text.hexValue? at h
  split at h
  · rename_i hc
    have hle : c.toNat ≤ 57 := htoNat hc.2
    cases h
    omega
  split at h
  · rename_i hc
    have hle : c.toNat ≤ 102 := htoNat hc.2
    cases h
    omega
  split at h
  · rename_i hc
    have hle : c.toNat ≤ 70 := htoNat hc.2
    cases h
    omega
  · cases h

theorem unitOf_lt (a b c d : HexDigit) : unitOf a b c d < 0x10000 := by
  have ha := hexValue?_lt a.isValue
  have hb := hexValue?_lt b.isValue
  have hc := hexValue?_lt c.isValue
  have hd := hexValue?_lt d.isValue
  unfold unitOf
  omega

theorem readHex_unit (a b c d : HexDigit) (rest : List Char) :
    readHex (a.char :: b.char :: c.char :: d.char :: rest) = .ok (unitOf a b c d, rest) := by
  simp only [readHex, a.isValue, b.isValue, c.isValue, d.isValue, unitOf]

theorem readEscape_short {letter named : Char} (h : (letter, named) ∈ shortEscapes)
    (rest : List Char) : readEscape (letter :: rest) = .ok (named, rest) := by
  simp only [shortEscapes, List.mem_cons, Prod.mk.injEq, List.not_mem_nil, or_false] at h
  rcases h with ⟨rfl, rfl⟩ | ⟨rfl, rfl⟩ | ⟨rfl, rfl⟩ | ⟨rfl, rfl⟩ | ⟨rfl, rfl⟩ | ⟨rfl, rfl⟩ |
    ⟨rfl, rfl⟩ | ⟨rfl, rfl⟩ <;> rfl

section Unit

variable (a b c d : HexDigit) (rest : List Char)

/-- The characters of an escape by number, after the backslash. -/
def unitChars : List Char :=
  'u' :: a.char :: b.char :: c.char :: d.char :: rest

theorem readEscape_unit :
    readEscape (unitChars a b c d rest) =
      if IsTrailing (unitOf a b c d) then .error .malformed
      else if IsLeading (unitOf a b c d) then readTrailing (unitOf a b c d) rest
      else .ok (Char.ofNat (unitOf a b c d), rest) := by
  show readUnicode _ = _
  unfold readUnicode
  rw [readHex_unit]
  rfl

theorem readTrailing_unit (first : Nat) :
    readTrailing first ('\\' :: unitChars a b c d rest) =
      if IsTrailing (unitOf a b c d) then
        .ok (Char.ofNat ((first - 0xD800) * 0x400 + (unitOf a b c d - 0xDC00) + 0x10000), rest)
      else .error .malformed := by
  simp only [readTrailing, unitChars, readHex_unit]
  rfl

end Unit

/-! ## Reading pieces -/

/-- The characters of pieces up to the closing quote and on. -/
def piecesChars (pieces : List Piece) (rest : List Char) : List Char :=
  pieces.flatMap Piece.chars ++ '"' :: rest

section PiecesChars

variable (pieces : List Piece) (rest : List Char)

theorem readChars_quote : readChars ('"' :: rest) = .ok ([], rest) := by
  rw [readChars, if_pos rfl]

theorem piecesChars_plain (c : Char) (isPlain : c ≠ '"' ∧ c ≠ '\\' ∧ 0x20 ≤ c.toNat) :
    piecesChars (.plain c isPlain :: pieces) rest = c :: piecesChars pieces rest := rfl

theorem piecesChars_short (letter named : Char) (isEscape : (letter, named) ∈ shortEscapes) :
    piecesChars (.short letter named isEscape :: pieces) rest =
      '\\' :: letter :: piecesChars pieces rest := rfl

theorem piecesChars_unit (a b c d : HexDigit) :
    piecesChars (.unit a b c d :: pieces) rest =
      '\\' :: unitChars a b c d (piecesChars pieces rest) := rfl

theorem quoted_append : quoted pieces ++ rest = '"' :: piecesChars pieces rest := by
  simp [quoted, piecesChars]

end PiecesChars

namespace MemberText

variable (m : MemberText) (rest : List Char)

theorem chars_append : m.chars ++ rest =
    '"' :: piecesChars m.pieces (m.before ++ ':' :: (m.after ++ (m.value ++ rest))) := by
  rw [chars, List.append_assoc, quoted_append]
  simp

theorem readColon_chars : readColon (m.before ++ ':' :: (m.after ++ (m.value ++ rest))) =
    .ok (m.after ++ (m.value ++ rest)) := by
  unfold readColon
  rw [skipSpace_blanks m.isBlank.1 (by decide)]
  rfl

end MemberText

/-- **The characters that pieces name are read.** -/
theorem readChars_of_names {pieces : List Piece} {cs : List Char} (h : Names pieces cs)
    (rest : List Char) : readChars (piecesChars pieces rest) = .ok (cs, rest) := by
  induction h with
  | nil => exact readChars_quote rest
  | @plain c isPlain pieces cs others ih =>
    rw [piecesChars_plain, readChars_plain isPlain.1 isPlain.2.1 isPlain.2.2, ih]
    rfl
  | @short letter named isEscape pieces cs others ih =>
    rw [piecesChars_short, readChars_escaped (readEscape_short isEscape _), ih]
    rfl
  | @unit a b c d named pieces cs isNumber others ih =>
    have hread := readEscape_unit a b c d (piecesChars pieces rest)
    have hvalid : named.toNat.isValidChar := named.valid
    have hsurrogate : ¬ (0xD800 ≤ named.toNat ∧ named.toNat ≤ 0xDFFF) := by
      unfold Nat.isValidChar at hvalid
      omega
    rw [isNumber, if_neg (by unfold IsTrailing; omega), if_neg (by unfold IsLeading; omega),
      Char.ofNat_toNat] at hread
    rw [piecesChars_unit, readChars_escaped hread, ih]
    rfl
  | @pair a b c d a' b' c' d' named pieces cs leading trailing isNumber others ih =>
    have hread := readEscape_unit a b c d
      ('\\' :: unitChars a' b' c' d' (piecesChars pieces rest))
    have htrailing : ¬ IsTrailing (unitOf a b c d) := by
      unfold IsLeading at leading
      unfold IsTrailing
      omega
    rw [if_neg htrailing, if_pos leading, readTrailing_unit, if_pos trailing, isNumber,
      Char.ofNat_toNat] at hread
    rw [piecesChars_unit, piecesChars_unit, readChars_escaped hread, ih]
    rfl

/-- What is read after a backslash is an escape and what follows it. -/
theorem readChars_backslash {cs left named : List Char}
    (h : readChars ('\\' :: cs) = .ok (named, left)) :
    ∃ c others rest, readEscape cs = .ok (c, rest) ∧ readChars rest = .ok (others, left) ∧
      named = c :: others := by
  rw [readChars] at h
  simp only [show ('\\' : Char) ≠ '"' by decide, if_false, if_true] at h
  split at h
  · cases h
  · rename_i c rest hescape
    split at h
    · cases h
    · rename_i others left' hothers
      cases h
      exact ⟨c, others, rest, hescape, hothers, rfl⟩

theorem toNat_ofNat {n : Nat} (h : n.isValidChar) : (Char.ofNat n).toNat = n := by
  rw [Char.ofNat, dif_pos h]
  rfl

/-- A unit that is no half of a pair is the number of a character. -/
theorem toNat_ofNat_unit {n : Nat} (hlt : n < 0x10000) (hleading : ¬ IsLeading n)
    (htrailing : ¬ IsTrailing n) : (Char.ofNat n).toNat = n := by
  unfold IsLeading at hleading
  unfold IsTrailing at htrailing
  have hvalid : n.isValidChar := by
    unfold Nat.isValidChar
    omega
  exact toNat_ofNat hvalid

/-- The two halves of a pair make the number of a character. -/
theorem toNat_ofNat_pair {m n : Nat} (hleading : IsLeading m) (htrailing : IsTrailing n) :
    (Char.ofNat ((m - 0xD800) * 0x400 + (n - 0xDC00) + 0x10000)).toNat =
      (m - 0xD800) * 0x400 + (n - 0xDC00) + 0x10000 := by
  unfold IsLeading at hleading
  unfold IsTrailing at htrailing
  have hvalid : ((m - 0xD800) * 0x400 + (n - 0xDC00) + 0x10000).isValidChar := by
    unfold Nat.isValidChar
    omega
  exact toNat_ofNat hvalid

/-- After the first half of a pair there is its second half, or nothing is read. -/
theorem readTrailing_pieces {first : Nat} {pieces : List Piece} {rest left : List Char} {c : Char}
    (h : readTrailing first (piecesChars pieces rest) = .ok (c, left)) :
    ∃ a' b' c' d' others, pieces = .unit a' b' c' d' :: others ∧ IsTrailing (unitOf a' b' c' d') ∧
      c = Char.ofNat ((first - 0xD800) * 0x400 + (unitOf a' b' c' d' - 0xDC00) + 0x10000) ∧
      left = piecesChars others rest := by
  cases pieces with
  | nil => cases h
  | cons piece others =>
    cases piece with
    | plain c isPlain =>
      rw [piecesChars_plain] at h
      unfold readTrailing at h
      split at h
      · cases h
      · cases h
      · rename_i heq
        exact absurd (List.cons.inj heq).1 isPlain.2.1
      · cases h
    | short letter named isEscape =>
      have hletter : letter ≠ 'u' := by
        rintro rfl
        simp [shortEscapes] at isEscape
      rw [piecesChars_short] at h
      unfold readTrailing at h
      split at h
      · cases h
      · cases h
      · rename_i heq
        exact absurd (List.cons.inj (List.cons.inj heq).2).1 hletter
      · cases h
    | unit a' b' c' d' =>
      rw [piecesChars_unit, readTrailing_unit] at h
      split at h
      · rename_i htrailing
        injection h with h
        injection h with hc hleft
        exact ⟨a', b', c', d', others, rfl, htrailing, hc.symm, hleft.symm⟩
      · cases h

/-- **What is read are the characters that the pieces name.** -/
theorem names_of_readChars (rest : List Char) : ∀ {pieces : List Piece} {cs left : List Char},
    readChars (piecesChars pieces rest) = .ok (cs, left) → Names pieces cs
  | [], cs, left, h => by
    rw [piecesChars, List.flatMap_nil, List.nil_append, readChars, if_pos rfl] at h
    cases h
    exact .nil
  | .plain c isPlain :: pieces, cs, left, h => by
    rw [piecesChars_plain, readChars_plain isPlain.1 isPlain.2.1 isPlain.2.2] at h
    obtain ⟨⟨others, left'⟩, hothers, heq⟩ := Text.eq_ok_of_map h
    cases heq
    exact .plain (names_of_readChars rest hothers)
  | .short letter named isEscape :: pieces, cs, left, h => by
    rw [piecesChars_short] at h
    obtain ⟨c, others, rest', hescape, hothers, rfl⟩ := readChars_backslash h
    rw [readEscape_short isEscape] at hescape
    cases hescape
    exact .short (names_of_readChars rest hothers)
  | .unit a b c d :: pieces, cs, left, h => by
    rw [piecesChars_unit] at h
    obtain ⟨named, others, rest', hescape, hothers, rfl⟩ := readChars_backslash h
    rw [readEscape_unit] at hescape
    split at hescape
    · cases hescape
    · rename_i htrailing
      split at hescape
      · rename_i hleading
        obtain ⟨a', b', c', d', others', rfl, htrailing', hnamed, rfl⟩ :=
          readTrailing_pieces hescape
        refine .pair hleading htrailing' ?_ (names_of_readChars rest hothers)
        rw [hnamed, toNat_ofNat_pair hleading htrailing']
      · rename_i hleading
        cases hescape
        exact .unit (toNat_ofNat_unit (unitOf_lt a b c d) hleading htrailing).symm
          (names_of_readChars rest hothers)

/-- **A text is read as what its pieces name**, and not at all if they name nothing. -/
theorem readText_of_isText {pieces : List Piece} {s : Option String} (h : IsText pieces s)
    (rest : List Char) : (readText (piecesChars pieces rest)).toOption = s.map (·, rest) := by
  unfold readText
  cases h with
  | named names =>
    rw [readChars_of_names names]
    simp [Except.toOption]
  | broken noNames =>
    cases hread : readChars (piecesChars pieces rest) with
    | error e => rfl
    | ok read => exact absurd (names_of_readChars rest hread) (noNames read.1)

/-! ## Passing over pieces -/

theorem skipText_pieces (pieces : List Piece) (rest : List Char) :
    skipText (piecesChars pieces rest) = .ok rest := by
  induction pieces with
  | nil =>
    rw [piecesChars, List.flatMap_nil, List.nil_append]
    simp [skipText]
  | cons piece pieces ih =>
    cases piece with
    | plain c isPlain =>
      obtain ⟨hquote, hbackslash, hcontrol⟩ := isPlain
      rw [piecesChars_plain, skipText, if_neg (Nat.not_lt.mpr hcontrol), ih]
      · exact hquote
      · exact hbackslash
    | short letter named isEscape =>
      have hletter : letter ∈ ['"', '\\', '/', 'b', 'f', 'n', 'r', 't'] :=
        List.mem_map_of_mem (f := Prod.fst) isEscape
      have hunit : letter ≠ 'u' := by
        rintro rfl
        exact absurd hletter (by decide)
      rw [piecesChars_short, skipText, if_pos hletter, ih]
      exact hunit
    | unit a b c d =>
      rw [piecesChars_unit, unitChars, skipText]
      split
      · rename_i hread
        rw [readHex_unit] at hread
        cases hread
      · rename_i hread
        rw [readHex_unit] at hread
        cases hread
        exact ih

end TriggerFlow.Json
