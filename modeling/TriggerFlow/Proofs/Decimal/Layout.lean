import TriggerFlow.Decimal.Layout
import TriggerFlow.Json.Number
import TriggerFlow.Proofs.Decimal.Shortest

/-!
# Digits around a point

Digits that are laid out without an exponent are read again as one whole number, and the digits
after the point say by which power of ten it is too large. **The two together are the decimal**:
neither the zeros that are written for the sake of the place nor the one after a bare point change
it.
-/

set_option autoImplicit false

namespace TriggerFlow.Decimal

/-- A text of digits with a point among them, no digit more in front than is needed. -/
structure Pointed (text whole fraction : List Char) : Prop where
  eq : text = whole ++ '.' :: fraction
  isWhole : Json.isWhole whole = true
  before : ∀ c ∈ whole, Text.isDigit c = true
  after : ∀ c ∈ fraction, Text.isDigit c = true
  ne_nil : fraction ≠ []

/-! ## The digits of a whole number -/

theorem isDigit_of_mem_toDigits {n : ℕ} {c : Char} (h : c ∈ Nat.toDigits 10 n) :
    Text.isDigit c = true := by
  have hdigit := Nat.isDigit_of_mem_toDigits (by decide) (by decide) h
  unfold Char.isDigit at hdigit
  unfold Text.isDigit
  simpa [Char.le_def, and_comm] using hdigit

theorem decimalValue_eq (cs : List Char) : Text.decimalValue cs = Nat.ofDigitChars 10 cs 0 := by
  unfold Text.decimalValue Text.digitValue Nat.ofDigitChars
  simp only [Nat.mul_comm]

theorem decimalValue_toDigits (n : ℕ) : Text.decimalValue (Nat.toDigits 10 n) = n := by
  rw [decimalValue_eq, Nat.ofDigitChars_ten_toDigits]

theorem decimalValue_zeros (cs : List Char) (zeros : ℕ) :
    Text.decimalValue (cs ++ List.replicate zeros '0') = Text.decimalValue cs * 10 ^ zeros := by
  rw [decimalValue_eq, decimalValue_eq, Nat.ofDigitChars_append, Nat.ofDigitChars_replicate_zero,
    Nat.mul_comm]

/-- A positive number does not begin with a zero. -/
theorem toDigits_eq_cons {n : ℕ} (h : 0 < n) :
    ∃ c cs, Nat.toDigits 10 n = c :: cs ∧ c ≠ '0' := by
  induction n using Nat.strongRecOn with
  | ind n ih =>
    rw [Nat.toDigits_eq_if (by decide)]
    split
    · rename_i hlt
      refine ⟨_, [], rfl, ?_⟩
      have hall : ∀ i : Fin 10, 0 < i.val → Nat.digitChar i.val ≠ '0' := by decide
      exact hall ⟨n, hlt⟩ h
    · obtain ⟨c, cs, heq, hc⟩ := ih (n / 10) (by omega) (by omega)
      exact ⟨c, cs ++ [Nat.digitChar (n % 10)], by rw [heq, List.cons_append], hc⟩

theorem isWhole_cons {c : Char} (hc : c ≠ '0') (cs : List Char) :
    Json.isWhole (c :: cs) = true := by
  unfold Json.isWhole
  split
  · rename_i h
    cases h
  · rename_i h
    exact absurd (List.cons.inj h).1 hc
  · rfl

theorem Digits.place_spec {d : Digits} (h : 0 < d.coefficient) :
    (10 : ℚ) ^ d.place ≤ d.value ∧ d.value < 10 ^ (d.place + 1) := by
  have hlength := one_le_decimalLength d.coefficient
  have hunit : (0 : ℚ) < 10 ^ d.exponent := by positivity
  have hlow : ((10 ^ (decimalLength d.coefficient - 1) : ℕ) : ℚ) ≤ d.coefficient := by
    exact_mod_cast le_of_decimalLength h
  have hhigh : (d.coefficient : ℚ) < (10 ^ decimalLength d.coefficient : ℕ) := by
    exact_mod_cast lt_of_decimalLength d.coefficient
  have hplace : d.place = (decimalLength d.coefficient - 1 : ℕ) + d.exponent := by
    unfold Digits.place
    omega
  rw [ten_zpow_eq hplace,
    ten_zpow_eq (show d.place + 1 = decimalLength d.coefficient + d.exponent by omega)]
  exact ⟨mul_le_mul_of_nonneg_right hlow hunit.le, mul_lt_mul_of_pos_right hhigh hunit⟩

/-! ## Layout -/

/-- What is told of digits that are laid out: how many stand after the point, and that all of them
are the decimal without its point. -/
structure Spells (d : Digits) (whole fraction : List Char) : Prop where
  pointed : Pointed d.positional.toList whole fraction
  places : fraction.length = max 1 (-d.exponent).toNat
  value : (Text.decimalValue (whole ++ fraction) : ℚ) = d.value * 10 ^ fraction.length

/-- The digits before and after the point are those of the coefficient, or of a whole number with
one zero more. -/
theorem Spells.decimalValue_le {d : Digits} {whole fraction : List Char}
    (h : Spells d whole fraction) :
    (Text.decimalValue (whole ++ fraction) : ℚ) ≤ max (d.coefficient : ℚ) (d.value * 10) := by
  rw [h.value, h.places]
  by_cases he : d.exponent < 0
  · refine le_max_of_le_left (le_of_eq ?_)
    rw [show max 1 (-d.exponent).toNat = (-d.exponent).toNat by omega, Digits.value, mul_assoc,
      ← zpow_natCast, Int.toNat_of_nonneg (by omega), ← zpow_add₀ (by norm_num), add_neg_cancel,
      zpow_zero, mul_one]
  · rw [show max 1 (-d.exponent).toNat = 1 by omega, pow_one]
    exact le_max_right _ _

section

variable {n : ℕ}

/-- A whole number, with its zeros and with one more after the point. -/
theorem spells_of_nonneg (hn : 0 < n) {e : ℤ} (he : 0 ≤ e) :
    Spells ⟨n, e⟩ (Nat.toDigits 10 n ++ List.replicate e.toNat '0') ['0'] := by
  obtain ⟨c, cs, hcons, hc⟩ := toDigits_eq_cons hn
  have hzero : Text.isDigit '0' = true := by decide
  refine ⟨⟨?_, ?_, ?_, ?_, List.cons_ne_nil _ _⟩, ?_, ?_⟩
  · unfold Digits.positional
    dsimp only
    rw [if_pos he, String.toList_append, String.toList_ofList]
    rfl
  · rw [hcons, List.cons_append]
    exact isWhole_cons hc _
  · intro x hx
    rcases List.mem_append.mp hx with hx | hx
    · exact isDigit_of_mem_toDigits hx
    · rw [List.eq_of_mem_replicate hx]
      exact hzero
  · intro x hx
    rw [List.mem_singleton.mp hx]
    exact hzero
  · show 1 = max 1 (-e).toNat
    omega
  · have hone : ['0'] = List.replicate 1 '0' := rfl
    have hexp : (10 : ℚ) ^ e = 10 ^ e.toNat := by
      rw [← zpow_natCast, Int.toNat_of_nonneg he]
    rw [hone, decimalValue_zeros, decimalValue_zeros, decimalValue_toDigits, List.length_replicate,
      Digits.value, hexp]
    push_cast
    rfl

/-- Digits on both sides of the point. There are more of them than places after the point, so none
has to be filled in before. -/
theorem spells_of_neg {places : ℕ} (hpos : 0 < places) (hbig : 10 ^ places ≤ n) :
    let before := (Nat.toDigits 10 n).length - places
    Spells ⟨n, -places⟩ ((Nat.toDigits 10 n).take before) ((Nat.toDigits 10 n).drop before) := by
  intro before
  have hn : 0 < n := (Nat.pow_pos (by decide)).trans_le hbig
  obtain ⟨c, cs, hcons, hc⟩ := toDigits_eq_cons hn
  have hlength : places < (Nat.toDigits 10 n).length := by
    rw [← not_le, Nat.length_toDigits_le_iff (by decide) hpos, not_lt]
    exact hbig
  have hafter : ((Nat.toDigits 10 n).drop before).length = places := by
    rw [List.length_drop]
    omega
  refine ⟨⟨?_, ?_, fun x hx => isDigit_of_mem_toDigits (List.mem_of_mem_take hx),
    fun x hx => isDigit_of_mem_toDigits (List.mem_of_mem_drop hx), ?_⟩, ?_, ?_⟩
  · have hneg : ¬ 0 ≤ -(places : ℤ) := by omega
    have hplaces : (- -(places : ℤ)).toNat = places := by omega
    have hfill : places + 1 - (Nat.toDigits 10 n).length = 0 := by omega
    unfold Digits.positional
    dsimp only
    rw [if_neg hneg, hplaces, hfill, List.replicate_zero, List.nil_append, String.toList_append,
      String.toList_append, String.toList_ofList, String.toList_ofList, String.toList_ofList,
      List.append_assoc]
    rfl
  · obtain ⟨k, hk⟩ := Nat.exists_eq_succ_of_ne_zero (show before ≠ 0 by omega)
    rw [hk, hcons, List.take_succ_cons]
    exact isWhole_cons hc _
  · rw [← List.length_pos_iff, hafter]
    exact hpos
  · rw [hafter]
    show places = max 1 (- -(places : ℤ)).toNat
    omega
  · rw [List.take_append_drop, decimalValue_toDigits, hafter, Digits.value, zpow_neg,
      zpow_natCast]
    field_simp

end

/-- **A decimal that is not below one is spelled by its layout without an exponent.** -/
theorem Digits.spells {d : Digits} (h : 1 ≤ d.value) :
    ∃ whole fraction, Spells d whole fraction := by
  obtain ⟨n, e⟩ := d
  by_cases he : 0 ≤ e
  · have hn : 0 < n := by
      rw [Nat.pos_iff_ne_zero]
      rintro rfl
      norm_num [Digits.value] at h
    exact ⟨_, _, spells_of_nonneg hn he⟩
  · obtain ⟨places, rfl⟩ : ∃ places : ℕ, e = -places := ⟨(-e).toNat, by omega⟩
    have hbig : 10 ^ places ≤ n := by
      rw [Digits.value, zpow_neg, zpow_natCast, ← div_eq_mul_inv, le_div_iff₀ (by positivity),
        one_mul] at h
      exact_mod_cast h
    exact ⟨_, _, spells_of_neg (by omega) hbig⟩

end TriggerFlow.Decimal
