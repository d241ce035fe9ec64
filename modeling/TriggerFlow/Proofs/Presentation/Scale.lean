import TriggerFlow.Proofs.Decimal.Rounding
import TriggerFlow.Proofs.Json.Number
import TriggerFlow.Proofs.Presentation.Codec

/-!
# The scale that comes back

A scale is what rounded additions come to, so its text may need seventeen digits, and a reader that
turns the digits into a double before it divides has rounded twice by then. **The scale that comes
back is the one that was saved or a neighbour of it, and it is the same one if the digits are a
double**, as any fifteen digits are. Both follow from what the text is worth: it rounds to the
scale, and what is divided is as near to the digits as a double can be.
-/

set_option autoImplicit false

namespace TriggerFlow.Decimal

/-! ## The scales of a run -/

/-- A double from one up to `2 ^ 51`, where one more step is lost. -/
structure IsGrown (x : Float) : Prop where
  low : 1023 * 2 ^ 52 ≤ rank x
  high : rank x ≤ 1074 * 2 ^ 52

theorem boundaryAt_top : boundaryAt (1074 * 2 ^ 52) = 2 ^ 51 + 1 / 4 := by
  rw [boundaryAt, significandAt_mul, exponentAt_mul]
  norm_num

theorem rank_scaleStep : rank Presentation.scaleStep = 4596373779694328218 := by
  decide +kernel

theorem isGrown_one : IsGrown 1.0 := by
  have hone : rank (1.0 : Float) = 1023 * 2 ^ 52 := by decide +kernel
  exact ⟨hone.ge, hone.trans_le (by norm_num)⟩

namespace IsGrown

variable {x : Float}

theorem isModerate (h : IsGrown x) : IsModerate (rank x) := by
  have hlow := h.low
  have hhigh := h.high
  constructor <;>
  · unfold exponentAt
    omega

theorem one_le (h : IsGrown x) : 1 ≤ valueAt (rank x) :=
  calc (1 : ℚ) = valueAt (1023 * 2 ^ 52) := by
        rw [valueAt_mul]
        norm_num
    _ ≤ valueAt (rank x) := strictMono_valueAt.monotone h.low

theorem le_top (h : IsGrown x) : valueAt (rank x) ≤ 2 ^ 51 :=
  calc valueAt (rank x) ≤ valueAt (1074 * 2 ^ 52) := strictMono_valueAt.monotone h.high
    _ = 2 ^ 51 := by
        rw [valueAt_mul]
        norm_num

/-- **One more step stays in the range.** -/
theorem add_scaleStep (h : IsGrown x) : IsGrown (x + Presentation.scaleStep) := by
  have hstep : IsModerate (rank Presentation.scaleStep) := by
    rw [rank_scaleStep]
    constructor <;> decide
  have hsum := roundsTo_add h.isModerate hstep
  have hquarter : valueAt (rank Presentation.scaleStep) < 1 / 4 := by
    rw [rank_scaleStep, valueAt, significandAt, exponentAt]
    norm_num
  have hpos := valueAt_pos (rank Presentation.scaleStep)
  have hlow := h.low
  constructor
  · exact hlow.trans (hsum.le_of_valueAt_le (by omega) (by linarith))
  · have htop := h.le_top
    refine hsum.le_of_lt_boundaryAt ?_
    rw [boundaryAt_top]
    linarith

end IsGrown

/-! ## What is written -/

theorem magnitude_of_normal {x : Float} (hlow : 2 ^ 52 ≤ rank x) (hhigh : rank x < 2047 * 2 ^ 52) :
    magnitude x = .finite (significandAt (rank x)) (exponentAt (rank x)) := by
  have hbits : x.toBits.toNat % 1 <<< 63 = rank x := Nat.mod_eq_of_lt (by
    show rank x < _
    rw [Nat.shiftLeft_eq]
    omega)
  unfold magnitude
  dsimp only
  rw [hbits, Nat.shiftLeft_eq, one_mul]
  have hstored : 1 ≤ rank x / 2 ^ 52 ∧ rank x / 2 ^ 52 < 2047 := by omega
  unfold significandAt exponentAt
  generalize rank x / 2 ^ 52 = stored at hstored ⊢
  split
  · omega
  · omega
  · rw [Nat.add_comm]

theorem isNegative_of_normal {x : Float} (hhigh : rank x < 2047 * 2 ^ 52) :
    isNegative x = false := by
  unfold isNegative
  rw [decide_eq_false_iff_not, Nat.shiftLeft_eq]
  show ¬ _ ≤ rank x
  omega

/-- A number whose digits have a low place is laid out without an exponent. -/
theorem numberChars_of_positional {x : Float} (hlow : 2 ^ 52 ≤ rank x)
    (hhigh : rank x < 2047 * 2 ^ 52)
    (hplace : Json.numberLayout.isPositional
      (shortest .toEven (significandAt (rank x)) (exponentAt (rank x))).place = true) :
    Json.numberChars x =
      (shortest .toEven (significandAt (rank x)) (exponentAt (rank x))).positional.toList := by
  have hmagnitude := magnitude_of_normal hlow hhigh
  have hsign := isNegative_of_normal hhigh
  obtain ⟨k, hk⟩ := Nat.exists_eq_succ_of_ne_zero (significandAt_pos (rank x)).ne'
  unfold Json.numberChars Layout.render
  rw [hmagnitude, hsign, hk]
  rw [hk] at hplace
  show ("" ++ if Json.numberLayout.isPositional (shortest .toEven (k + 1) _).place = true then _
    else _).toList = _
  rw [if_pos hplace, String.empty_append]
  rfl

/-- Digits that are not below one nor too many to be written out have a low place. -/
theorem isPositional_of_value {d : Digits} (hlow : 1 ≤ d.value) (hhigh : d.value < 10 ^ 16) :
    Json.numberLayout.isPositional d.place = true := by
  have hcoefficient : 0 < d.coefficient := by
    rw [Nat.pos_iff_ne_zero]
    intro hzero
    rw [Digits.value, hzero] at hlow
    norm_num at hlow
  obtain ⟨hle, hlt⟩ := d.place_spec hcoefficient
  have hbelow : (10 : ℚ) ^ (0 : ℤ) < 10 ^ (d.place + 1) := by
    rw [zpow_zero]
    exact hlow.trans_lt hlt
  have habove : (10 : ℚ) ^ d.place < 10 ^ (16 : ℤ) := hle.trans_lt (hhigh.trans_le (by norm_num))
  have := (zpow_lt_zpow_iff_right₀ (by norm_num)).mp hbelow
  have := (zpow_lt_zpow_iff_right₀ (by norm_num)).mp habove
  simp only [Json.numberLayout, Bool.and_eq_true, decide_eq_true_eq]
  omega

/-- **The text of a scale**: at most seventeen digits around a point, which round to the scale. -/
theorem IsGrown.text {x : Float} (h : IsGrown x) :
    ∃ whole fraction, Pointed (Json.numberChars x) whole fraction ∧ fraction.length ≤ 16 ∧
      (1 ≤ Text.decimalValue (whole ++ fraction) ∧
        Text.decimalValue (whole ++ fraction) ≤ 10 ^ 17) ∧
      RoundsTo ((Text.decimalValue (whole ++ fraction) : ℚ) / 10 ^ fraction.length) (rank x) := by
  have hlow := h.low
  have hhigh := h.high
  obtain ⟨first, ⟨-, hbelow⟩, hfits⟩ := fits_shortest (show 2 ^ 53 ≤ rank x by omega) .toEven
  have hchars := numberChars_of_positional (x := x) (by omega) (by omega)
  generalize shortest .toEven (significandAt (rank x)) (exponentAt (rank x)) = d at *
  -- The first digit is not after the point, so sixteen more make at most sixteen places.
  have hfirst : 0 ≤ first := by
    have hlt : (10 : ℚ) ^ (0 : ℤ) < 10 ^ (first + 1) := by
      rw [zpow_zero]
      exact h.one_le.trans_lt hbelow
    have := (zpow_lt_zpow_iff_right₀ (by norm_num)).mp hlt
    omega
  have hone : 1 ≤ d.value := by
    refine le_trans ?_ hfits.low
    exact one_le_zpow₀ (by norm_num) hfirst
  -- The digits may be more than the scale is worth, but not beyond the last boundary.
  have hmost : d.value ≤ 9 * 10 ^ 15 := by
    have htop := hfits.rounds.high.trans (strictMono_boundaryAt.monotone h.high)
    rw [boundaryAt_top] at htop
    linarith
  have hplace := isPositional_of_value hone (hmost.trans_lt (by norm_num))
  obtain ⟨whole, fraction, hspells⟩ := Digits.spells hone
  have hplaces : fraction.length ≤ 16 := by
    have := hspells.places
    have := hfits.exponent
    omega
  have hvalue := hspells.value
  have hpow : (0 : ℚ) < 10 ^ fraction.length := by positivity
  refine ⟨whole, fraction, hchars hplace ▸ hspells.pointed, hplaces, ⟨?_, ?_⟩, ?_⟩
  · have hpos : (1 : ℚ) ≤ Text.decimalValue (whole ++ fraction) := by
      rw [hvalue]
      exact one_le_mul_of_one_le_of_one_le hone (one_le_pow₀ (by norm_num))
    exact_mod_cast hpos
  · have hle : (d.coefficient : ℚ) ≤ 10 ^ 17 := by exact_mod_cast hfits.coefficient
    have hbound := hspells.decimalValue_le.trans (max_le hle (by linarith))
    exact_mod_cast hbound
  · rw [hvalue, mul_div_assoc, div_self hpow.ne', mul_one]
    exact hfits.rounds

/-! ## What is read -/

/-- The powers of ten that a scale is divided by are doubles. -/
theorem valueAt_ofScientific {k : ℕ} (hk : k ≤ 16) :
    valueAt (rank (Float.ofScientific 1 false k)) = 10 ^ k ∧
      IsModerate (rank (Float.ofScientific 1 false k)) := by
  have hall : ∀ i : Fin 17, let r := rank (Float.ofScientific 1 false i.val)
      significandAt r * 2 ^ (exponentAt r).toNat = 10 ^ i.val * 2 ^ (-exponentAt r).toNat ∧
        -60 ≤ exponentAt r ∧ exponentAt r ≤ 60 := by
    decide +kernel
  obtain ⟨heq, hlow, hhigh⟩ := hall ⟨k, by omega⟩
  dsimp only at heq hlow hhigh
  refine ⟨?_, hlow, hhigh⟩
  generalize rank (Float.ofScientific 1 false k) = r at heq
  have hpow := pow_toNat_div (b := 2) two_ne_zero (exponentAt r)
  have hne : ((2 ^ (-exponentAt r).toNat : ℕ) : ℚ) ≠ 0 := by positivity
  have heq : (significandAt r : ℚ) * (2 ^ (exponentAt r).toNat : ℕ) =
      10 ^ k * (2 ^ (-exponentAt r).toNat : ℕ) := by exact_mod_cast heq
  rw [Nat.cast_two] at hpow
  rw [valueAt, ← hpow, mul_div_assoc', heq, mul_div_assoc, div_self hne, mul_one]

/-- **Digits that round to a double, divided as the reader does**: a neighbour of it at most, and
the double itself if the digits are one. -/
theorem rank_div_near {n places : ℕ} (hpos : 1 ≤ n) (hn : n ≤ 10 ^ 17) (hplaces : places ≤ 16)
    {x : Float} (hx : IsGrown x) (h : RoundsTo ((n : ℚ) / 10 ^ places) (rank x)) :
    let y := Json.ofSignificand n / Float.ofScientific 1 false places
    (rank x ≤ rank y + 1 ∧ rank y ≤ rank x + 1) ∧ (n < 2 ^ 53 → y = x) := by
  intro y
  have hlow := hx.low
  obtain ⟨hten, htenModerate⟩ := valueAt_ofScientific hplaces
  have hdigits := roundsTo_ofSignificand hpos (hn.trans_lt (by norm_num))
  have hrank : 1023 * 2 ^ 52 ≤ rank (Json.ofSignificand n) ∧
      rank (Json.ofSignificand n) ≤ 1080 * 2 ^ 52 := by
    constructor
    · refine hdigits.le_of_valueAt_le (by norm_num) ?_
      have hone : (1 : ℚ) ≤ n := by exact_mod_cast hpos
      rw [valueAt_mul]
      norm_num [hone]
    · refine hdigits.le_of_le_valueAt ?_
      have hmost : (n : ℚ) ≤ 10 ^ 17 := by exact_mod_cast hn
      rw [valueAt_mul]
      norm_num
      linarith
  have hmoderate : IsModerate (rank (Json.ofSignificand n)) := by
    obtain ⟨hle, hge⟩ := hrank
    constructor <;>
    · unfold exponentAt
      omega
  have hquotient := roundsTo_div hmoderate htenModerate
  rw [hten] at hquotient
  have hpow : (0 : ℚ) < 10 ^ places := by positivity
  -- One rounding is made before the division and one after it, and only the first can do harm.
  constructor
  · refine h.near hquotient ?_
    calc |(n : ℚ) / 10 ^ places - valueAt (rank (Json.ofSignificand n)) / 10 ^ places|
        = |n - valueAt (rank (Json.ofSignificand n))| / 10 ^ places := by
          rw [← sub_div, abs_div, abs_of_pos hpow]
      _ ≤ valueAt (rank (Json.ofSignificand n)) / 2 ^ 53 / 10 ^ places :=
          div_le_div_of_nonneg_right (hdigits.abs_sub_le (by omega)) hpow.le
      _ = valueAt (rank (Json.ofSignificand n)) / 10 ^ places / 2 ^ 53 := div_right_comm _ _ _
  · intro hsmall
    rw [hdigits.valueAt_of_lt hpos hsmall] at hquotient
    exact eq_of_rank_eq (hquotient.unique h)

end TriggerFlow.Decimal
