import Mathlib.Tactic.FieldSimp
import TriggerFlow.Decimal.Shortest
import TriggerFlow.Proofs.Decimal.Ranks

/-!
# The digits that are chosen round back

A double is written with the first decimal that is found in the interval around it, on grids that
become finer with every digit. **Whatever is found rounds to the double**, since the ends of the
interval are the two boundaries of its rank, and seventeen digits always find something: on that
grid the steps are shorter than the interval is long.
-/

set_option autoImplicit false

namespace TriggerFlow.Decimal

/-! ## Whole numbers and powers -/

theorem le_of_decimalLength {n : ℕ} (h : 0 < n) : 10 ^ (decimalLength n - 1) ≤ n := by
  unfold decimalLength
  by_cases hone : (Nat.toDigits 10 n).length = 1
  · rw [hone]
    exact h
  · have hpos : 0 < (Nat.toDigits 10 n).length := Nat.length_toDigits_pos
    have hle := (Nat.length_toDigits_le_iff (b := 10) (n := n)
      (k := (Nat.toDigits 10 n).length - 1) (by decide) (by omega)).not.mp (by omega)
    exact Nat.le_of_not_lt hle

theorem lt_of_decimalLength (n : ℕ) : n < 10 ^ decimalLength n :=
  (Nat.length_toDigits_le_iff (by decide) Nat.length_toDigits_pos).mp (Nat.le_refl _)

theorem one_le_decimalLength (n : ℕ) : 1 ≤ decimalLength n :=
  Nat.length_toDigits_pos

/-- A power that is kept as a numerator and a denominator, one of which is one. -/
theorem pow_toNat_div {b : ℕ} (hb : b ≠ 0) (k : ℤ) :
    ((b ^ k.toNat : ℕ) : ℚ) / (b ^ (-k).toNat : ℕ) = (b : ℚ) ^ k := by
  have hb : (b : ℚ) ≠ 0 := by exact_mod_cast hb
  have hsub : k = (k.toNat : ℤ) - ((-k).toNat : ℤ) := by omega
  conv_rhs => rw [hsub, zpow_sub₀ hb, zpow_natCast, zpow_natCast]
  push_cast
  rfl

/-- A higher place in units of a lower one. -/
theorem ten_zpow_eq {place unit : ℤ} {n : ℕ} (h : place = n + unit) :
    (10 : ℚ) ^ place = (10 ^ n : ℕ) * 10 ^ unit := by
  rw [h, zpow_add₀ (by norm_num), zpow_natCast]
  push_cast
  rfl

/-- The place of the first digit of a quotient. -/
theorem placeOf_spec {n d : ℕ} (hn : 0 < n) (hd : 0 < d) :
    (10 : ℚ) ^ placeOf n d ≤ n / d ∧ (n : ℚ) / d < 10 ^ (placeOf n d + 1) := by
  have hnq : (0 : ℚ) < n := by exact_mod_cast hn
  have hdq : (0 : ℚ) < d := by exact_mod_cast hd
  unfold placeOf
  split
  · rename_i hle
    have hlen := one_le_decimalLength (n / d)
    have hlow := le_of_decimalLength (Nat.div_pos hle hd)
    have hhigh := lt_of_decimalLength (n / d)
    generalize decimalLength (n / d) = l at *
    have hlow : (10 ^ (l - 1) * d : ℕ) ≤ n := (Nat.le_div_iff_mul_le hd).mp hlow
    have hhigh : n < (10 ^ l * d : ℕ) := (Nat.div_lt_iff_lt_mul hd).mp hhigh
    rw [sub_add_cancel, show (l : ℤ) - 1 = ((l - 1 : ℕ) : ℤ) by omega, zpow_natCast, zpow_natCast,
      le_div_iff₀ hdq, div_lt_iff₀ hdq]
    exact ⟨by exact_mod_cast hlow, by exact_mod_cast hhigh⟩
  · rename_i hlt
    have hlen := one_le_decimalLength (d / n)
    have hlow := le_of_decimalLength (Nat.div_pos (Nat.le_of_not_le hlt) hn)
    have hhigh := lt_of_decimalLength (d / n)
    dsimp only
    -- Below one the first digit is as far down as the reciprocal has digits, and one less far if
    -- that is a power of ten.
    generalize hz : decimalLength (d / n) - 1 = z at *
    rw [show decimalLength (d / n) = z + 1 by omega] at hhigh
    have hlow : (10 ^ z * n : ℕ) ≤ d := (Nat.le_div_iff_mul_le hn).mp hlow
    have hhigh : d < (10 ^ (z + 1) * n : ℕ) := (Nat.div_lt_iff_lt_mul hn).mp hhigh
    have hlow : (10 : ℚ) ^ z * n ≤ d := by exact_mod_cast hlow
    have hhigh : (d : ℚ) < 10 ^ (z + 1) * n := by exact_mod_cast hhigh
    have hpow : (0 : ℚ) < 10 ^ z := by positivity
    split
    · rename_i heq
      have heq : (n : ℚ) * 10 ^ z = d := by exact_mod_cast heq
      rw [zpow_add_one₀ (by norm_num), zpow_neg, zpow_natCast, le_div_iff₀ hdq, div_lt_iff₀ hdq,
        ← heq]
      constructor
      · field_simp
        exact le_refl _
      · field_simp
        linarith
    · rename_i hne
      have hlt : (10 : ℚ) ^ z * n < d := by
        refine lt_of_le_of_ne hlow fun h => hne ?_
        rw [mul_comm]
        exact_mod_cast h
      rw [show -((z : ℤ) + 1) + 1 = -z by omega, zpow_neg, zpow_neg, zpow_natCast,
        show (z : ℤ) + 1 = ((z + 1 : ℕ) : ℤ) by omega, zpow_natCast, le_div_iff₀ hdq,
        div_lt_iff₀ hdq]
      constructor
      · rw [inv_mul_le_iff₀ (by positivity)]
        exact hhigh.le
      · rw [lt_inv_mul_iff₀ hpow]
        exact hlt

/-! ## The interval -/

section Interval

variable {r : ℕ}

theorem interval_denominator_pos (m : ℕ) (e : ℤ) : 0 < (interval m e).denominator := by
  simp only [interval, Nat.shiftLeft_eq, one_mul]
  positivity

theorem interval_scale (e : ℤ) (n : ℕ) :
    ((n * (1 <<< (e - 2).toNat) : ℕ) : ℚ) / (1 <<< (2 - e).toNat : ℕ) = n * 2 ^ (e - 2) := by
  have hpow := pow_toNat_div (b := 2) two_ne_zero (e - 2)
  rw [neg_sub, Nat.cast_two] at hpow
  rw [Nat.shiftLeft_eq, Nat.shiftLeft_eq, one_mul, one_mul, ← hpow, Nat.cast_mul, mul_div_assoc]

theorem two_zpow_sub_two (e : ℤ) : (2 : ℚ) ^ (e - 2) = 2 ^ e / 4 := by
  rw [zpow_sub₀ two_ne_zero]
  norm_num

theorem interval_value (r : ℕ) :
    let i := interval (significandAt r) (exponentAt r)
    (i.value : ℚ) / i.denominator = valueAt r := by
  simp only [interval]
  rw [interval_scale, two_zpow_sub_two, valueAt]
  push_cast
  ring

theorem interval_high (r : ℕ) :
    let i := interval (significandAt r) (exponentAt r)
    (i.high : ℚ) / i.denominator = boundaryAt r := by
  simp only [interval]
  rw [interval_scale, two_zpow_sub_two, boundaryAt, two_zpow_pred]
  push_cast
  ring

/-- The lower end; below a power of two the step is half as long. -/
theorem interval_low (hr : 2 ^ 53 ≤ r) :
    let i := interval (significandAt r) (exponentAt r)
    (i.low : ℚ) / i.denominator = boundaryAt (r - 1) := by
  simp only [interval]
  have hlow := le_significandAt r
  rw [interval_scale, two_zpow_sub_two, boundaryAt, two_zpow_pred]
  by_cases hpower : significandAt r = 2 ^ 52
  · have hprev : significandAt (r - 1) = 2 ^ 53 - 1 ∧ exponentAt (r - 1) = exponentAt r - 1 := by
      unfold significandAt at hpower
      unfold significandAt exponentAt
      omega
    have hnormal : exponentAt r ≠ -1074 := by
      unfold exponentAt
      omega
    rw [if_pos ⟨hpower, hnormal⟩, hprev.1, hprev.2, hpower, two_zpow_pred]
    push_cast
    ring
  · have hprev : significandAt (r - 1) = significandAt r - 1 ∧
        exponentAt (r - 1) = exponentAt r := by
      unfold significandAt at hpower
      unfold significandAt exponentAt
      omega
    rw [if_neg (fun h => hpower h.1), hprev.1, hprev.2, Nat.cast_sub (by omega),
      Nat.cast_sub (by omega)]
    push_cast
    ring

theorem interval_closed (r : ℕ) :
    (interval (significandAt r) (exponentAt r)).closed = true ↔ r % 2 = 0 := by
  simp only [interval, decide_eq_true_eq, significandAt_mod_two]

end Interval

/-! ## One grid -/

def Digits.value (d : Digits) : ℚ :=
  d.coefficient * 10 ^ d.exponent

/-- A number is in an interval, which its ends belong to or not. -/
def Interval.Inside (i : Interval) (q : ℚ) : Prop :=
  if i.closed then (i.low : ℚ) / i.denominator ≤ q ∧ q ≤ (i.high : ℚ) / i.denominator
  else (i.low : ℚ) / i.denominator < q ∧ q < (i.high : ℚ) / i.denominator

theorem Interval.Inside.roundsTo {r : ℕ} {q : ℚ} (hr : 2 ^ 53 ≤ r)
    (h : (interval (significandAt r) (exponentAt r)).Inside q) : RoundsTo q r := by
  have hclosed := interval_closed r
  unfold Interval.Inside at h
  rw [interval_low hr, interval_high] at h
  split at h
  · rename_i htrue
    have heven := hclosed.mp htrue
    exact ⟨h.1, h.2, fun hodd => by omega, fun hodd => by omega⟩
  · exact .of_lt h.1 h.2

theorem inside_of_lt {r : ℕ} {q : ℚ} (hr : 2 ^ 53 ≤ r) (hlow : boundaryAt (r - 1) < q)
    (hhigh : q < boundaryAt r) : (interval (significandAt r) (exponentAt r)).Inside q := by
  unfold Interval.Inside
  rw [interval_low hr, interval_high]
  split
  · exact ⟨hlow.le, hhigh.le⟩
  · exact ⟨hlow, hhigh⟩

namespace Interval

variable {i : Interval} {unit : ℤ}

/-- A point of a grid over the denominator of an interval. -/
theorem grid_eq (c : ℕ) :
    (c : ℚ) * 10 ^ unit * i.denominator * (Nat.pow 10 (-unit).toNat : ℕ) =
      (c * (Nat.pow 10 unit.toNat * i.denominator) : ℕ) := by
  have hpow := pow_toNat_div (b := 10) (by decide) unit
  have hne : ((10 ^ (-unit).toNat : ℕ) : ℚ) ≠ 0 := by positivity
  rw [Nat.cast_ofNat, div_eq_iff hne] at hpow
  show _ * ((10 ^ (-unit).toNat : ℕ) : ℚ) = (c * (10 ^ unit.toNat * i.denominator) : ℕ)
  push_cast at hpow ⊢
  rw [hpow]
  ring

/-- What is compared as whole numbers are the fractions. -/
theorem le_grid_iff (hd : 0 < i.denominator) (n c : ℕ) :
    n * Nat.pow 10 (-unit).toNat ≤ c * (Nat.pow 10 unit.toNat * i.denominator) ↔
      (n : ℚ) / i.denominator ≤ c * 10 ^ unit := by
  have hdpos : (0 : ℚ) < i.denominator := by exact_mod_cast hd
  have hdown : (0 : ℚ) < (Nat.pow 10 (-unit).toNat : ℕ) := by
    exact_mod_cast Nat.pow_pos (by decide)
  rw [div_le_iff₀ hdpos, ← mul_le_mul_iff_left₀ hdown, grid_eq c]
  exact_mod_cast Iff.rfl

theorem grid_le_iff (hd : 0 < i.denominator) (n c : ℕ) :
    c * (Nat.pow 10 unit.toNat * i.denominator) ≤ n * Nat.pow 10 (-unit).toNat ↔
      (c : ℚ) * 10 ^ unit ≤ n / i.denominator := by
  have hdpos : (0 : ℚ) < i.denominator := by exact_mod_cast hd
  have hdown : (0 : ℚ) < (Nat.pow 10 (-unit).toNat : ℕ) := by
    exact_mod_cast Nat.pow_pos (by decide)
  rw [le_div_iff₀ hdpos, ← mul_le_mul_iff_left₀ hdown, grid_eq c]
  exact_mod_cast Iff.rfl

/-- The point of a grid at the value or below it. -/
def below (i : Interval) (unit : ℤ) : ℕ :=
  i.value * Nat.pow 10 (-unit).toNat / (Nat.pow 10 unit.toNat * i.denominator)

theorem below_spec (unit : ℤ) (hd : 0 < i.denominator) :
    (i.below unit : ℚ) * 10 ^ unit ≤ i.value / i.denominator ∧
      (i.value : ℚ) / i.denominator < (i.below unit + 1 : ℕ) * 10 ^ unit := by
  have hstep : 0 < Nat.pow 10 unit.toNat * i.denominator :=
    Nat.mul_pos (Nat.pow_pos (by decide)) hd
  constructor
  · rw [← grid_le_iff hd]
    exact Nat.div_mul_le_self _ _
  · rw [← not_le, ← grid_le_iff hd, not_le]
    exact Nat.lt_mul_of_div_lt (Nat.lt_succ_self _) hstep

/-- What a grid point is tested for. -/
theorem inside_iff (unit : ℤ) (hd : 0 < i.denominator) (c : ℕ) :
    (if i.closed then
        i.low * Nat.pow 10 (-unit).toNat ≤ c * (Nat.pow 10 unit.toNat * i.denominator)
          && c * (Nat.pow 10 unit.toNat * i.denominator) ≤ i.high * Nat.pow 10 (-unit).toNat
      else
        i.low * Nat.pow 10 (-unit).toNat < c * (Nat.pow 10 unit.toNat * i.denominator)
          && c * (Nat.pow 10 unit.toNat * i.denominator) < i.high * Nat.pow 10 (-unit).toNat) = true
      ↔ i.Inside (c * 10 ^ unit) := by
  unfold Inside
  split
  · rw [Bool.and_eq_true, decide_eq_true_eq, decide_eq_true_eq, le_grid_iff hd, grid_le_iff hd]
  · rw [Bool.and_eq_true, decide_eq_true_eq, decide_eq_true_eq, ← not_le, ← not_le,
      le_grid_iff hd, grid_le_iff hd, not_le, not_le]

/-- On one grid a point beside the value is found, or none of the two is in the interval. -/
theorem onGrid_cases (hd : 0 < i.denominator) (tie : Tie) (first : ℤ) (count : ℕ) :
    let unit := first - count + 1
    (∃ c, (c = i.below unit ∨ c = i.below unit + 1) ∧ i.Inside (c * 10 ^ unit) ∧
        i.onGrid tie first count = some ⟨c, unit⟩) ∨
      (¬ i.Inside (i.below unit * 10 ^ unit) ∧ ¬ i.Inside ((i.below unit + 1 : ℕ) * 10 ^ unit) ∧
        i.onGrid tie first count = none) := by
  intro unit
  have hinside (c : ℕ) := inside_iff unit hd c
  unfold onGrid
  dsimp only
  split
  · rename_i hfirst hsecond
    refine .inr ⟨?_, ?_, rfl⟩
    · intro h
      exact Bool.false_ne_true (hfirst.symm.trans ((hinside _).mpr h))
    · intro h
      exact Bool.false_ne_true (hsecond.symm.trans ((hinside _).mpr h))
  · rename_i hfirst hsecond
    exact .inl ⟨_, .inl rfl, (hinside _).mp hfirst, rfl⟩
  · rename_i hfirst hsecond
    exact .inl ⟨_, .inr rfl, (hinside _).mp hsecond, rfl⟩
  · rename_i hfirst hsecond
    refine .inl ⟨_, ?_, ?_, rfl⟩
    · split
      · exact .inr rfl
      · exact .inl rfl
    · split
      · exact (hinside _).mp hsecond
      · exact (hinside _).mp hfirst

end Interval

/-! ## All grids -/

/-- What holds of the digits of the double of a rank whose first digit has a place. -/
structure Fits (r : ℕ) (first : ℤ) (d : Digits) : Prop where
  rounds : RoundsTo d.value r
  coefficient : d.coefficient ≤ 10 ^ 17
  exponent : first - 16 ≤ d.exponent
  low : 10 ^ first ≤ d.value

theorem Fits.stripZeros {r : ℕ} {first : ℤ} (fuel : ℕ) :
    ∀ {d : Digits}, Fits r first d → Fits r first (d.stripZeros fuel) := by
  induction fuel with
  | zero =>
    intro d h
    exact h
  | succ fuel ih =>
    intro d h
    unfold Digits.stripZeros
    split
    · rename_i hzero
      have hvalue : Digits.value ⟨d.coefficient / 10, d.exponent + 1⟩ = d.value := by
        have hten : (d.coefficient : ℚ) = 10 * (d.coefficient / 10 : ℕ) := by
          exact_mod_cast (show d.coefficient = 10 * (d.coefficient / 10) by omega)
        rw [Digits.value, Digits.value, hten, zpow_add_one₀ (by norm_num)]
        ring
      refine ih ⟨hvalue ▸ h.rounds, ?_, ?_, hvalue ▸ h.low⟩
      · exact (Nat.div_le_self _ _).trans h.coefficient
      · exact h.exponent.trans (Int.le_add_of_nonneg_right (by decide))
    · exact h

section

variable {r : ℕ} {first : ℤ}

/-- The grid points beside the value have as many digits as were asked for. -/
theorem below_bounds (hfirst : (10 : ℚ) ^ first ≤ valueAt r ∧ valueAt r < 10 ^ (first + 1))
    {count : ℕ} (hcount : 1 ≤ count) :
    let b := (interval (significandAt r) (exponentAt r)).below (first - count + 1)
    10 ^ (count - 1) ≤ b ∧ b < 10 ^ count := by
  intro b
  have hden := interval_denominator_pos (significandAt r) (exponentAt r)
  obtain ⟨hle, hlt⟩ := Interval.below_spec (first - count + 1) hden
  rw [interval_value] at hle hlt
  have hunit : (0 : ℚ) < 10 ^ (first - count + 1) := by positivity
  have hfirstUnits : (10 : ℚ) ^ first = (10 ^ (count - 1) : ℕ) * 10 ^ (first - count + 1) :=
    ten_zpow_eq (by omega)
  have hnextUnits : (10 : ℚ) ^ (first + 1) = (10 ^ count : ℕ) * 10 ^ (first - count + 1) :=
    ten_zpow_eq (by omega)
  constructor
  · have hlow := hfirst.1.trans_lt hlt
    rw [hfirstUnits] at hlow
    exact Nat.lt_succ_iff.mp (by exact_mod_cast lt_of_mul_lt_mul_right hlow hunit.le)
  · have hhigh := hle.trans_lt hfirst.2
    rw [hnextUnits] at hhigh
    exact_mod_cast lt_of_mul_lt_mul_right hhigh hunit.le

theorem fits_of_onGrid (hr : 2 ^ 53 ≤ r)
    (hfirst : (10 : ℚ) ^ first ≤ valueAt r ∧ valueAt r < 10 ^ (first + 1)) {tie : Tie} {count : ℕ}
    (hcount : 1 ≤ count) (hmost : count ≤ 17) {d : Digits}
    (h : (interval (significandAt r) (exponentAt r)).onGrid tie first count = some d) :
    Fits r first d := by
  have hden := interval_denominator_pos (significandAt r) (exponentAt r)
  obtain ⟨hlow, hhigh⟩ := below_bounds hfirst hcount
  rcases Interval.onGrid_cases hden tie first count with ⟨c, hc, hinside, heq⟩ | ⟨-, -, heq⟩
  · rw [heq] at h
    obtain rfl := Option.some.inj h
    have hpow : 10 ^ count ≤ 10 ^ 17 := Nat.pow_le_pow_right (by decide) hmost
    refine ⟨hinside.roundsTo hr, ?_, ?_, ?_⟩
    · show c ≤ 10 ^ 17
      omega
    · show first - 16 ≤ first - count + 1
      omega
    · have hc : (10 ^ (count - 1) : ℕ) ≤ (c : ℚ) := by
        exact_mod_cast (show 10 ^ (count - 1) ≤ c by omega)
      have hunit : (0 : ℚ) < 10 ^ (first - count + 1) := by positivity
      calc (10 : ℚ) ^ first = (10 ^ (count - 1) : ℕ) * 10 ^ (first - count + 1) :=
            ten_zpow_eq (by omega)
        _ ≤ c * 10 ^ (first - count + 1) := mul_le_mul_of_nonneg_right hc hunit.le
  · rw [heq] at h
    cases h

/-- **Seventeen digits always find something**: the interval is longer than a step. -/
theorem onGrid_seventeen (hr : 2 ^ 53 ≤ r) (hfirst : (10 : ℚ) ^ first ≤ valueAt r) (tie : Tie) :
    (interval (significandAt r) (exponentAt r)).onGrid tie first 17 ≠ none := by
  have hden := interval_denominator_pos (significandAt r) (exponentAt r)
  intro hnone
  rcases Interval.onGrid_cases hden tie first 17 with ⟨c, -, -, heq⟩ | ⟨hbelow, habove, -⟩
  · rw [hnone] at heq
    cases heq
  · obtain ⟨hle, hlt⟩ := Interval.below_spec (first - (17 : ℕ) + 1) hden
    rw [interval_value] at hle hlt
    have hlow := valueAt_lt_boundaryAt r
    have hhigh := boundaryAt_lt_valueAt_succ (r - 1)
    rw [Nat.sub_add_cancel (by omega)] at hhigh
    -- So the two grid points are outside, and one step leads over the whole interval.
    have houtside : _ ≤ boundaryAt (r - 1) := not_lt.mp fun h =>
      hbelow (inside_of_lt hr h (hle.trans_lt hlow))
    have houtside' : boundaryAt r ≤ _ := not_lt.mp fun h =>
      habove (inside_of_lt hr (hhigh.trans hlt) h)
    have hgap := boundaryAt_lt_succ_mul (r - 1)
    rw [Nat.sub_add_cancel (by omega)] at hgap
    have hstep : (10 : ℚ) ^ first = (10 ^ 16 : ℕ) * 10 ^ (first - (17 : ℕ) + 1) :=
      ten_zpow_eq (by omega)
    have hpos := valueAt_pos r
    rw [Nat.cast_pow, Nat.cast_ofNat] at hstep
    rw [Nat.cast_succ, add_mul, one_mul] at houtside'
    linarith

/-- **The digits of a normal double round to it**, whichever way ties go, and there are no more than
seventeen. -/
theorem fits_shortest (hr : 2 ^ 53 ≤ r) (tie : Tie) :
    ∃ first : ℤ, ((10 : ℚ) ^ first ≤ valueAt r ∧ valueAt r < 10 ^ (first + 1)) ∧
      Fits r first (shortest tie (significandAt r) (exponentAt r)) := by
  have hden := interval_denominator_pos (significandAt r) (exponentAt r)
  have hvalue : 0 < (interval (significandAt r) (exponentAt r)).value := by
    have hpos := significandAt_pos r
    simp only [interval, Nat.shiftLeft_eq, one_mul]
    positivity
  have hfirst := placeOf_spec hvalue hden
  rw [interval_value] at hfirst
  refine ⟨_, hfirst, ?_⟩
  unfold shortest
  dsimp only
  split
  · rename_i d hfound
    obtain ⟨n, hn, hgrid⟩ := List.exists_of_findSome?_eq_some hfound
    have hn := List.mem_range.mp hn
    exact (fits_of_onGrid hr hfirst (by omega) (by omega) hgrid).stripZeros 20
  · rename_i hnone
    have hlast := List.findSome?_eq_none_iff.mp hnone 16 (List.mem_range.mpr (by decide))
    exact absurd hlast (onGrid_seventeen hr hfirst.1 tie)

end

end TriggerFlow.Decimal
