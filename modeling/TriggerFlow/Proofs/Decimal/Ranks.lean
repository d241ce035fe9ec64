import Mathlib.Algebra.Order.Field.Power
import Mathlib.Data.Rat.Cast.Order
import Mathlib.Order.Monotone.Basic
import Mathlib.Tactic.Linarith
import Mathlib.Tactic.Positivity
import Mathlib.Tactic.Ring

/-!
# Doubles in order of size

Read as a whole number, the bits of a positive double are its rank: **of two doubles the larger one
has the higher rank, and neighbours have neighbouring ranks**, also where the exponent changes. So
what rounds to a double is told without looking at exponents: it lies between two boundaries, and
the boundaries rise with the rank. A boundary itself goes to the neighbour of even rank.

A rank also has a value where no double has it, below the normal ones and above the finite ones.
Nothing here asks which ranks are taken.
-/

set_option autoImplicit false

namespace TriggerFlow.Decimal

/-- The significand of the double of a rank, its leading one included. -/
def significandAt (r : ℕ) : ℕ :=
  2 ^ 52 + r % 2 ^ 52

def exponentAt (r : ℕ) : ℤ :=
  (r / 2 ^ 52 : ℕ) - 1075

def valueAt (r : ℕ) : ℚ :=
  significandAt r * 2 ^ exponentAt r

/-- Midway between the double of a rank and the next one. -/
def boundaryAt (r : ℕ) : ℚ :=
  (2 * significandAt r + 1) * 2 ^ (exponentAt r - 1)

/-- The rank of `significand * 2 ^ exponent`, where the significand has fifty-three bits, or is the
first number that has more. -/
def rankOf (significand : ℕ) (exponent : ℤ) : ℕ :=
  (exponent + 1075).toNat * 2 ^ 52 + (significand - 2 ^ 52)

theorem significandAt_lt (r : ℕ) : significandAt r < 2 ^ 53 := by
  unfold significandAt
  omega

theorem le_significandAt (r : ℕ) : 2 ^ 52 ≤ significandAt r :=
  Nat.le_add_right _ _

theorem significandAt_pos (r : ℕ) : 0 < significandAt r :=
  Nat.lt_of_lt_of_le (by decide) (le_significandAt r)

theorem significandAt_mod_two (r : ℕ) : significandAt r % 2 = r % 2 := by
  unfold significandAt
  omega

/-! ## Neighbours -/

theorem significandAt_rankOf {m : ℕ} (e : ℤ) (hm : 2 ^ 52 ≤ m) (hlt : m < 2 ^ 53) :
    significandAt (rankOf m e) = m := by
  unfold significandAt rankOf
  omega

theorem exponentAt_rankOf {m : ℕ} {e : ℤ} (hm : m < 2 ^ 53) (he : -1075 ≤ e) :
    exponentAt (rankOf m e) = e := by
  unfold exponentAt rankOf
  have hdiv : ((e + 1075).toNat * 2 ^ 52 + (m - 2 ^ 52)) / 2 ^ 52 = (e + 1075).toNat := by
    omega
  rw [hdiv]
  omega

theorem rankOf_significandAt (r : ℕ) : rankOf (significandAt r) (exponentAt r) = r := by
  unfold rankOf significandAt exponentAt
  omega

theorem rankOf_succ {m : ℕ} (e : ℤ) (hm : 2 ^ 52 ≤ m) : rankOf (m + 1) e = rankOf m e + 1 := by
  unfold rankOf
  omega

/-- The first significand with too many bits is the lowest one with a higher exponent. -/
theorem rankOf_carry {e : ℤ} (he : -1075 ≤ e) : rankOf (2 ^ 53) e = rankOf (2 ^ 52) (e + 1) := by
  unfold rankOf
  omega

theorem valueAt_rankOf {m : ℕ} {e : ℤ} (hm : 2 ^ 52 ≤ m) (hle : m ≤ 2 ^ 53) (he : -1075 ≤ e) :
    valueAt (rankOf m e) = m * 2 ^ e := by
  rcases Nat.lt_or_eq_of_le hle with hlt | rfl
  · rw [valueAt, significandAt_rankOf e hm hlt, exponentAt_rankOf hlt he]
  · rw [rankOf_carry he, valueAt, significandAt_rankOf _ (Nat.le_refl _) (by norm_num),
      exponentAt_rankOf (by norm_num) (by omega), zpow_add_one₀ two_ne_zero]
    push_cast
    ring

theorem neg_1075_le_exponentAt (r : ℕ) : -1075 ≤ exponentAt r := by
  unfold exponentAt
  omega

/-- The next double is one unit of the last bit away, also where that is not the last bit of the
next one. -/
theorem valueAt_succ (r : ℕ) : valueAt (r + 1) = valueAt r + 2 ^ exponentAt r := by
  have hle : significandAt r + 1 ≤ 2 ^ 53 := significandAt_lt r
  have hsucc := rankOf_succ (exponentAt r) (le_significandAt r)
  rw [rankOf_significandAt] at hsucc
  rw [← hsucc, valueAt_rankOf (Nat.le_succ_of_le (le_significandAt r)) hle
    (neg_1075_le_exponentAt r), valueAt]
  push_cast
  ring

theorem two_zpow_pred (e : ℤ) : (2 : ℚ) ^ (e - 1) = 2 ^ e / 2 := by
  rw [zpow_sub_one₀ two_ne_zero]
  ring

theorem boundaryAt_eq (r : ℕ) : boundaryAt r = valueAt r + 2 ^ exponentAt r / 2 := by
  rw [valueAt, boundaryAt, two_zpow_pred]
  ring

theorem two_zpow_exponentAt_pos (r : ℕ) : (0 : ℚ) < 2 ^ exponentAt r :=
  zpow_pos two_pos _

theorem valueAt_lt_succ (r : ℕ) : valueAt r < valueAt (r + 1) := by
  rw [valueAt_succ]
  exact lt_add_of_pos_right _ (two_zpow_exponentAt_pos r)

theorem valueAt_lt_boundaryAt (r : ℕ) : valueAt r < boundaryAt r := by
  have := two_zpow_exponentAt_pos r
  rw [boundaryAt_eq]
  linarith

theorem boundaryAt_lt_valueAt_succ (r : ℕ) : boundaryAt r < valueAt (r + 1) := by
  have := two_zpow_exponentAt_pos r
  rw [boundaryAt_eq, valueAt_succ]
  linarith

theorem strictMono_boundaryAt : StrictMono boundaryAt :=
  strictMono_nat_of_lt_succ fun r =>
    (boundaryAt_lt_valueAt_succ r).trans (valueAt_lt_boundaryAt (r + 1))

theorem strictMono_valueAt : StrictMono valueAt :=
  strictMono_nat_of_lt_succ valueAt_lt_succ

/-- A double has no fewer units of its last bit than a power of two. -/
theorem le_valueAt (r : ℕ) : 2 ^ 52 * 2 ^ exponentAt r ≤ valueAt r := by
  have hle : (2 ^ 52 : ℚ) ≤ significandAt r := by exact_mod_cast le_significandAt r
  exact mul_le_mul_of_nonneg_right hle (two_zpow_exponentAt_pos r).le

theorem valueAt_le (r : ℕ) : valueAt r ≤ (2 ^ 53 - 1) * 2 ^ exponentAt r := by
  have hle : (significandAt r : ℚ) + 1 ≤ 2 ^ 53 := by exact_mod_cast significandAt_lt r
  exact mul_le_mul_of_nonneg_right (le_sub_iff_add_le.mpr hle) (two_zpow_exponentAt_pos r).le

theorem valueAt_pos (r : ℕ) : 0 < valueAt r :=
  (mul_pos (by norm_num) (two_zpow_exponentAt_pos r)).trans_le (le_valueAt r)

/-! ## Powers of two -/

theorem significandAt_mul (k : ℕ) : significandAt (k * 2 ^ 52) = 2 ^ 52 := by
  unfold significandAt
  omega

theorem exponentAt_mul (k : ℕ) : exponentAt (k * 2 ^ 52) = k - 1075 := by
  unfold exponentAt
  omega

/-- The ranks without fraction bits are those of the powers of two. -/
theorem valueAt_mul (k : ℕ) : valueAt (k * 2 ^ 52) = 2 ^ ((k : ℤ) - 1023) := by
  rw [valueAt, significandAt_mul, exponentAt_mul,
    show (k : ℤ) - 1023 = 52 + (k - 1075) by ring, zpow_add₀ two_ne_zero]
  norm_num

/-! ## Rounding -/

/-- A number rounds to the double of a rank: to the nearest one, a tie to the one of even rank. -/
structure RoundsTo (q : ℚ) (r : ℕ) : Prop where
  low : boundaryAt (r - 1) ≤ q
  high : q ≤ boundaryAt r
  low_lt : r % 2 = 1 → boundaryAt (r - 1) < q
  high_lt : r % 2 = 1 → q < boundaryAt r

namespace RoundsTo

variable {q : ℚ} {r s : ℕ}

theorem of_lt (hlow : boundaryAt (r - 1) < q) (hhigh : q < boundaryAt r) : RoundsTo q r :=
  ⟨hlow.le, hhigh.le, fun _ => hlow, fun _ => hhigh⟩

theorem valueAt_self (hr : 1 ≤ r) : RoundsTo (valueAt r) r := by
  have hlow := boundaryAt_lt_valueAt_succ (r - 1)
  rw [Nat.sub_add_cancel hr] at hlow
  exact of_lt hlow (valueAt_lt_boundaryAt r)

theorem le_of_lt_boundaryAt (h : RoundsTo q r) (hq : q < boundaryAt s) : r ≤ s := by
  have := strictMono_boundaryAt.lt_iff_lt.mp (h.low.trans_lt hq)
  omega

theorem lt_of_boundaryAt_lt (h : RoundsTo q r) (hq : boundaryAt s < q) : s < r :=
  strictMono_boundaryAt.lt_iff_lt.mp (hq.trans_le h.high)

/-- A number rounds to no double that another one lies before. -/
theorem le_of_valueAt_le (h : RoundsTo q r) (hs : 1 ≤ s) (hq : valueAt s ≤ q) : s ≤ r := by
  have hbelow := boundaryAt_lt_valueAt_succ (s - 1)
  rw [Nat.sub_add_cancel hs] at hbelow
  have := h.lt_of_boundaryAt_lt (hbelow.trans_le hq)
  omega

theorem le_of_le_valueAt (h : RoundsTo q r) (hq : q ≤ valueAt s) : r ≤ s :=
  h.le_of_lt_boundaryAt (hq.trans_lt (valueAt_lt_boundaryAt s))

theorem le_of_same (hr : RoundsTo q r) (hs : RoundsTo q s) : r ≤ s := by
  by_contra hlt
  have hle : boundaryAt s ≤ boundaryAt (r - 1) := strictMono_boundaryAt.monotone (by omega)
  -- Both boundaries are the number itself, so one of the two ranks is odd and excludes it.
  have heq : boundaryAt s = boundaryAt (r - 1) := le_antisymm hle (hr.low.trans hs.high)
  have hsucc : s = r - 1 := strictMono_boundaryAt.injective heq
  rcases Nat.mod_two_eq_zero_or_one s with heven | hodd
  · have := hr.low_lt (by omega)
    exact absurd (hs.high.trans hle) (not_le.mpr this)
  · have := hs.high_lt hodd
    exact absurd (hle.trans hr.low) (not_le.mpr this)

/-- **A number rounds to one double only.** -/
theorem unique (hr : RoundsTo q r) (hs : RoundsTo q s) : r = s :=
  Nat.le_antisymm (hr.le_of_same hs) (hs.le_of_same hr)

/-- A whole number with at most fifty-three bits is a double. -/
theorem valueAt_of_lt {n : ℕ} (hpos : 0 < n) (hlt : n < 2 ^ 53) (h : RoundsTo n r) :
    valueAt r = n := by
  have hlog : n.log2 < 53 := (Nat.log2_lt hpos.ne').mpr hlt
  obtain ⟨hle, hbig⟩ := (Nat.log2_eq_iff hpos.ne').mp (Eq.refl n.log2)
  have hvalue : valueAt (rankOf (n * 2 ^ (52 - n.log2)) (n.log2 - 52)) = n := by
    rw [valueAt_rankOf]
    · rw [Nat.cast_mul, Nat.cast_pow, mul_assoc, Nat.cast_two, ← zpow_natCast,
        ← zpow_add₀ two_ne_zero, show ((52 - n.log2 : ℕ) : ℤ) + (n.log2 - 52) = 0 by omega,
        zpow_zero, mul_one]
    · calc 2 ^ 52 = 2 ^ n.log2 * 2 ^ (52 - n.log2) := by
            rw [← pow_add]
            congr 1
            omega
        _ ≤ n * 2 ^ (52 - n.log2) := Nat.mul_le_mul_right _ hle
    · calc n * 2 ^ (52 - n.log2) ≤ 2 ^ (n.log2 + 1) * 2 ^ (52 - n.log2) :=
            Nat.mul_le_mul_right _ hbig.le
        _ = 2 ^ 53 := by
            rw [← pow_add]
            congr 1
            omega
    · omega
  have hself := valueAt_self (r := rankOf (n * 2 ^ (52 - n.log2)) (n.log2 - 52)) (by
    unfold rankOf
    omega)
  rw [hvalue] at hself
  rw [h.unique hself, hvalue]

end RoundsTo

/-! ## Two roundings -/

theorem exponentAt_succ (r : ℕ) :
    exponentAt (r + 1) = exponentAt r ∨ exponentAt (r + 1) = exponentAt r + 1 := by
  unfold exponentAt
  omega

/-- A number and the double that it rounds to are as near as the bits of a significand allow. -/
theorem RoundsTo.abs_sub_le {q : ℚ} {r : ℕ} (h : RoundsTo q r) (hr : 1 ≤ r) :
    |q - valueAt r| ≤ valueAt r / 2 ^ 53 := by
  obtain ⟨k, rfl⟩ := Nat.exists_eq_add_of_le' hr
  have hunits := le_valueAt (k + 1)
  have hup := h.high
  have hdown := h.low
  rw [boundaryAt_eq] at hup
  rw [Nat.add_sub_cancel, boundaryAt_eq] at hdown
  -- A step down is as long as a step up, or half as long.
  have hstep : (2 : ℚ) ^ exponentAt k ≤ 2 ^ exponentAt (k + 1) := by
    refine zpow_le_zpow_right₀ one_le_two ?_
    have := exponentAt_succ k
    omega
  have hsucc := valueAt_succ k
  rw [abs_sub_le_iff]
  constructor <;> linarith

/-- Boundaries are further apart than a rounding moves a number. -/
theorem boundaryAt_lt_succ_mul (r : ℕ) :
    boundaryAt r < boundaryAt (r + 1) * (1 - 1 / 2 ^ 53) := by
  have hpos := two_zpow_exponentAt_pos r
  have hsucc := valueAt_succ r
  rw [boundaryAt_eq, boundaryAt_eq (r + 1)]
  -- A significand is bounded where the gap is tight: before a carry, or else after the step.
  rcases exponentAt_succ r with hsame | hcarry
  · have hunits := valueAt_le (r + 1)
    rw [hsame] at hunits ⊢
    linarith
  · have hunits := valueAt_le r
    rw [hcarry, zpow_add_one₀ two_ne_zero]
    linarith

/-- **Whoever rounds a number that was rounded before ends at most one rank away.** -/
theorem RoundsTo.near {q p : ℚ} {r s : ℕ} (hq : RoundsTo q r) (hp : RoundsTo p s)
    (hnear : |q - p| ≤ p / 2 ^ 53) : r ≤ s + 1 ∧ s ≤ r + 1 := by
  obtain ⟨hup, hdown⟩ := abs_sub_le_iff.mp hnear
  constructor
  · by_contra hlt
    -- Then `q` is above the boundary over `s + 1`, and `p` below the one before.
    have hgap := boundaryAt_lt_succ_mul s
    have hle : boundaryAt (s + 1) ≤ q :=
      (strictMono_boundaryAt.monotone (by omega)).trans hq.low
    have hhigh := hp.high
    nlinarith
  · by_contra hlt
    have hgap := boundaryAt_lt_succ_mul r
    have hle : boundaryAt (r + 1) ≤ p :=
      (strictMono_boundaryAt.monotone (by omega)).trans hp.low
    have hhigh := hq.high
    nlinarith

end TriggerFlow.Decimal
