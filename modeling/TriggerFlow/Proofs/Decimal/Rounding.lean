import Mathlib
import TriggerFlow.Json.Number
import TriggerFlow.Proofs.Decimal.Ranks

/-!
# What the operations on doubles round to

Doubles are added and divided exactly and then rounded, in three moves: bits are shifted out until
fifty-three are left, what was shifted out decides between two neighbours, and where that makes a
bit too many one more is shifted out. **What comes out is the double that the exact result rounds
to**, in the sense of `RoundsTo`. Of the bits that are shifted out two are kept, and they tell
enough of the number, whatever the shift: that is the invariant, and the rest is read off from it.

Only positive doubles well inside the range are looked at, so nothing overflows and nothing gets
lost below.
-/

set_option autoImplicit false

namespace TriggerFlow.Decimal

open Float.Model Float.Model.UnpackedFloat

/-! ## Bits -/

/-- The bits of a double, read as a whole number. -/
def rank (x : Float) : ℕ :=
  x.toBits.toNat

theorem eq_of_rank_eq {x y : Float} (h : rank x = rank y) : x = y :=
  Float.toBits_inj.mp (UInt64.toNat_inj.mp h)

theorem rank_ofModel_pack (u : UnpackedFloat) :
    rank (.ofModel (.pack u)) = (UnpackedFloat.pack Format.binary64 u).toNat :=
  rfl

theorem toNat_unpackMantissa (b : BitVec Format.binary64.numBits) :
    (unpackMantissa b).toNat = b.toNat % 2 ^ 52 := by
  simp [unpackMantissa_def]

theorem toNat_unpackExponent (b : BitVec Format.binary64.numBits) :
    (unpackExponent b).toNat = b.toNat / 2 ^ 52 % 2 ^ 11 := by
  simp [unpackExponent_def, Nat.shiftRight_eq_div_pow]

theorem toNat_unpackSign (b : BitVec Format.binary64.numBits) :
    (unpackSign b).toNat = b.toNat / 2 ^ 63 % 2 := by
  simp [unpackSign_def, Nat.shiftRight_eq_div_pow]

theorem toNat_packComponents (s : Sign) (e : BitVec 11) (m : BitVec 52) :
    (packComponents Format.binary64 s e m).toNat =
      s.toBitVec.toNat * 2 ^ 63 + e.toNat * 2 ^ 52 + m.toNat := by
  simp only [packComponents, BitVec.toNat_append]
  rw [← Nat.shiftLeft_add_eq_or_of_lt e.isLt, ← Nat.shiftLeft_add_eq_or_of_lt m.isLt]
  simp only [Nat.shiftLeft_eq]
  omega

/-- Bits that are those of a normal number, taken apart. -/
theorem unpack_of_normal {b : BitVec Format.binary64.numBits} (hlow : 2 ^ 52 ≤ b.toNat)
    (hhigh : b.toNat < 2047 * 2 ^ 52) :
    UnpackedFloat.unpack Format.binary64 b =
      .finite .positive (significandAt b.toNat) (exponentAt b.toNat) (significandAt_pos _) := by
  have hexponent := toNat_unpackExponent b
  rw [Nat.mod_eq_of_lt (by omega)] at hexponent
  have hsign : unpackSign b = 0#1 := by
    apply BitVec.eq_of_toNat_eq
    rw [toNat_unpackSign, BitVec.toNat_ofNat]
    omega
  have hfinite : unpackExponent b ≠ -1#11 := by
    intro h
    rw [h] at hexponent
    simp at hexponent
    omega
  have hnormal : unpackExponent b ≠ 0#11 := by
    intro h
    rw [h] at hexponent
    simp at hexponent
    omega
  have hsig : (1#1 ++ unpackMantissa b).toNat = significandAt b.toNat := by
    rw [BitVec.toNat_append, ← Nat.shiftLeft_add_eq_or_of_lt (BitVec.isLt _), toNat_unpackMantissa]
    rfl
  have hexp : ((unpackExponent b).toNat : ℤ) -
      (Format.binary64.exponentBias + Format.binary64.mantissaBitsWithoutImplicit) =
        exponentAt b.toNat := by
    rw [hexponent]
    rfl
  unfold UnpackedFloat.unpack
  simp only [hsig, hexp, hsign]
  rw [if_neg hfinite, if_neg hnormal]
  rfl

/-- A normal number, put together. -/
theorem toNat_pack {m : ℕ} {e : ℤ} (hm : 2 ^ 52 ≤ m) (hlt : m < 2 ^ 53) (hlow : -1074 ≤ e)
    (hhigh : e ≤ 971) (hpos : 0 < m) :
    (UnpackedFloat.pack Format.binary64 (.finite .positive m e hpos)).toNat = rankOf m e := by
  have hlog : m.log2 = 52 := (Nat.log2_eq_iff hpos.ne').mpr ⟨hm, hlt⟩
  have hbias : (e + Format.binary64.exponentBias +
      Format.binary64.mantissaBitsWithoutImplicit).toNat = (e + 1075).toNat := by
    have hsum : e + Format.binary64.exponentBias + Format.binary64.mantissaBitsWithoutImplicit =
        e + 1075 := by
      simp [Format.exponentBias]
      omega
    rw [hsum]
  unfold UnpackedFloat.pack
  dsimp only
  rw [hlog, hbias, if_neg (by show ¬ 2 ^ 11 ≤ _; omega), if_pos (by rfl), toNat_packComponents]
  unfold rankOf
  rw [BitVec.toNat_ofNat, BitVec.toNat_ofNat]
  show 0 * _ + _ + _ = _
  omega

/-! ## What is left of the bits that are shifted out -/

/-- What an accuracy tells of the distance from the whole number below, in units. -/
inductive Tells (f : ℚ) : Accuracy → Prop where
  | exact (h : f = 0) : Tells f .exact
  | below (hlow : 0 < f) (hhigh : f < 1 / 2) : Tells f (.inexact .lt)
  | midway (h : f = 1 / 2) : Tells f (.inexact .eq)
  | above (hlow : 1 / 2 < f) (hhigh : f < 1) : Tells f (.inexact .gt)

theorem Tells.nonneg {f : ℚ} {acc : Accuracy} (h : Tells f acc) : 0 ≤ f := by
  cases h <;> linarith

/-- A significand and its two bits hold a number. -/
def Holds (em : ExtendedMantissa) (y : ℚ) : Prop :=
  Tells (y - em.mantissa) em.accuracy

theorem holds_ofMantissaAndAccuracy {m : ℕ} {acc : Accuracy} {y : ℚ} (h : Tells (y - m) acc) :
    Holds (.ofMantissaAndAccuracy m acc) y := by
  unfold Holds
  cases h with
  | exact h => exact .exact h
  | below hlow hhigh => exact .below hlow hhigh
  | midway h => exact .midway h
  | above hlow hhigh => exact .above hlow hhigh

/-- **To shift a bit out is to halve the number.** -/
theorem Holds.shiftRightOne {em : ExtendedMantissa} {y : ℚ} (h : Holds em y) :
    Holds em.shiftRightOne (y / 2) := by
  obtain ⟨m, round, sticky⟩ := em
  -- What is left over is half of what there was and of the bit that goes.
  have hhalf : y / 2 - (m / 2 : ℕ) = (y - m) / 2 + (m % 2 : ℕ) / 2 := by
    have hm : (m : ℚ) = 2 * (m / 2 : ℕ) + (m % 2 : ℕ) := by
      exact_mod_cast (Nat.div_add_mod m 2).symm
    linarith
  unfold Holds at h ⊢
  unfold ExtendedMantissa.shiftRightOne
  dsimp only at h ⊢
  rw [hhalf]
  generalize y - m = f at h ⊢
  rcases Nat.mod_two_eq_zero_or_one m with hmod | hmod <;> rw [hmod] <;> push_cast
  · cases round <;> cases sticky <;> cases h
    · exact .exact (by linarith)
    · exact .below (by linarith) (by linarith)
    · exact .below (by linarith) (by linarith)
    · exact .below (by linarith) (by linarith)
  · cases round <;> cases sticky <;> cases h
    · exact .midway (by linarith)
    · exact .above (by linarith) (by linarith)
    · exact .above (by linarith) (by linarith)
    · exact .above (by linarith) (by linarith)

theorem Holds.shiftRight {em : ExtendedMantissa} {y : ℚ} (h : Holds em y) (n : ℕ) :
    Holds (em >>> n) (y / 2 ^ n) := by
  show Holds (n.repeat ExtendedMantissa.shiftRightOne em) _
  induction n with
  | zero => simpa [Nat.repeat] using h
  | succ n ih =>
    rw [pow_succ, ← div_div]
    exact ih.shiftRightOne

theorem mantissa_shiftRight (em : ExtendedMantissa) (n : ℕ) :
    (em >>> n).mantissa = em.mantissa / 2 ^ n := by
  show (n.repeat ExtendedMantissa.shiftRightOne em).mantissa = _
  induction n with
  | zero => simp [Nat.repeat]
  | succ n ih =>
    rw [pow_succ, ← Nat.div_div_eq_div_mul, ← ih]
    rfl

/-! ## Between two neighbours -/

/-- A whole number that is nearest to another number, an even one if there are two. -/
structure IsNearest (n : ℕ) (y : ℚ) : Prop where
  low : n - 1 / 2 ≤ y
  high : y ≤ n + 1 / 2
  low_lt : n % 2 = 1 → n - 1 / 2 < y
  high_lt : n % 2 = 1 → y < n + 1 / 2

theorem isNearest_roundToNearestEven {m : ℕ} {acc : Accuracy} {y : ℚ} (h : Tells (y - m) acc) :
    (acc.roundToNearestEven m = m ∨ acc.roundToNearestEven m = m + 1) ∧
      IsNearest (acc.roundToNearestEven m) y := by
  cases h with
  | exact h =>
    refine ⟨.inl rfl, ?_⟩
    simp only [Accuracy.roundToNearestEven]
    constructor <;> intros <;> linarith
  | below hlow hhigh =>
    refine ⟨.inl rfl, ?_⟩
    simp only [Accuracy.roundToNearestEven]
    constructor <;> intros <;> linarith
  | above hlow hhigh =>
    refine ⟨.inr rfl, ?_⟩
    simp only [Accuracy.roundToNearestEven]
    constructor <;> intros <;> push_cast <;> linarith
  | midway h =>
    simp only [Accuracy.roundToNearestEven]
    -- The neighbour that is taken is even, so nothing is asked for an odd one.
    rcases Nat.mod_two_eq_zero_or_one m with hmod | hmod <;> rw [hmod]
    · exact ⟨.inl rfl, by push_cast; linarith, by push_cast; linarith, by omega, by omega⟩
    · exact ⟨.inr rfl, by push_cast; linarith, by push_cast; linarith, by omega, by omega⟩

/-- A nearest significand of fifty-three bits, or with a carry, makes the double that is rounded
to. -/
theorem IsNearest.roundsTo {n : ℕ} {e : ℤ} {y : ℚ} (h : IsNearest n y) (hn : 2 ^ 52 ≤ n)
    (hle : n ≤ 2 ^ 53) (he : -1074 ≤ e) (hy : 2 ^ 52 ≤ y) :
    RoundsTo (y * 2 ^ e) (rankOf n e) := by
  have hpos : (0 : ℚ) < 2 ^ e := zpow_pos two_pos _
  have hvalue := valueAt_rankOf hn hle (show -1075 ≤ e by omega)
  have hparity : rankOf n e % 2 = n % 2 := by
    unfold rankOf
    omega
  have hhigh : (n + 1 / 2) * 2 ^ e ≤ boundaryAt (rankOf n e) := by
    have hstep : (2 : ℚ) ^ e ≤ 2 ^ exponentAt (rankOf n e) := by
      refine zpow_le_zpow_right₀ one_le_two ?_
      unfold exponentAt rankOf
      omega
    rw [boundaryAt_eq, hvalue]
    linarith
  rcases Nat.lt_or_eq_of_le hn with hlt | rfl
  · have hlow : boundaryAt (rankOf n e - 1) = (n - 1 / 2) * 2 ^ e := by
      obtain ⟨k, rfl⟩ : ∃ k, n = k + 1 := ⟨n - 1, by omega⟩
      rw [rankOf_succ e (by omega), Nat.add_sub_cancel, boundaryAt,
        significandAt_rankOf e (by omega) (by omega), exponentAt_rankOf (by omega) (by omega),
        two_zpow_pred]
      push_cast
      ring
    exact {
      low := hlow.trans_le (mul_le_mul_of_nonneg_right h.low hpos.le)
      high := (mul_le_mul_of_nonneg_right h.high hpos.le).trans hhigh
      low_lt := fun hodd => hlow.trans_lt (mul_lt_mul_of_pos_right (h.low_lt (by omega)) hpos)
      high_lt := fun hodd => (mul_lt_mul_of_pos_right (h.high_lt (by omega)) hpos).trans_le hhigh }
  · -- The boundary below a power of two is only half as far away as it looks.
    have hlow : boundaryAt (rankOf (2 ^ 52) e - 1) < y * 2 ^ e := by
      have hlt := boundaryAt_lt_valueAt_succ (rankOf (2 ^ 52) e - 1)
      rw [Nat.sub_add_cancel (by unfold rankOf; omega), hvalue] at hlt
      push_cast at hlt
      exact hlt.trans_le (mul_le_mul_of_nonneg_right hy hpos.le)
    exact {
      low := hlow.le
      high := (mul_le_mul_of_nonneg_right h.high hpos.le).trans hhigh
      low_lt := fun _ => hlow
      high_lt := fun hodd => (mul_lt_mul_of_pos_right (h.high_lt (by omega)) hpos).trans_le hhigh }

/-! ## The three moves -/

/-- A significand with enough bits is shifted until fifty-three are left. -/
theorem shiftToTargetExponent_eq {m : ℕ} {e : ℤ} (acc : Accuracy) (hm : 2 ^ 52 ≤ m)
    (he : -1074 ≤ e) :
    shiftToTargetExponent Format.binary64 m e acc =
      (ExtendedMantissa.ofMantissaAndAccuracy m acc >>> (m.log2 - 52),
        e + (m.log2 - 52 : ℕ)) := by
  have hlog : 52 ≤ m.log2 := (Nat.le_log2 (by omega)).mpr hm
  have htarget : (Format.binary64.targetExponent (totalExponent m e) - e).toNat = m.log2 - 52 := by
    show (max (((m.log2 + 1 : ℕ) + e) - 53) (-1074) - e).toNat = _
    omega
  unfold shiftToTargetExponent shiftToExponent
  dsimp only
  rw [htarget]

/-- The last of the three moves does something only after a carry. -/
theorem toNat_pack_carried {n : ℕ} {e : ℤ} (hn : 2 ^ 52 ≤ n) (hle : n ≤ 2 ^ 53) (hlow : -1074 ≤ e)
    (hhigh : e ≤ 970) (hpos : 0 < n / 2 ^ (n.log2 - 52)) :
    (UnpackedFloat.pack Format.binary64
      (.finite .positive (n / 2 ^ (n.log2 - 52)) (e + (n.log2 - 52 : ℕ)) hpos)).toNat =
      rankOf n e := by
  rcases Nat.lt_or_eq_of_le hle with hlt | rfl
  · have hlog : n.log2 = 52 := (Nat.log2_eq_iff (by omega)).mpr ⟨hn, hlt⟩
    simp only [hlog, Nat.sub_self, pow_zero, Nat.div_one, Nat.cast_zero, add_zero] at hpos ⊢
    exact toNat_pack hn hlt hlow (by omega) hpos
  · have hlog : (2 ^ 53).log2 = 53 := Nat.log2_two_pow
    simp only [hlog] at hpos ⊢
    rw [rankOf_carry (by omega)]
    exact toNat_pack (Nat.le_refl (2 ^ 52)) (by norm_num) (by omega) (by omega) hpos

/-- **A number of which fifty-three bits and an accuracy are known is rounded.** -/
theorem roundsTo_roundWithAccuracy {m : ℕ} {e : ℤ} {acc : Accuracy} {y : ℚ} (hm : 2 ^ 52 ≤ m)
    (h : Tells (y - m) acc) (hlow : -1074 ≤ e) (hhigh : m.log2 + e ≤ 1022) :
    RoundsTo (y * 2 ^ e)
      (rank (.ofModel (.pack (roundWithAccuracy Format.binary64 .positive m e acc)))) := by
  have hlog : 52 ≤ m.log2 := (Nat.le_log2 (by omega)).mpr hm
  obtain ⟨n, hn⟩ : ∃ n, m.log2 = 52 + n := ⟨m.log2 - 52, by omega⟩
  have hsub : m.log2 - 52 = n := by omega
  -- The first move: `n` bits go, and what is left still tells enough of the number.
  let em := ExtendedMantissa.ofMantissaAndAccuracy m acc >>> n
  have hholds : Holds em (y / 2 ^ n) := (holds_ofMantissaAndAccuracy h).shiftRight n
  have hmantissa : em.mantissa = m / 2 ^ n := by
    have hshift := mantissa_shiftRight (.ofMantissaAndAccuracy m acc) n
    cases h <;> exact hshift
  have hbits : 2 ^ 52 ≤ m / 2 ^ n ∧ m / 2 ^ n < 2 ^ 53 := by
    obtain ⟨hle, hlt⟩ := (Nat.log2_eq_iff (show m ≠ 0 by omega)).mp hn
    rw [Nat.le_div_iff_mul_le (by positivity), Nat.div_lt_iff_lt_mul (by positivity), ← pow_add,
      ← pow_add]
    exact ⟨hle, by rwa [show 53 + n = 52 + n + 1 by omega]⟩
  have hfloor : (2 ^ 52 : ℚ) ≤ y / 2 ^ n := by
    have hnonneg := Tells.nonneg hholds
    have hle : ((2 ^ 52 : ℕ) : ℚ) ≤ em.mantissa := by exact_mod_cast hmantissa ▸ hbits.1
    push_cast at hle
    linarith
  -- The second one, which may make a bit too many.
  obtain ⟨hstay, hnearest⟩ := isNearest_roundToNearestEven hholds
  have hrounded : 2 ^ 52 ≤ em.roundedMantissa ∧ em.roundedMantissa ≤ 2 ^ 53 := by
    have hstay : em.roundedMantissa = em.mantissa ∨ em.roundedMantissa = em.mantissa + 1 := hstay
    omega
  have hfinal : 0 < em.roundedMantissa / 2 ^ (em.roundedMantissa.log2 - 52) := by
    refine Nat.div_pos ?_ (by positivity)
    exact (Nat.pow_le_pow_right two_pos (Nat.sub_le _ _)).trans (Nat.log2_self_le (by omega))
  -- The third one is exact, so its accuracy is thrown away.
  have hresult : roundWithAccuracy Format.binary64 .positive m e acc =
      .finite .positive (em.roundedMantissa / 2 ^ (em.roundedMantissa.log2 - 52))
        (e + n + (em.roundedMantissa.log2 - 52 : ℕ)) hfinal := by
    have hne : ¬ (ExtendedMantissa.ofMantissaAndAccuracy em.roundedMantissa .exact >>>
        (em.roundedMantissa.log2 - 52)).mantissa = 0 := by
      rw [mantissa_shiftRight]
      exact hfinal.ne'
    unfold roundWithAccuracy
    rw [shiftToTargetExponent_eq acc hm hlow, hsub]
    dsimp only
    rw [shiftToTargetExponent_eq .exact hrounded.1 (by omega)]
    dsimp only
    rw [dif_neg hne]
    simp only [mantissa_shiftRight]
    rfl
  have hscale : y / 2 ^ n * 2 ^ (e + n) = y * (2 : ℚ) ^ e := by
    rw [zpow_add₀ two_ne_zero, zpow_natCast]
    field_simp
  rw [hresult, rank_ofModel_pack,
    toNat_pack_carried hrounded.1 hrounded.2 (by omega) (by omega) hfinal, ← hscale]
  exact hnearest.roundsTo hrounded.1 hrounded.2 (by omega) hfloor

/-- An exact number is given the bits it lacks before it is rounded. -/
theorem roundsTo_round {m : ℕ} {e : ℤ} (hm : 0 < m) (hlow : -1074 ≤ e)
    (hsmall : -1022 ≤ m.log2 + e) (hhigh : m.log2 + e ≤ 1022) :
    RoundsTo (m * 2 ^ e)
      (rank (.ofModel (.pack (UnpackedFloat.round Format.binary64 .positive m e)))) := by
  let s := 52 - m.log2
  have htarget : (e - Format.binary64.targetExponent (totalExponent m e)).toNat = s := by
    show (e - max (((m.log2 + 1 : ℕ) + e) - 53) (-1074)).toNat = _
    omega
  have hlog : (m <<< s).log2 = m.log2 + s := by
    obtain ⟨hle, hlt⟩ := (Nat.log2_eq_iff hm.ne').mp (Eq.refl m.log2)
    rw [Nat.shiftLeft_eq, Nat.log2_eq_iff (by positivity), pow_add,
      show m.log2 + s + 1 = m.log2 + 1 + s by omega, pow_add 2 (m.log2 + 1)]
    exact ⟨Nat.mul_le_mul_right _ hle, Nat.mul_lt_mul_of_pos_right hlt (by positivity)⟩
  have hbig : 2 ^ 52 ≤ m <<< s := by
    have hne : m <<< s ≠ 0 := by
      rw [Nat.shiftLeft_eq]
      positivity
    exact (Nat.le_log2 hne).mp (by omega)
  have hround := roundsTo_roundWithAccuracy (e := e - s) hbig (.exact (sub_self _)) (by omega)
    (by omega)
  have hscale : ((m <<< s : ℕ) : ℚ) * 2 ^ (e - s) = m * 2 ^ e := by
    rw [Nat.shiftLeft_eq, zpow_sub₀ two_ne_zero, zpow_natCast]
    push_cast
    field_simp
  rw [hscale] at hround
  unfold UnpackedFloat.round decreaseExponent
  dsimp only
  rw [htarget]
  exact hround

theorem normalize_of_pos {m : ℕ} (e : ℤ) (s : Sign) (hm : 0 < m) :
    UnpackedFloat.normalize Format.binary64 m e s =
      UnpackedFloat.round Format.binary64 .positive m e := by
  have hcompare : compare (m : ℤ) 0 = .gt := by
    rw [compare_gt_iff_gt]
    omega
  unfold UnpackedFloat.normalize
  rw [hcompare]
  rfl

/-! ## The operations -/

/-- A rank well inside those of the normal doubles. -/
structure IsModerate (r : ℕ) : Prop where
  low : -60 ≤ exponentAt r
  high : exponentAt r ≤ 60

theorem unpack_of_isModerate {x : Float} (h : IsModerate (rank x)) :
    x.toModel.unpack =
      .finite .positive (significandAt (rank x)) (exponentAt (rank x)) (significandAt_pos _) := by
  obtain ⟨hlow, hhigh⟩ := h
  unfold exponentAt at hlow hhigh
  exact unpack_of_normal (b := x.toModel.toBits.toBitVec) (show 2 ^ 52 ≤ rank x by omega)
    (show rank x < 2047 * 2 ^ 52 by omega)

/-- **A whole number is rounded when it becomes a double.** -/
theorem roundsTo_ofSignificand {n : ℕ} (hpos : 0 < n) (hlt : n < 2 ^ 64) :
    RoundsTo n (rank (Json.ofSignificand n)) := by
  have hlog : n.log2 < 64 := (Nat.log2_lt hpos.ne').mpr hlt
  have hround := roundsTo_round (e := 0) hpos (by omega) (by omega) (by omega)
  have hnat : (UInt64.ofNat n).toNat = n := UInt64.toNat_ofNat_of_lt' hlt
  rw [zpow_zero, mul_one, ← normalize_of_pos 0 .positive hpos] at hround
  unfold Json.ofSignificand UInt64.toFloat Float.Model.ofUInt64 UnpackedFloat.ofUInt64
    UnpackedFloat.ofNat UnpackedFloat.ofInt
  rw [hnat]
  exact hround

/-- To decrease an exponent does not change the number. -/
theorem decreaseExponent_mul_zpow (m : ℕ) {e f : ℤ} (h : f ≤ e) :
    ((decreaseExponent m e f).1 : ℚ) * 2 ^ f = m * 2 ^ e := by
  have hexp : e = (e - f).toNat + f := by omega
  unfold decreaseExponent
  dsimp only
  rw [Nat.shiftLeft_eq]
  conv_rhs => rw [hexp, zpow_add₀ two_ne_zero, zpow_natCast]
  push_cast
  ring

theorem decreaseExponent_bounds (r : ℕ) {e f : ℤ} (h : e - f ≤ 120) :
    2 ^ 52 ≤ (decreaseExponent (significandAt r) e f).1 ∧
      (decreaseExponent (significandAt r) e f).1 < 2 ^ 173 := by
  have hshift : (e - f).toNat ≤ 120 := by omega
  unfold decreaseExponent
  dsimp only
  refine ⟨(le_significandAt r).trans Nat.le_shiftLeft, ?_⟩
  calc significandAt r <<< (e - f).toNat = significandAt r * 2 ^ (e - f).toNat :=
        Nat.shiftLeft_eq _ _
    _ < 2 ^ 53 * 2 ^ (e - f).toNat :=
        Nat.mul_lt_mul_of_pos_right (significandAt_lt r) (by positivity)
    _ ≤ 2 ^ 53 * 2 ^ 120 := Nat.mul_le_mul_left _ (Nat.pow_le_pow_right two_pos hshift)
    _ = 2 ^ 173 := by norm_num

/-- **A sum is rounded.** -/
theorem roundsTo_add {x y : Float} (hx : IsModerate (rank x)) (hy : IsModerate (rank y)) :
    RoundsTo (valueAt (rank x) + valueAt (rank y)) (rank (x + y)) := by
  obtain ⟨hxlow, hxhigh⟩ := hx
  obtain ⟨hylow, hyhigh⟩ := hy
  generalize he : min (exponentAt (rank x)) (exponentAt (rank y)) = e
  have hadd : x + y = .ofModel (.pack (UnpackedFloat.normalize Format.binary64
      ((decreaseExponent (significandAt (rank x)) (exponentAt (rank x)) e).1 +
        (decreaseExponent (significandAt (rank y)) (exponentAt (rank y)) e).1 : ℕ) e
      .positive)) := by
    show Float.ofModel (.pack (UnpackedFloat.add _ x.toModel.unpack y.toModel.unpack)) = _
    rw [unpack_of_isModerate ⟨hxlow, hxhigh⟩, unpack_of_isModerate ⟨hylow, hyhigh⟩]
    unfold UnpackedFloat.add
    dsimp only
    rw [he]
    rfl
  have hxm := decreaseExponent_bounds (rank x) (e := exponentAt (rank x)) (f := e) (by omega)
  have hym := decreaseExponent_bounds (rank y) (e := exponentAt (rank y)) (f := e) (by omega)
  have hxv := decreaseExponent_mul_zpow (significandAt (rank x))
    (show e ≤ exponentAt (rank x) by omega)
  have hyv := decreaseExponent_mul_zpow (significandAt (rank y))
    (show e ≤ exponentAt (rank y) by omega)
  rw [hadd, valueAt, valueAt, ← hxv, ← hyv, ← add_mul, ← Nat.cast_add]
  generalize (decreaseExponent (significandAt (rank x)) (exponentAt (rank x)) e).1 = m at hxm ⊢
  generalize (decreaseExponent (significandAt (rank y)) (exponentAt (rank y)) e).1 = n at hym ⊢
  have hlow : 52 ≤ (m + n).log2 := (Nat.le_log2 (by omega)).mpr (by omega)
  have hhigh : (m + n).log2 < 174 := (Nat.log2_lt (by omega)).mpr (by omega)
  rw [normalize_of_pos e .positive (by omega)]
  exact roundsTo_round (by omega) (by omega) (by omega) (by omega)

/-- The remainder of a division tells where the quotient lies. -/
theorem tells_accuracyOfFraction {n d : ℕ} (hd : 0 < d) :
    Tells ((n : ℚ) / d - (n / d : ℕ)) (accuracyOfFraction (n % d) d) := by
  have hdpos : (0 : ℚ) < d := by exact_mod_cast hd
  have hsplit : (n : ℚ) / d - (n / d : ℕ) = (n % d : ℕ) / d := by
    have hdiv : (n : ℚ) = d * (n / d : ℕ) + (n % d : ℕ) := by
      exact_mod_cast (Nat.div_add_mod n d).symm
    rw [eq_div_iff hdpos.ne', sub_mul, div_mul_cancel₀ _ hdpos.ne']
    linarith
  rw [hsplit]
  unfold accuracyOfFraction
  split
  · rename_i hzero
    refine .exact ?_
    rw [hzero]
    simp
  · rename_i hne
    have hpos : (0 : ℚ) < (n % d : ℕ) := by exact_mod_cast Nat.pos_of_ne_zero hne
    cases hcompare : compare (2 * (n % d)) d with
    | lt =>
      have hlt : (2 : ℚ) * (n % d : ℕ) < d := by exact_mod_cast compare_lt_iff_lt.mp hcompare
      refine .below (div_pos hpos hdpos) ?_
      rw [div_lt_div_iff₀ hdpos two_pos]
      linarith
    | eq =>
      have heq : (2 : ℚ) * (n % d : ℕ) = d := by exact_mod_cast compare_eq_iff_eq.mp hcompare
      refine .midway ?_
      rw [div_eq_div_iff hdpos.ne' two_ne_zero]
      linarith
    | gt =>
      have hgt : (d : ℚ) < 2 * (n % d : ℕ) := by exact_mod_cast compare_gt_iff_gt.mp hcompare
      refine .above ?_ ((div_lt_one hdpos).mpr (by exact_mod_cast Nat.mod_lt n hd))
      rw [div_lt_div_iff₀ two_pos hdpos]
      linarith

theorem log2_significandAt (r : ℕ) : (significandAt r).log2 = 52 :=
  (Nat.log2_eq_iff (significandAt_pos r).ne').mpr ⟨le_significandAt r, significandAt_lt r⟩

/-- A quotient of two significands is computed with fifty-three bits to spare. -/
theorem divCore_eq {m d : ℕ} {e f : ℤ} (hm : m.log2 = 52) (hd : d.log2 = 52)
    (hef : -1021 ≤ e - f) :
    divCore Format.binary64 m e d f =
      (m <<< 53 / d, e - f - 53, accuracyOfFraction (m <<< 53 % d) d) := by
  have htarget : min (e - f) (Format.binary64.targetExponent
      (totalExponent m e - totalExponent d f)) = e - f - 53 := by
    unfold totalExponent
    rw [hm, hd]
    show min _ (max (_ - 53) (-1074)) = _
    omega
  have hshift : (e - f - (e - f - 53)).toNat = 53 := by omega
  unfold divCore
  dsimp only
  rw [htarget, hshift]

/-- **A quotient is rounded.** -/
theorem roundsTo_div {x y : Float} (hx : IsModerate (rank x)) (hy : IsModerate (rank y)) :
    RoundsTo (valueAt (rank x) / valueAt (rank y)) (rank (x / y)) := by
  obtain ⟨hxlow, hxhigh⟩ := hx
  obtain ⟨hylow, hyhigh⟩ := hy
  have hdiv : x / y = .ofModel (.pack (roundWithAccuracy Format.binary64 .positive
      (significandAt (rank x) <<< 53 / significandAt (rank y))
      (exponentAt (rank x) - exponentAt (rank y) - 53)
      (accuracyOfFraction (significandAt (rank x) <<< 53 % significandAt (rank y))
        (significandAt (rank y))))) := by
    show Float.ofModel (.pack (UnpackedFloat.div _ x.toModel.unpack y.toModel.unpack)) = _
    rw [unpack_of_isModerate ⟨hxlow, hxhigh⟩, unpack_of_isModerate ⟨hylow, hyhigh⟩]
    unfold UnpackedFloat.div
    dsimp only
    rw [divCore_eq (log2_significandAt _) (log2_significandAt _) (by omega),
      show Sign.positive / Sign.positive = Sign.positive from rfl]
  have hm := le_significandAt (rank x)
  have hm' := significandAt_lt (rank x)
  have hd := le_significandAt (rank y)
  have hd' := significandAt_lt (rank y)
  rw [hdiv, valueAt, valueAt]
  generalize significandAt (rank x) = m at hm hm' ⊢
  generalize significandAt (rank y) = d at hd hd' ⊢
  generalize exponentAt (rank x) = e at hxlow hxhigh ⊢
  generalize exponentAt (rank y) = f at hylow hyhigh ⊢
  have hquot : 2 ^ 52 ≤ m <<< 53 / d ∧ m <<< 53 / d < 2 ^ 54 := by
    rw [Nat.le_div_iff_mul_le (by omega), Nat.div_lt_iff_lt_mul (by omega), Nat.shiftLeft_eq]
    omega
  have hlog : (m <<< 53 / d).log2 < 54 := (Nat.log2_lt (by omega)).mpr hquot.2
  have hvalue : ((m <<< 53 : ℕ) : ℚ) / d * 2 ^ (e - f - 53) = m * 2 ^ e / (d * 2 ^ f) := by
    have hne : (d : ℚ) ≠ 0 := by exact_mod_cast (show d ≠ 0 by omega)
    rw [Nat.shiftLeft_eq, zpow_sub₀ two_ne_zero, zpow_sub₀ two_ne_zero,
      show (53 : ℤ) = (53 : ℕ) from rfl, zpow_natCast, Nat.cast_mul, Nat.cast_pow, Nat.cast_two]
    field_simp
  rw [← hvalue]
  exact roundsTo_roundWithAccuracy hquot.1 (tells_accuracyOfFraction (by omega)) (by omega)
    (by omega)

end TriggerFlow.Decimal
