import Mathlib
import RegionDrawing.Binary64.Scalar
import RegionDrawing.Proofs.Binary64.Rounding

/-! # Reading decimals

A decimal in the rounding interval of a machine number is read as that number.
-/
namespace RegionDrawing

def Decimal.value (d : Decimal) : ℚ := d.digits * 10 ^ d.exponent

namespace Binary64

open Float.Model UnpackedFloat

def Magnitude.value (m : Magnitude) : ℚ := m.significand * 2 ^ m.exponent

variable {m : Magnitude}

/-- What is less than a quarter of the last bit away is near. -/
theorem Magnitude.Canonical.nears_of_abs_sub_lt (hm : m.Canonical) {v : ℚ}
    (h : 4 * |v - m.value| < 2 ^ m.exponent) : m.Nears v := by
  have hpos : (0 : ℚ) < 2 ^ m.exponent := by positivity
  have hunits : 4 * |v / 2 ^ m.exponent - m.significand| < 1 := by
    have hdistance : v / 2 ^ m.exponent - m.significand = (v - m.value) / 2 ^ m.exponent := by
      rw [value]
      field_simp
    rwa [hdistance, abs_div, abs_of_pos hpos, ← mul_div_assoc, div_lt_one hpos]
  have hlower : m.roundingInterval.lower + 1 ≤ 4 * m.significand := by
    have hsignificand := hm.pos
    rw [m.lower_roundingInterval]
    split <;> omega
  have hlower' : (m.roundingInterval.lower + 1 : ℚ) ≤ 4 * m.significand := by
    exact_mod_cast hlower
  have hupper : (m.roundingInterval.upper : ℚ) = 4 * m.significand + 2 := by
    rw [m.upper_roundingInterval]
    push_cast
    rfl
  rw [← abs_of_pos (by norm_num : (0 : ℚ) < 4), ← abs_mul, abs_lt] at hunits
  have hbounds : (m.roundingInterval.lower : ℚ) < 4 * (v / 2 ^ m.exponent) ∧
      4 * (v / 2 ^ m.exponent) < m.roundingInterval.upper := by
    constructor <;> linarith
  unfold Nears RoundingInterval.Contains
  split
  · exact ⟨hbounds.1.le, hbounds.2.le⟩
  · exact hbounds

theorem Magnitude.Canonical.nears_value (hm : m.Canonical) : m.Nears m.value := by
  apply hm.nears_of_abs_sub_lt
  rw [sub_self, abs_zero, mul_zero]
  positivity

theorem div_ofParts {a b : Magnitude} (ha : a.Canonical) (hb : b.Canonical) (hm : m.Canonical)
    (h : m.Nears (a.value / b.value)) :
    ofParts .positive a ha / ofParts .positive b hb = ofParts .positive m hm := by
  change Float.ofModel (Float.Model.pack (UnpackedFloat.div Format.binary64
    (Float.Model.pack (.finite .positive a.significand a.exponent ha.pos)).unpack
    (Float.Model.pack (.finite .positive b.significand b.exponent hb.pos)).unpack)) = _
  rw [unpack_pack ha, unpack_pack hb, hm.div_eq ha.pos hb.pos h]
  rfl

theorem mul_ofParts {a b : Magnitude} (ha : a.Canonical) (hb : b.Canonical) (hm : m.Canonical)
    (hlong : 2 ^ 52 ≤ a.significand) (h : m.Nears (a.value * b.value)) :
    ofParts .positive a ha * ofParts .positive b hb = ofParts .positive m hm := by
  change Float.ofModel (Float.Model.pack (UnpackedFloat.mul Format.binary64
    (Float.Model.pack (.finite .positive a.significand a.exponent ha.pos)).unpack
    (Float.Model.pack (.finite .positive b.significand b.exponent hb.pos)).unpack)) = _
  have hproduct : 2 ^ 52 ≤ a.significand * b.significand :=
    hlong.trans (Nat.le_mul_of_pos_right _ hb.pos)
  rw [unpack_pack ha, unpack_pack hb, hm.mul_eq ha.pos hb.pos hproduct h]
  rfl

/-- A whole number of at most 53 bits. -/
def Magnitude.ofNat (n : Nat) : Magnitude := ⟨n <<< (52 - n.log2), (n.log2 : Int) - 52⟩

theorem Magnitude.le_significand_ofNat {n : Nat} (hpos : 0 < n) (hlt : n < 2 ^ 53) :
    2 ^ 52 ≤ (ofNat n).significand := by
  have hlog : n.log2 < 53 := (Nat.log2_lt hpos.ne').mpr hlt
  calc 2 ^ 52 = 2 ^ n.log2 * 2 ^ (52 - n.log2) := by rw [← pow_add]; congr 1; omega
    _ ≤ n * 2 ^ (52 - n.log2) := Nat.mul_le_mul_right _ (Nat.log2_self_le hpos.ne')
    _ = (ofNat n).significand := by rw [ofNat, Nat.shiftLeft_eq]

theorem Magnitude.canonical_ofNat {n : Nat} (hpos : 0 < n) (hlt : n < 2 ^ 53) :
    (ofNat n).Canonical := by
  have hlog : n.log2 < 53 := (Nat.log2_lt hpos.ne').mpr hlt
  have hle := le_significand_ofNat hpos hlt
  have hsignificand : (ofNat n).significand < 2 ^ 53 := by
    calc (ofNat n).significand = n * 2 ^ (52 - n.log2) := by rw [ofNat, Nat.shiftLeft_eq]
      _ < 2 ^ (n.log2 + 1) * 2 ^ (52 - n.log2) :=
        Nat.mul_lt_mul_of_pos_right Nat.lt_log2_self (by positivity)
      _ = 2 ^ 53 := by rw [← pow_add]; congr 1; omega
  refine ⟨by omega, hsignificand, ?_, ?_, .inl hle⟩
  · dsimp only [ofNat]
    omega
  · dsimp only [ofNat]
    omega

theorem Magnitude.value_ofNat {n : Nat} (hlt : n < 2 ^ 53) (hpos : 0 < n) :
    (ofNat n).value = n := by
  have hlog : n.log2 < 53 := (Nat.log2_lt hpos.ne').mpr hlt
  have hpower : (2 : ℚ) ^ ((52 - n.log2 : Nat) : Int) * 2 ^ ((n.log2 : Int) - 52) = 1 := by
    rw [← zpow_add₀ (by norm_num), ← zpow_zero (2 : ℚ)]
    congr 1
    omega
  rw [value, ofNat, Nat.shiftLeft_eq, Nat.cast_mul, Nat.cast_pow, Nat.cast_ofNat, mul_assoc,
    ← zpow_natCast, hpower, mul_one]

theorem Magnitude.Canonical.round_eq (hm : m.Canonical) (sign : Sign) {n : Nat} {e : Int}
    (hpos : 0 < n) (h : m.Nears (n * 2 ^ e)) :
    UnpackedFloat.round Format.binary64 sign n e =
      .finite sign m.significand m.exponent hm.pos := by
  have hexponent : (n.log2 : Int) + e < m.exponent + 53 := by
    apply hm.lt_of_zpow_le h
    rw [zpow_add₀ (by norm_num), zpow_natCast]
    gcongr
    exact_mod_cast Nat.log2_self_le hpos.ne'
  have hleast := hm.least
  unfold UnpackedFloat.round decreaseExponent
  dsimp only
  generalize hshift :
    (e - Format.binary64.targetExponent (totalExponent n e)).toNat = shift
  rw [targetExponent_eq] at hshift
  have hexact : ExtendedMantissa.ofMantissaAndAccuracy (n <<< shift / 1) .exact =
      ofRatio (n <<< shift) 1 := by rw [Nat.div_one, ofRatio_eq_exact]
  have hvalue : (((n <<< shift : Nat) : ℚ) / (1 : Nat) * 2 ^ (e - shift)) = n * 2 ^ e := by
    rw [Nat.shiftLeft_eq, zpow_sub₀ (by norm_num), zpow_natCast]
    push_cast
    field_simp
  have hround := hm.roundWithAccuracy_of_nears sign Nat.one_pos hexact (e := e - shift)
    (by rw [Nat.div_one, targetExponent_eq, log2_shiftLeft hpos]; omega) (by omega)
    (by rwa [hvalue])
  rwa [Nat.div_one] at hround

theorem round_natCast {n : Nat} (hpos : 0 < n) (hlt : n < 2 ^ 53) :
    UnpackedFloat.round Format.binary64 .positive n 0 =
      .finite .positive (Magnitude.ofNat n).significand (Magnitude.ofNat n).exponent
        (Magnitude.canonical_ofNat hpos hlt).pos := by
  have hm := Magnitude.canonical_ofNat hpos hlt
  have hnears := hm.nears_value
  rw [Magnitude.value_ofNat hlt hpos] at hnears
  exact hm.round_eq .positive hpos (by rwa [zpow_zero, mul_one])

theorem toFloat_eq {n : Nat} (hpos : 0 < n) (hlt : n < 2 ^ 53) :
    n.toUInt64.toFloat =
      ofParts .positive (Magnitude.ofNat n) (Magnitude.canonical_ofNat hpos hlt) := by
  have hn : n.toUInt64.toNat = n := by
    rw [UInt64.toNat_ofNat']
    omega
  have hnormalize : UnpackedFloat.normalize Format.binary64 (n.toUInt64.toNat : Int) 0 .positive =
      .finite .positive (Magnitude.ofNat n).significand (Magnitude.ofNat n).exponent
        (Magnitude.canonical_ofNat hpos hlt).pos := by
    have hsign : compare (n : Int) 0 = .gt := compare_gt_iff_gt.mpr (by omega)
    simp only [UnpackedFloat.normalize, hn, hsign, Int.toNat_natCast, round_natCast hpos hlt]
  exact congrArg (fun u => Float.ofModel (Float.Model.pack u)) hnormalize

theorem zpow_mul_pow_toNat {b : ℚ} (hb : b ≠ 0) (n : Int) :
    b ^ n * b ^ (-n).toNat = b ^ n.toNat := by
  rw [← zpow_natCast, ← zpow_natCast, ← zpow_add₀ hb]
  congr 1
  omega

theorem zpow_le_zpow_left_of_nonpos {a b : ℚ} {n : Int} (hn : n ≤ 0) (ha : 0 < a) (hab : a ≤ b) :
    b ^ n ≤ a ^ n := by
  have hle : a ^ (-n) ≤ b ^ (-n) := zpow_le_zpow_left₀ (by omega) ha.le hab
  have hb : 0 < b := ha.trans_le hab
  rw [zpow_neg, zpow_neg] at hle
  exact (inv_le_inv₀ (by positivity) (by positivity)).mp hle

theorem zpow_of_nonneg {b : ℚ} {n : Int} (h : 0 ≤ n) : b ^ n = b ^ n.natAbs := by
  rw [← zpow_natCast, Int.natAbs_of_nonneg h]

theorem zpow_of_neg {b : ℚ} {n : Int} (h : n < 0) : b ^ n = (b ^ n.natAbs)⁻¹ := by
  rw [← zpow_natCast, ← zpow_neg, Int.ofNat_natAbs_of_nonpos h.le, neg_neg]

theorem powerOfTen_bits : ∀ i : Fin Float.exactlyRepresentablePowersOfTen.size,
    let x := Float.exactlyRepresentablePowersOfTen[i]
    let p := Magnitude.ofFloat x
    Magnitude.isNegative x = false ∧ 0 < Magnitude.unsignedBits x ∧
      Magnitude.unsignedBits x < 2047 * 2 ^ 52 ∧
      p.significand * 2 ^ p.exponent.toNat = 10 ^ i.val * 2 ^ (-p.exponent).toNat := by
  decide +kernel

theorem powerOfTen_eq {k : Nat} (hk : k < Float.exactlyRepresentablePowersOfTen.size) :
    ∃ (p : Magnitude) (hp : p.Canonical),
      Float.exactlyRepresentablePowersOfTen[k] = ofParts .positive p hp ∧ p.value = 10 ^ k := by
  obtain ⟨hsign, hpos, hlt, hvalue⟩ := powerOfTen_bits ⟨k, hk⟩
  refine ⟨_, Magnitude.canonical_ofBits hpos hlt, ?_, ?_⟩
  · have hparts := eq_ofParts hpos hlt
    simp only [signOf, hsign] at hparts
    exact hparts
  · change (Magnitude.ofFloat Float.exactlyRepresentablePowersOfTen[k]).value = 10 ^ k
    simp only [Fin.getElem_fin] at hvalue
    generalize Magnitude.ofFloat Float.exactlyRepresentablePowersOfTen[k] = p at *
    have hpower := zpow_mul_pow_toNat (b := 2) (by norm_num) p.exponent
    have hunits : (2 : ℚ) ^ (-p.exponent).toNat ≠ 0 := by positivity
    apply mul_right_cancel₀ hunits
    rw [Magnitude.value, mul_assoc, hpower]
    exact_mod_cast hvalue

theorem exponent_le_of_nears (hm : m.Canonical) {digits : Nat} (hpos : 0 < digits) {e : Int}
    (h : m.Nears (digits * 10 ^ e)) : e ≤ 2048 := by
  by_contra hgt
  have hgreatest := hm.greatest
  have hdigits : (1 : ℚ) ≤ digits := by exact_mod_cast hpos
  have hpower : (2 : ℚ) ^ e ≤ digits * 10 ^ e := by
    calc (2 : ℚ) ^ e ≤ 10 ^ e := zpow_le_zpow_left₀ (by omega) (by norm_num) (by norm_num)
      _ ≤ digits * 10 ^ e := le_mul_of_one_le_left (by positivity) hdigits
  have hexponent := hm.lt_of_zpow_le h hpower
  omega

theorem le_exponent_of_nears (hm : m.Canonical) {digits : Nat} {e : Int}
    (h : m.Nears (digits * 10 ^ e)) : -(2048 + (digits.log2 : Int)) ≤ e := by
  by_contra hlt
  have hleast := hm.least
  have hlog : (digits : ℚ) < 2 ^ (digits.log2 + 1) := by exact_mod_cast Nat.lt_log2_self
  have hten : (10 : ℚ) ^ e ≤ 2 ^ e :=
    zpow_le_zpow_left_of_nonpos (by omega) (by norm_num) (by norm_num)
  have hpower : (digits * 10 ^ e : ℚ) < 2 ^ ((digits.log2 + 1 : Nat) + e) := by
    calc (digits * 10 ^ e : ℚ) ≤ digits * 2 ^ e := mul_le_mul_of_nonneg_left hten (by positivity)
      _ < 2 ^ (digits.log2 + 1) * 2 ^ e := mul_lt_mul_of_pos_right hlog (by positivity)
      _ = 2 ^ ((digits.log2 + 1 : Nat) + e) := by rw [zpow_add₀ (by norm_num), zpow_natCast]
  have hexponent := hm.le_of_lt_zpow h hpower
  omega

theorem unpacked_ofScientific (hm : m.Canonical) {digits : Nat} (hpos : 0 < digits) {e : Int}
    (h : m.Nears (digits * 10 ^ e)) :
    UnpackedFloat.ofScientific Format.binary64 digits e =
      .finite .positive m.significand m.exponent hm.pos := by
  have hless := exponent_le_of_nears hm hpos h
  have hmore := le_exponent_of_nears hm h
  have hbits : Format.binary64.mantissaBits = 53 := by decide
  have hrange : (2 ^ Format.binary64.exponentBits : Int) = 2048 := by decide
  unfold UnpackedFloat.ofScientific
  rw [dif_neg hpos.ne', hrange, if_neg (not_lt.mpr hless), if_neg (not_lt.mpr hmore)]
  split
  · next he =>
    refine hm.mul_eq _ _ ?_ ?_
    · have hshift : digits <<< Format.binary64.mantissaBits = digits * 2 ^ 53 := by
        rw [hbits, Nat.shiftLeft_eq]
      have hten : 0 < 10 ^ e.toNat := by positivity
      rw [hshift]
      nlinarith
    · have hvalue : ((digits <<< Format.binary64.mantissaBits : Nat) : ℚ) *
          2 ^ (-(Format.binary64.mantissaBits : Int)) * ((10 ^ e.toNat : Nat) * 2 ^ (0 : Int)) =
            digits * 10 ^ e := by
        have hexponent : e.toNat = e.natAbs := by omega
        have hunits : ((2 ^ 53 : Nat) : ℚ) * 2 ^ (-((53 : Nat) : Int)) = 1 := by norm_num
        rw [hbits, Nat.shiftLeft_eq, zpow_of_nonneg he, hexponent, Nat.cast_mul,
          mul_assoc (digits : ℚ), hunits, mul_one, zpow_zero, mul_one, Nat.cast_pow]
        rfl
      rw [hvalue]
      exact h
  · next he =>
    have hvalue : (digits * 2 ^ (0 : Int) / ((10 ^ (-e).toNat : Nat) * 2 ^ (0 : Int)) : ℚ) =
        digits * 10 ^ e := by
      have hexponent : (-e).toNat = e.natAbs := by omega
      rw [zpow_of_neg (not_le.mp he), hexponent]
      push_cast
      rw [mul_one, mul_one, div_eq_mul_inv]
    apply hm.div_eq _ _
    rw [hvalue]
    exact h

theorem ofScientific_eq (hm : m.Canonical) {digits : Nat} (hpos : 0 < digits) {e : Int}
    (h : m.Nears (digits * 10 ^ e)) :
    Float.ofScientific digits (e < 0) e.natAbs = ofParts .positive m hm := by
  unfold Float.ofScientific
  split
  · next hfast =>
    have hsize : Float.exactlyRepresentablePowersOfTen.size = 23 := by decide
    have hlisted : e.natAbs < Float.exactlyRepresentablePowersOfTen.size := by omega
    obtain ⟨p, hp, hpower, hvalue⟩ := powerOfTen_eq hlisted
    rw [toFloat_eq hpos hfast.1, hpower]
    split
    · next he =>
      apply div_ofParts _ hp hm
      rw [Magnitude.value_ofNat hfast.1 hpos, hvalue, div_eq_mul_inv,
        ← zpow_of_neg (of_decide_eq_true he)]
      exact h
    · next he =>
      apply mul_ofParts _ hp hm (Magnitude.le_significand_ofNat hpos hfast.1)
      rw [Magnitude.value_ofNat hfast.1 hpos, hvalue,
        ← zpow_of_nonneg (not_lt.mp fun hneg => he (decide_eq_true hneg))]
      exact h
  · have he : (if (decide (e < 0) : Bool) then Int.negOfNat e.natAbs else Int.ofNat e.natAbs) =
        e := by
      by_cases hneg : e < 0
      · rw [decide_eq_true hneg, if_pos rfl, Int.negOfNat_eq, Int.ofNat_eq_natCast]
        omega
      · rw [decide_eq_false hneg, if_neg Bool.false_ne_true, Int.ofNat_eq_natCast]
        omega
    simp only [he]
    exact congrArg (fun u => Float.ofModel (Float.Model.pack u)) (unpacked_ofScientific hm hpos h)

/-- The estimate is so little above `59 / 196` that one more bit makes up for it. -/
theorem pow_estimate_le {n : Nat} (hn : n ≤ 20000) : 10 ^ (n * 30103 / 100000) ≤ 2 ^ (n + 1) := by
  have hten : (10 : Nat) ^ 59 ≤ 2 ^ 196 := by norm_num
  apply (Nat.pow_le_pow_iff_left (n := 59) (by norm_num)).mp
  calc (10 ^ (n * 30103 / 100000)) ^ 59 = (10 ^ 59) ^ (n * 30103 / 100000) := by
        rw [← pow_mul, ← pow_mul, mul_comm]
    _ ≤ (2 ^ 196) ^ (n * 30103 / 100000) := Nat.pow_le_pow_left hten _
    _ = 2 ^ (196 * (n * 30103 / 100000)) := by rw [← pow_mul]
    _ ≤ 2 ^ ((n + 1) * 59) := Nat.pow_le_pow_right (by norm_num) (by omega)
    _ = (2 ^ (n + 1)) ^ 59 := by rw [← pow_mul]

theorem le_pow_estimate {n : Nat} (hn : n ≤ 20000) :
    2 ^ n ≤ 10 ^ (n * 30103 / 100000 + 2) := by
  have hten : (2 : Nat) ^ 93 ≤ 10 ^ 28 := by norm_num
  apply (Nat.pow_le_pow_iff_left (n := 28) (by norm_num)).mp
  calc (2 ^ n) ^ 28 = 2 ^ (n * 28) := by rw [← pow_mul]
    _ ≤ 2 ^ (93 * (n * 30103 / 100000 + 2)) := Nat.pow_le_pow_right (by norm_num) (by omega)
    _ = (2 ^ 93) ^ (n * 30103 / 100000 + 2) := by rw [← pow_mul]
    _ ≤ (10 ^ 28) ^ (n * 30103 / 100000 + 2) := Nat.pow_le_pow_left hten _
    _ = (10 ^ (n * 30103 / 100000 + 2)) ^ 28 := by rw [← pow_mul, ← pow_mul, mul_comm]

theorem log2_digits_le (hm : m.Canonical) {digits : Nat} (hpos : 0 < digits) {e : Int}
    (he : -4000 ≤ e) (h : m.Nears (digits * 10 ^ e)) : digits.log2 ≤ 20000 := by
  have hgreatest := hm.greatest
  have hdigits : (2 : ℚ) ^ digits.log2 ≤ digits := by exact_mod_cast Nat.log2_self_le hpos.ne'
  have hpower : (2 : ℚ) ^ ((digits.log2 : Int) + 4 * min e 0) ≤ digits * 10 ^ e := by
    have hten : (2 : ℚ) ^ (4 * min e 0) ≤ 10 ^ e := by
      rcases le_total 0 e with hnonneg | hnonpos
      · rw [min_eq_right hnonneg, mul_zero, zpow_zero]
        exact one_le_zpow₀ (by norm_num) hnonneg
      · rw [min_eq_left hnonpos, zpow_mul]
        exact zpow_le_zpow_left_of_nonpos hnonpos (by norm_num) (by norm_num)
    calc (2 : ℚ) ^ ((digits.log2 : Int) + 4 * min e 0)
        = 2 ^ digits.log2 * 2 ^ (4 * min e 0) := by rw [zpow_add₀ (by norm_num), zpow_natCast]
      _ ≤ digits * 10 ^ e := by gcongr
  have hexponent := hm.lt_of_zpow_le h hpower
  omega

theorem le_leading (hm : m.Canonical) {digits : Nat} {e : Int} {p : Nat}
    (hp : 2 ^ digits.log2 ≤ 10 ^ (p + 2)) (h : m.Nears (digits * 10 ^ e)) : -340 ≤ e + p := by
  by_contra hlt
  have hleast := hm.least
  have hdigits : (digits : ℚ) ≤ 2 * 10 ^ (p + 2) := by
    have hless : digits ≤ 2 * 10 ^ (p + 2) := by
      have hbits : digits < 2 ^ (digits.log2 + 1) := Nat.lt_log2_self
      rw [pow_succ] at hbits
      omega
    exact_mod_cast hless
  have hnear : (2 : ℚ) ^ (-1075 : Int) ≤ 10 ^ (-338 : Int) / 5 := by
    calc (2 : ℚ) ^ (-1075 : Int) ≤ 2 ^ (m.exponent - 1) :=
          zpow_le_zpow_right₀ (by norm_num) (by omega)
      _ ≤ digits * 10 ^ e := hm.le_of_nears h
      _ ≤ 2 * 10 ^ (p + 2) * 10 ^ e := mul_le_mul_of_nonneg_right hdigits (by positivity)
      _ = 10 ^ ((p : Int) + 3 + e) / 5 := by
        rw [zpow_add₀ (by norm_num), zpow_add₀ (by norm_num), zpow_natCast]
        norm_num
        ring
      _ ≤ 10 ^ (-338 : Int) / 5 := by
        gcongr
        · norm_num
        · omega
  have hnat : (2 : ℚ) ^ 1075 ≤ 10 ^ 338 := by
    have hle : 2 ^ 1075 ≤ 10 ^ 338 := by decide +kernel
    exact_mod_cast hle
  have hinv : (10 : ℚ) ^ (-338 : Int) ≤ 2 ^ (-1075 : Int) := by
    rw [zpow_neg, zpow_neg]
    exact inv_anti₀ (by positivity) (by exact_mod_cast hnat)
  have hunit : (0 : ℚ) < 2 ^ (-1075 : Int) := by positivity
  linarith

theorem leading_le (hm : m.Canonical) {digits : Nat} (hpos : 0 < digits) {e : Int} {p : Nat}
    (hp : 10 ^ p ≤ 2 ^ (digits.log2 + 1)) (h : m.Nears (digits * 10 ^ e)) : e + p ≤ 320 := by
  by_contra hlt
  have hgreatest := hm.greatest
  have hdigits : (10 : ℚ) ^ p ≤ 2 * digits := by
    have hle : 10 ^ p ≤ 2 * digits := by
      have hbits := Nat.log2_self_le hpos.ne'
      rw [pow_succ] at hp
      omega
    exact_mod_cast hle
  have hfar : (10 : ℚ) ^ (321 : Int) < 2 ^ (1025 : Int) := by
    calc (10 : ℚ) ^ (321 : Int) ≤ 10 ^ (e + p) := zpow_le_zpow_right₀ (by norm_num) (by omega)
      _ = 10 ^ e * 10 ^ p := by rw [zpow_add₀ (by norm_num), zpow_natCast]
      _ ≤ 10 ^ e * (2 * digits) := mul_le_mul_of_nonneg_left hdigits (by positivity)
      _ = 2 * (digits * 10 ^ e) := by ring
      _ < 2 * 2 ^ (m.exponent + 53) := by linarith [hm.lt_of_nears h]
      _ = 2 ^ (m.exponent + 53 + 1) := by rw [zpow_add_one₀ (by norm_num), mul_comm]
      _ ≤ 2 ^ (1025 : Int) := zpow_le_zpow_right₀ (by norm_num) (by omega)
  have hle : 2 ^ 1025 ≤ 10 ^ 321 := by decide +kernel
  have hnat : (2 : ℚ) ^ (1025 : Int) ≤ 10 ^ (321 : Int) := by exact_mod_cast hle
  exact absurd hfar (not_lt.mpr hnat)

theorem leading_bounds (hm : m.Canonical) {digits : Nat} (hpos : 0 < digits) {e : Int}
    (he : -4000 ≤ e) (h : m.Nears (digits * 10 ^ e)) :
    -340 ≤ e + (digits.log2 : Int) * 30103 / 100000 ∧
      e + (digits.log2 : Int) * 30103 / 100000 ≤ 320 := by
  have hlog := log2_digits_le hm hpos he h
  have hestimate : (digits.log2 : Int) * 30103 / 100000 = (digits.log2 * 30103 / 100000 : Nat) := by
    norm_cast
  rw [hestimate]
  exact ⟨le_leading hm (le_pow_estimate hlog) h, leading_le hm hpos (pow_estimate_le hlog) h⟩

/-- A decimal in the interval of a machine number is read as that number. -/
theorem ofDecimal?_eq_some {x : Float} (hfinite : x.isFinite) {d : Decimal}
    (hsign : d.negative = Magnitude.isNegative x) (he : -4000 ≤ d.exponent)
    (hpos : 0 < d.digits) (hbits : 0 < Magnitude.unsignedBits x)
    (h : (Magnitude.ofFloat x).Nears d.value) : ofDecimal? d = some x := by
  have hlt := unsignedBits_lt hfinite
  have hm : (Magnitude.ofFloat x).Canonical := Magnitude.canonical_ofBits hbits hlt
  obtain ⟨hleast, hgreatest⟩ := leading_bounds hm hpos he h
  have hsmall : ¬ (d.digits = 0 ∨ d.exponent + (d.digits.log2 : Int) * 30103 / 100000 < -340) := by
    omega
  have hread : Float.ofScientific d.digits (d.exponent < 0) d.exponent.natAbs =
      ofParts .positive _ hm := ofScientific_eq hm hpos h
  have hx : x = if d.negative then -ofParts .positive _ hm else ofParts .positive _ hm := by
    rw [hsign, neg_ofParts]
    apply (eq_ofParts hbits hlt).trans
    unfold signOf
    split <;> rfl
  unfold ofDecimal?
  dsimp only
  rw [if_neg hsmall, if_neg (not_lt.mpr hgreatest), hread,
    if_pos (isFinite_ofParts .positive hm), ← hx]

end Binary64

end RegionDrawing
