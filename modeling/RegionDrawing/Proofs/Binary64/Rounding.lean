import Mathlib
import RegionDrawing.Binary64.Shortest
import RegionDrawing.Proofs.Binary64.Bits

/-! # Rounding

Every ratio in the rounding interval of a machine number is rounded to that number, also as a
product or a quotient. A ratio is followed by its whole part and its first bits only, which is all
that rounding sees of it.
-/
namespace RegionDrawing.Binary64

open Float.Model UnpackedFloat

/-- The whole part of a ratio with the first bit behind it and whether anything follows. -/
def ofRatio (num den : Nat) : ExtendedMantissa :=
  ⟨num / den, den ≤ 2 * (num % den), 2 * (num % den) % den ≠ 0⟩

variable {num den : Nat}

theorem ofRatio_eq_exact (n : Nat) :
    ExtendedMantissa.ofMantissaAndAccuracy n .exact = ofRatio n 1 := by
  simp [ofRatio, ExtendedMantissa.ofMantissaAndAccuracy, Nat.mod_one]

theorem ofRatio_eq_ofFraction (hden : 0 < den) :
    ExtendedMantissa.ofMantissaAndAccuracy (num / den) (accuracyOfFraction (num % den) den) =
      ofRatio num den := by
  have hlt : num % den < den := Nat.mod_lt _ hden
  unfold ofRatio accuracyOfFraction
  by_cases hzero : num % den = 0
  · rw [if_pos hzero]
    simp [ExtendedMantissa.ofMantissaAndAccuracy, hzero]
    omega
  · rw [if_neg hzero]
    rcases lt_trichotomy (2 * (num % den)) den with h | h | h
    · rw [compare_lt_iff_lt.mpr h, Nat.mod_eq_of_lt h]
      simp [ExtendedMantissa.ofMantissaAndAccuracy]
      omega
    · rw [compare_eq_iff_eq.mpr h, h]
      simp [ExtendedMantissa.ofMantissaAndAccuracy]
    · have hmod : 2 * (num % den) % den = 2 * (num % den) - den := by
        rw [Nat.mod_eq_sub_mod h.le, Nat.mod_eq_of_lt (by omega)]
      rw [compare_gt_iff_gt.mpr h, hmod]
      simp [ExtendedMantissa.ofMantissaAndAccuracy]
      omega

theorem half_or_rest_iff {rest : Nat} (h : rest < den) :
    (den ≤ 2 * rest ∨ 2 * rest % den ≠ 0) ↔ rest ≠ 0 := by
  constructor
  · rintro (hhalf | hrest) rfl
    · omega
    · exact hrest (Nat.zero_mod den)
  · intro hne
    by_cases hhalf : den ≤ 2 * rest
    · exact .inl hhalf
    · rw [Nat.mod_eq_of_lt (by omega)]
      omega

theorem shiftRightOne_ofRatio (hden : 0 < den) :
    (ofRatio num den).shiftRightOne = ofRatio num (2 * den) := by
  have hlt : num % den < den := Nat.mod_lt _ hden
  have hdiv : num / (2 * den) = num / den / 2 := by rw [mul_comm, Nat.div_div_eq_div_mul]
  have hmod : num % (2 * den) = num % den + den * (num / den % 2) := by rw [mul_comm, Nat.mod_mul]
  have htwice : 2 * (num % (2 * den)) % (2 * den) = 2 * (num % den) := by
    rw [Nat.mul_mod_mul_left, Nat.mod_mod_of_dvd _ (Dvd.intro_left 2 rfl)]
  have hround : 2 * den ≤ 2 * (num % (2 * den)) ↔ num / den % 2 ≠ 0 := by
    rw [hmod]
    rcases Nat.mod_two_eq_zero_or_one (num / den) with hp | hp <;> rw [hp] <;> omega
  have hsticky := half_or_rest_iff hlt
  unfold ofRatio ExtendedMantissa.shiftRightOne
  simp only [hdiv, htwice, hround]
  congr 1
  · rw [Bool.eq_iff_iff, bne_iff_ne, decide_eq_true_iff]
  · rw [← Bool.decide_or, decide_eq_decide, hsticky]
    omega

theorem shiftRight_ofRatio (hden : 0 < den) (n : Nat) :
    ofRatio num den >>> n = ofRatio num (den * 2 ^ n) := by
  change n.repeat ExtendedMantissa.shiftRightOne (ofRatio num den) = _
  induction n with
  | zero => rw [pow_zero, mul_one]; rfl
  | succ n ih =>
    rw [Nat.repeat, ih, shiftRightOne_ofRatio (by positivity), pow_succ]
    congr 1
    ring

theorem roundedMantissa_ofRatio (hden : 0 < den) :
    (ofRatio num den).roundedMantissa =
      if 2 * (num % den) < den then num / den
      else if 2 * (num % den) = den then num / den + num / den % 2
      else num / den + 1 := by
  have hlt : num % den < den := Nat.mod_lt _ hden
  unfold ofRatio
  split
  · next hhalf =>
    rw [decide_eq_false (by omega : ¬ den ≤ 2 * (num % den))]
    cases decide (2 * (num % den) % den ≠ 0) <;> rfl
  · next hhalf =>
    rw [decide_eq_true (by omega : den ≤ 2 * (num % den))]
    split
    · next htie =>
      rw [htie, decide_eq_false (by simp)]
      rfl
    · next htie =>
      have hrest : 2 * (num % den) % den ≠ 0 := by
        rw [Nat.mod_eq_sub_mod (by omega), Nat.mod_eq_of_lt (by omega)]
        omega
      rw [decide_eq_true hrest]
      rfl

theorem roundedMantissa_eq (hden : 0 < den) {n : Nat}
    (hlower : 2 * n * den ≤ 2 * num + den) (hupper : 2 * num ≤ (2 * n + 1) * den)
    (hodd : n % 2 = 1 → 2 * n * den < 2 * num + den ∧ 2 * num < (2 * n + 1) * den) :
    (ofRatio num den).roundedMantissa = n := by
  have hlt : num % den < den := Nat.mod_lt _ hden
  have hnum : den * (num / den) + num % den = num := Nat.div_add_mod num den
  rw [roundedMantissa_ofRatio hden]
  generalize num / den = q at *
  generalize num % den = r at *
  subst hnum
  have hle : 2 * den * q < 2 * den * (n + 1) := by nlinarith
  have hge : 2 * den * n < 2 * den * (q + 2) := by nlinarith
  replace hle : q < n + 1 := Nat.lt_of_mul_lt_mul_left hle
  replace hge : n < q + 2 := Nat.lt_of_mul_lt_mul_left hge
  obtain rfl | rfl : n = q ∨ n = q + 1 := by omega
  · have hhalf : 2 * r ≤ den := by nlinarith
    split
    · rfl
    · have htie : 2 * r = den := by omega
      have heven : n % 2 = 0 := by
        by_contra hne
        have hstrict := (hodd (by omega)).2
        nlinarith
      rw [if_pos htie, heven, add_zero]
  · have hhalf : den ≤ 2 * r := by nlinarith
    rw [if_neg (by omega)]
    split
    · next htie =>
      have hq : q % 2 = 1 := by
        by_contra hne
        have hstrict := (hodd (by omega)).1
        nlinarith
      rw [hq]
    · rfl

theorem targetExponent_eq_max (total : Int) :
    Format.binary64.targetExponent total = max (total - 53) (-1074) := by
  have hmin : Format.binary64.minExponent = -1074 := by decide
  have hbits : (Format.binary64.mantissaBits : Int) = 53 := by decide
  rw [Format.targetExponent, hmin, hbits]

theorem targetExponent_eq (n : Nat) (e : Int) :
    Format.binary64.targetExponent (totalExponent n e) = max (n.log2 + e - 52) (-1074) := by
  rw [targetExponent_eq_max, totalExponent]
  congr 1
  omega

/-- Both steps of rounding, the second of which only shifts a carry out. -/
theorem roundWithAccuracy_ofRatio (hden : 0 < den) (sign : Sign) {e : Int} {accuracy : Accuracy}
    (haccuracy : ExtendedMantissa.ofMantissaAndAccuracy (num / den) accuracy = ofRatio num den)
    {j i n : Nat}
    (htarget : Format.binary64.targetExponent (totalExponent (num / den) e) = e + j)
    (hround : (ofRatio num (den * 2 ^ j)).roundedMantissa = n)
    (hcarry : Format.binary64.targetExponent (totalExponent n (e + j)) = e + j + i)
    (hpos : 0 < n / 2 ^ i) :
    roundWithAccuracy Format.binary64 sign (num / den) e accuracy =
      .finite sign (n / 2 ^ i) (e + j + i) hpos := by
  have hfirst : shiftToTargetExponent Format.binary64 (num / den) e accuracy =
      (ofRatio num (den * 2 ^ j), e + j) := by
    have hshift : (e + j - e).toNat = j := by omega
    simp only [shiftToTargetExponent, shiftToExponent, htarget, hshift, haccuracy,
      shiftRight_ofRatio hden]
  have hsecond : shiftToTargetExponent Format.binary64 n (e + j) .exact =
      (ofRatio n (1 * 2 ^ i), e + j + i) := by
    have hshift : (e + j + i - (e + j)).toNat = i := by omega
    simp only [shiftToTargetExponent, shiftToExponent, hcarry, hshift, ofRatio_eq_exact,
      shiftRight_ofRatio Nat.one_pos]
  have hmantissa : (ofRatio n (1 * 2 ^ i)).mantissa = n / 2 ^ i := by rw [one_mul]; rfl
  simp only [roundWithAccuracy, hfirst, hround, hsecond, hmantissa, hpos.ne', ↓reduceDIte]

/-- Whether a number of units of the last bit lies in an interval. -/
def RoundingInterval.Contains (interval : RoundingInterval) (units : ℚ) : Prop :=
  if interval.closed then interval.lower ≤ 4 * units ∧ 4 * units ≤ interval.upper
  else interval.lower < 4 * units ∧ 4 * units < interval.upper

theorem RoundingInterval.contains_div_iff {interval : RoundingInterval} (hden : 0 < den) :
    interval.Contains (num / den) ↔
      if interval.closed then interval.lower * den ≤ 4 * num ∧ 4 * num ≤ interval.upper * den
      else interval.lower * den < 4 * num ∧ 4 * num < interval.upper * den := by
  have hpos : (0 : ℚ) < den := by exact_mod_cast hden
  have hle : ∀ n : Nat, (n : ℚ) ≤ 4 * (num / den) ↔ n * den ≤ 4 * num := by
    intro n
    rw [← mul_div_assoc, le_div_iff₀ hpos]
    exact_mod_cast Iff.rfl
  have hge : ∀ n : Nat, 4 * (num / den) ≤ (n : ℚ) ↔ 4 * num ≤ n * den := by
    intro n
    rw [← mul_div_assoc, div_le_iff₀ hpos]
    exact_mod_cast Iff.rfl
  unfold Contains
  split
  · rw [hle, hge]
  · rw [← not_le, ← not_le, hle, hge, not_le, not_le]

theorem Magnitude.closed_roundingInterval (m : Magnitude) :
    m.roundingInterval.closed = decide (m.significand % 2 = 0) := rfl

theorem Magnitude.upper_roundingInterval (m : Magnitude) :
    m.roundingInterval.upper = 4 * m.significand + 2 := rfl

theorem Magnitude.lower_roundingInterval (m : Magnitude) :
    m.roundingInterval.lower =
      4 * m.significand - if m.significand = 2 ^ 52 ∧ -1074 < m.exponent then 1 else 2 := by
  have hbit : leadingBit = 2 ^ 52 := by decide
  simp only [roundingInterval, hbit, gt_iff_lt, Bool.and_eq_true, decide_eq_true_eq]

theorem Magnitude.le_of_contains {m : Magnitude} (hden : 0 < den)
    (h : m.roundingInterval.Contains (num / den)) :
    m.roundingInterval.lower * den ≤ 4 * num ∧ 4 * num ≤ (4 * m.significand + 2) * den := by
  rw [RoundingInterval.contains_div_iff hden, upper_roundingInterval] at h
  split at h
  · exact h
  · exact ⟨h.1.le, h.2.le⟩

theorem Magnitude.lt_of_contains {m : Magnitude} (hden : 0 < den) (hodd : m.significand % 2 = 1)
    (h : m.roundingInterval.Contains (num / den)) :
    m.roundingInterval.lower * den < 4 * num ∧ 4 * num < (4 * m.significand + 2) * den := by
  rw [RoundingInterval.contains_div_iff hden, upper_roundingInterval, closed_roundingInterval,
    decide_eq_false (by omega)] at h
  exact h

theorem Magnitude.nearest {m : Magnitude} (hden : 0 < den)
    (h : m.roundingInterval.Contains (num / den)) :
    (ofRatio num den).roundedMantissa = m.significand := by
  have hlower : 4 * m.significand * den ≤ (m.roundingInterval.lower + 2) * den := by
    apply Nat.mul_le_mul_right den
    rw [m.lower_roundingInterval]
    split <;> omega
  obtain ⟨hle, hge⟩ := Magnitude.le_of_contains hden h
  apply roundedMantissa_eq hden (by nlinarith) (by nlinarith)
  intro hodd
  obtain ⟨hlt, hgt⟩ := Magnitude.lt_of_contains hden hodd h
  exact ⟨by nlinarith, by nlinarith⟩

/-- The numbers below a power of two in its interval are nearest to the power, with one more bit. -/
theorem Magnitude.nearest_half {m : Magnitude} (hden : 0 < den)
    (hpower : m.significand = 2 ^ 52) (hleast : -1074 < m.exponent)
    (h : m.roundingInterval.Contains (num / (2 * den : Nat))) (hbelow : num < 2 ^ 53 * den) :
    (ofRatio num den).roundedMantissa = 2 ^ 53 := by
  have hlower : m.roundingInterval.lower = 2 ^ 54 - 1 := by
    rw [m.lower_roundingInterval, if_pos ⟨hpower, hleast⟩, hpower]
    rfl
  obtain ⟨hle, hge⟩ := Magnitude.le_of_contains (by omega) h
  rw [hlower] at hle
  apply roundedMantissa_eq hden (by omega) (by omega)
  intro hodd
  omega

theorem log2_div_lt {c k : Nat} (hden : 0 < den) (hc : 0 < c)
    (h : num < 2 ^ c * (den * 2 ^ k)) : (num / den).log2 < c + k := by
  by_cases hzero : num / den = 0
  · rw [hzero, Nat.log2_zero]
    omega
  · rw [Nat.log2_lt hzero, Nat.div_lt_iff_lt_mul hden, pow_add]
    calc num < 2 ^ c * (den * 2 ^ k) := h
      _ = 2 ^ c * 2 ^ k * den := by ring

theorem le_log2_div {c k : Nat} (hden : 0 < den) (h : 2 ^ c * (den * 2 ^ k) ≤ num) :
    c + k ≤ (num / den).log2 := by
  have hle : 2 ^ (c + k) ≤ num / den := by
    rw [Nat.le_div_iff_mul_le hden, pow_add]
    calc 2 ^ c * 2 ^ k * den = 2 ^ c * (den * 2 ^ k) := by ring
      _ ≤ num := h
  have hpos : 0 < 2 ^ (c + k) := by positivity
  exact (Nat.le_log2 (by omega)).mpr hle

theorem log2_shiftLeft {n : Nat} (hpos : 0 < n) (shift : Nat) :
    (n <<< shift).log2 = n.log2 + shift := by
  have hne : n <<< shift ≠ 0 := by
    rw [Nat.shiftLeft_eq]
    positivity
  apply (Nat.log2_eq_iff hne).mpr
  rw [Nat.shiftLeft_eq, pow_add, Nat.add_right_comm, pow_add]
  exact ⟨Nat.mul_le_mul_right _ (Nat.log2_self_le hpos.ne'),
    Nat.mul_lt_mul_of_pos_right Nat.lt_log2_self (by positivity)⟩

theorem log2_sub_le_log2_div (hnum : 0 < num) (hden : 0 < den) :
    num.log2 - (den.log2 + 1) ≤ (num / den).log2 := by
  by_cases hlong : den.log2 + 1 ≤ num.log2
  · apply le_log2_div (k := 0) hden
    calc 2 ^ (num.log2 - (den.log2 + 1)) * (den * 2 ^ 0)
        ≤ 2 ^ (num.log2 - (den.log2 + 1)) * 2 ^ (den.log2 + 1) := by
          rw [pow_zero, mul_one]
          exact Nat.mul_le_mul_left _ Nat.lt_log2_self.le
      _ = 2 ^ num.log2 := by rw [← pow_add, Nat.sub_add_cancel hlong]
      _ ≤ num := Nat.log2_self_le hnum.ne'
  · omega

theorem zpow_log2_sub_le_div (hnum : 0 < num) (hden : 0 < den) :
    (2 : ℚ) ^ ((num.log2 : Int) - (den.log2 + 1 : Nat)) ≤ num / den := by
  have hden' : (0 : ℚ) < den := by exact_mod_cast hden
  have hlower : (2 : ℚ) ^ num.log2 ≤ num := by exact_mod_cast Nat.log2_self_le hnum.ne'
  have hupper : (den : ℚ) ≤ 2 ^ (den.log2 + 1) := by exact_mod_cast Nat.lt_log2_self.le
  rw [zpow_sub₀ (by norm_num), zpow_natCast, zpow_natCast]
  gcongr

namespace Magnitude.Canonical

variable {m : Magnitude}

theorem targetExponent_self (hm : m.Canonical) :
    Format.binary64.targetExponent (totalExponent m.significand m.exponent) = m.exponent := by
  have hlog : m.significand.log2 < 53 := (Nat.log2_lt hm.pos.ne').mpr hm.lt
  have hleast := hm.least
  rw [targetExponent_eq]
  rcases hm.normal with h | h
  · have hle : 52 ≤ m.significand.log2 := (Nat.le_log2 hm.pos.ne').mpr h
    omega
  · omega

/-- The exponent to which the numbers of an interval are rounded: that of its own number, or one
less for the numbers below a power of two. -/
theorem targetExponent_cases (hm : m.Canonical) (hden : 0 < den) {e : Int} {k : Nat}
    (hk : m.exponent = e + k) (h : m.roundingInterval.Contains (num / (den * 2 ^ k : Nat))) :
    Format.binary64.targetExponent (totalExponent (num / den) e) = m.exponent ∨
      Format.binary64.targetExponent (totalExponent (num / den) e) + 1 = m.exponent ∧
        m.significand = 2 ^ 52 ∧ -1074 < m.exponent ∧ num < 2 ^ 52 * (den * 2 ^ k) := by
  have hleast := hm.least
  have hlt := hm.lt
  have hwide : 0 < den * 2 ^ k := by positivity
  obtain ⟨hle, hge⟩ := Magnitude.le_of_contains hwide h
  have hlog : (num / den).log2 < 53 + k := log2_div_lt hden (by omega) (by nlinarith)
  rw [targetExponent_eq]
  by_cases hsubnormal : m.exponent = -1074
  · left
    omega
  · have hnormal : 2 ^ 52 ≤ m.significand := hm.normal.resolve_right hsubnormal
    by_cases hbelow : num < 2 ^ 52 * (den * 2 ^ k)
    · have hless : (num / den).log2 < 52 + k := log2_div_lt hden (by omega) hbelow
      have hpower : m.significand = 2 ^ 52 := by
        by_contra hne
        rw [m.lower_roundingInterval, if_neg (fun h => hne h.1)] at hle
        have hlower : (4 * 2 ^ 52 + 2) * (den * 2 ^ k) ≤
            (4 * m.significand - 2) * (den * 2 ^ k) := Nat.mul_le_mul_right _ (by omega)
        omega
      rw [m.lower_roundingInterval, if_pos ⟨hpower, by omega⟩, hpower] at hle
      have hmore : 51 + k ≤ (num / den).log2 := le_log2_div hden (by omega)
      right
      omega
    · have hmore : 52 + k ≤ (num / den).log2 := le_log2_div hden (by omega)
      left
      omega

/-- Every ratio in the interval of a magnitude is rounded to the magnitude. -/
theorem roundWithAccuracy_eq (hm : m.Canonical) (sign : Sign) (hden : 0 < den) {e : Int} {k : Nat}
    {accuracy : Accuracy}
    (haccuracy : ExtendedMantissa.ofMantissaAndAccuracy (num / den) accuracy = ofRatio num den)
    (hk : m.exponent = e + k)
    (he : e ≤ Format.binary64.targetExponent (totalExponent (num / den) e))
    (h : m.roundingInterval.Contains (num / (den * 2 ^ k : Nat))) :
    roundWithAccuracy Format.binary64 sign (num / den) e accuracy =
      .finite sign m.significand m.exponent hm.pos := by
  have hself := hm.targetExponent_self
  rw [hk] at hself
  rcases hm.targetExponent_cases hden hk h with htarget | ⟨htarget, hpower, hleast, hbelow⟩
  · have hround : (ofRatio num (den * 2 ^ k)).roundedMantissa = m.significand :=
      Magnitude.nearest (by positivity) h
    have hcarry : Format.binary64.targetExponent (totalExponent m.significand (e + k)) =
        e + k + (0 : Nat) := by rw [hself, Nat.cast_zero, add_zero]
    have hpos : 0 < m.significand / 2 ^ 0 := by rw [pow_zero, Nat.div_one]; exact hm.pos
    rw [roundWithAccuracy_ofRatio hden sign haccuracy (htarget.trans hk) hround hcarry hpos]
    congr 1
    · rw [pow_zero, Nat.div_one]
    · omega
  · obtain ⟨j, rfl⟩ : ∃ j, k = j + 1 := ⟨k - 1, by omega⟩
    have hround : (ofRatio num (den * 2 ^ j)).roundedMantissa = 2 ^ 53 := by
      have hwide : den * 2 ^ (j + 1) = 2 * (den * 2 ^ j) := by ring
      rw [hwide] at h hbelow
      exact Magnitude.nearest_half (by positivity) hpower hleast h (by omega)
    have hcarry : Format.binary64.targetExponent (totalExponent (2 ^ 53) (e + j)) =
        e + j + (1 : Nat) := by
      rw [targetExponent_eq, Nat.log2_two_pow]
      omega
    have hfirst : Format.binary64.targetExponent (totalExponent (num / den) e) = e + j := by omega
    rw [roundWithAccuracy_ofRatio hden sign haccuracy hfirst hround hcarry (by decide)]
    congr 1
    · rw [hpower]
      rfl
    · omega

end Magnitude.Canonical

/-- Whether a number lies in the interval of the numbers that round to a magnitude. -/
def Magnitude.Nears (m : Magnitude) (v : ℚ) : Prop :=
  m.roundingInterval.Contains (v / 2 ^ m.exponent)

namespace Magnitude.Canonical

variable {m : Magnitude} {v : ℚ}

theorem lt_of_nears (hm : m.Canonical) (h : m.Nears v) : v < 2 ^ (m.exponent + 53) := by
  have hunits : 4 * (v / 2 ^ m.exponent) ≤ 4 * m.significand + 2 := by
    unfold Nears RoundingInterval.Contains at h
    rw [m.upper_roundingInterval] at h
    push_cast at h
    split at h
    · exact h.2
    · exact h.2.le
  have hlt : (m.significand : ℚ) + 1 ≤ 2 ^ 53 := by exact_mod_cast hm.lt
  have hpos : (0 : ℚ) < 2 ^ m.exponent := by positivity
  rw [zpow_add₀ (by norm_num), ← div_lt_iff₀' hpos]
  norm_num at hlt ⊢
  linarith

theorem le_of_nears (hm : m.Canonical) (h : m.Nears v) : 2 ^ (m.exponent - 1) ≤ v := by
  have hunits : (m.roundingInterval.lower : ℚ) ≤ 4 * (v / 2 ^ m.exponent) := by
    unfold Nears RoundingInterval.Contains at h
    split at h
    · exact h.1
    · exact h.1.le
  have hlower : 2 ≤ m.roundingInterval.lower := by
    have hpos := hm.pos
    rw [m.lower_roundingInterval]
    split <;> omega
  have hlower' : (2 : ℚ) ≤ m.roundingInterval.lower := by exact_mod_cast hlower
  have hpos : (0 : ℚ) < 2 ^ m.exponent := by positivity
  rw [← mul_div_assoc, le_div_iff₀ hpos] at hunits
  rw [zpow_sub₀ (by norm_num), zpow_one, div_le_iff₀ (by norm_num)]
  nlinarith

theorem lt_of_zpow_le (hm : m.Canonical) (h : m.Nears v) {k : Int} (hk : 2 ^ k ≤ v) :
    k < m.exponent + 53 :=
  (zpow_lt_zpow_iff_right₀ (by norm_num)).mp (hk.trans_lt (hm.lt_of_nears h))

theorem le_of_lt_zpow (hm : m.Canonical) (h : m.Nears v) {k : Int} (hk : v < 2 ^ k) :
    m.exponent ≤ k := by
  have hexponent := (zpow_lt_zpow_iff_right₀ (by norm_num)).mp ((hm.le_of_nears h).trans_lt hk)
  omega

theorem roundWithAccuracy_of_nears (hm : m.Canonical) (sign : Sign) (hden : 0 < den) {e : Int}
    {accuracy : Accuracy}
    (haccuracy : ExtendedMantissa.ofMantissaAndAccuracy (num / den) accuracy = ofRatio num den)
    (he : e ≤ Format.binary64.targetExponent (totalExponent (num / den) e)) (hle : e ≤ m.exponent)
    (h : m.Nears (num / den * 2 ^ e)) :
    roundWithAccuracy Format.binary64 sign (num / den) e accuracy =
      .finite sign m.significand m.exponent hm.pos := by
  obtain ⟨k, hk⟩ := Int.le.dest hle
  apply hm.roundWithAccuracy_eq sign hden haccuracy hk.symm he
  have hunits : (num / den * 2 ^ e : ℚ) / 2 ^ m.exponent = num / (den * 2 ^ k : Nat) := by
    rw [← hk, zpow_add₀ (by norm_num), zpow_natCast]
    have hpos : (0 : ℚ) < 2 ^ e := by positivity
    push_cast
    field_simp
  rw [← hunits]
  exact h

theorem mul_eq (hm : m.Canonical) {a b : Nat} {e f : Int} (ha : 0 < a) (hb : 0 < b)
    (hlong : 2 ^ 52 ≤ a * b) (h : m.Nears (a * 2 ^ e * (b * 2 ^ f))) :
    mul Format.binary64 (.finite .positive a e ha) (.finite .positive b f hb) =
      .finite .positive m.significand m.exponent hm.pos := by
  have hvalue : (a * 2 ^ e * (b * 2 ^ f) : ℚ) = ((a * b : Nat) : ℚ) / (1 : Nat) * 2 ^ (e + f) := by
    rw [zpow_add₀ (by norm_num)]
    push_cast
    ring
  rw [hvalue] at h
  have hlog : 52 ≤ (a * b).log2 := (Nat.le_log2 (by positivity)).mpr hlong
  have hle : e + f ≤ m.exponent := by
    have hlong' : (2 : ℚ) ^ (52 : Int) ≤ (a * b : Nat) := by exact_mod_cast hlong
    have hexponent := hm.lt_of_zpow_le h (k := 52 + (e + f)) (by
      rw [zpow_add₀ (by norm_num), Nat.cast_one, div_one]
      gcongr)
    omega
  have hexact : ExtendedMantissa.ofMantissaAndAccuracy (a * b / 1) .exact = ofRatio (a * b) 1 := by
    rw [Nat.div_one, ofRatio_eq_exact]
  have hround := hm.roundWithAccuracy_of_nears .positive Nat.one_pos hexact
    (by rw [targetExponent_eq, Nat.div_one]; omega) hle h
  rw [Nat.div_one] at hround
  exact hround

theorem div_eq (hm : m.Canonical) {a b : Nat} {e f : Int} (ha : 0 < a) (hb : 0 < b)
    (h : m.Nears (a * 2 ^ e / (b * 2 ^ f))) :
    div Format.binary64 (.finite .positive a e ha) (.finite .positive b f hb) =
      .finite .positive m.significand m.exponent hm.pos := by
  let target := min (e - f)
    (Format.binary64.targetExponent (totalExponent a e - totalExponent b f))
  let shift := (e - f - target).toNat
  have hshift : e - f = target + shift := by omega
  have htarget : target ≤ max (a.log2 + e - (b.log2 + f) - 53) (-1074) := by
    have hmin : target ≤
        Format.binary64.targetExponent (totalExponent a e - totalExponent b f) :=
      min_le_right _ _
    rw [targetExponent_eq_max, totalExponent, totalExponent] at hmin
    omega
  have hnum : 0 < a <<< shift := by
    rw [Nat.shiftLeft_eq]
    positivity
  have hlog : (a <<< shift).log2 = a.log2 + shift := log2_shiftLeft ha shift
  have hvalue : (a * 2 ^ e / (b * 2 ^ f) : ℚ) = ((a <<< shift : Nat) : ℚ) / b * 2 ^ target := by
    have he : (2 : ℚ) ^ e = 2 ^ shift * 2 ^ target * 2 ^ f := by
      rw [← zpow_natCast, ← zpow_add₀ (by norm_num), ← zpow_add₀ (by norm_num)]
      congr 1
      omega
    rw [he, Nat.shiftLeft_eq]
    push_cast
    field_simp
  rw [hvalue] at h
  have hle : target ≤ m.exponent := by
    have hpower : (2 : ℚ) ^ (((a <<< shift).log2 : Int) - (b.log2 + 1 : Nat) + target) ≤
        (a <<< shift : Nat) / b * 2 ^ target := by
      rw [zpow_add₀ (by norm_num)]
      exact mul_le_mul_of_nonneg_right (zpow_log2_sub_le_div hnum hb) (by positivity)
    have hexponent := hm.lt_of_zpow_le h hpower
    have hleast := hm.least
    omega
  have hfine : target ≤
      Format.binary64.targetExponent (totalExponent (a <<< shift / b) target) := by
    have hquotient := log2_sub_le_log2_div hnum hb
    rw [targetExponent_eq]
    omega
  exact hm.roundWithAccuracy_of_nears .positive hb (ofRatio_eq_ofFraction hb) hfine hle h

end Magnitude.Canonical

end RegionDrawing.Binary64
