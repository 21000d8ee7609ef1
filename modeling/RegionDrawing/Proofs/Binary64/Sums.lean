import Mathlib
import RegionDrawing.Proofs.Binary64.Reading
import RegionDrawing.Proofs.Binary64.Stored
import RegionDrawing.Proofs.Scalar.Sums

/-! # Bounds on sums of machine numbers

Rounding does not lead beyond a machine number, so the sum of two numbers is bounded by the sum of
whole numbers that bound them.
-/
namespace RegionDrawing.Binary64

open Float.Model UnpackedFloat

variable {m : Magnitude}

theorem roundedMantissa_le {num den k : Nat} (hden : 0 < den) (h : num ≤ k * den) :
    (ofRatio num den).roundedMantissa ≤ k := by
  have hnum : den * (num / den) + num % den = num := Nat.div_add_mod num den
  have hle : num / den ≤ k := Nat.div_le_of_le_mul (by rwa [mul_comm])
  rw [roundedMantissa_ofRatio hden]
  split
  · exact hle
  · have hlt : num / den < k := by
      apply hle.lt_of_ne
      rintro rfl
      rw [mul_comm] at h
      omega
    split <;> omega

theorem div_le_roundedMantissa (num : Nat) {den : Nat} (hden : 0 < den) :
    num / den ≤ (ofRatio num den).roundedMantissa := by
  rw [roundedMantissa_ofRatio hden]
  split
  · exact le_rfl
  · split <;> omega

theorem Magnitude.value_lt (hlt : m.significand < 2 ^ 53) : m.value < 2 ^ (m.exponent + 53) := by
  have hlt' : (m.significand : ℚ) < 2 ^ 53 := by exact_mod_cast hlt
  rw [value, zpow_add₀ (by norm_num), mul_comm]
  gcongr
  exact_mod_cast hlt'

theorem Magnitude.Canonical.targetExponent_le (hm : m.Canonical) {n : Nat} {e : Int} (hpos : 0 < n)
    (hle : n * 2 ^ e ≤ m.value) :
    Format.binary64.targetExponent (totalExponent n e) ≤ m.exponent := by
  have hlog : (2 : ℚ) ^ ((n.log2 : Int) + e) ≤ n * 2 ^ e := by
    rw [zpow_add₀ (by norm_num), zpow_natCast]
    gcongr
    exact_mod_cast Nat.log2_self_le hpos.ne'
  have hexponent : (n.log2 : Int) + e < m.exponent + 53 :=
    (zpow_lt_zpow_iff_right₀ (by norm_num)).mp
      (hlog.trans_lt (hle.trans_lt (Magnitude.value_lt hm.lt)))
  have hleast := hm.least
  rw [targetExponent_eq]
  omega

theorem roundedMantissa_bounds {n j : Nat} {e : Int} (hpos : 0 < n) (he : -1074 ≤ e)
    (htarget : Format.binary64.targetExponent (totalExponent n e) = e + j) :
    0 < (ofRatio n (1 * 2 ^ j)).roundedMantissa ∧
      (ofRatio n (1 * 2 ^ j)).roundedMantissa ≤ 2 ^ 53 ∧
      (2 ^ 52 ≤ (ofRatio n (1 * 2 ^ j)).roundedMantissa ∨ e + j = -1074) := by
  have hden : 0 < 1 * 2 ^ j := by positivity
  have hlower := div_le_roundedMantissa n hden
  rw [targetExponent_eq] at htarget
  have hupper : n < 2 ^ (53 + j) := (Nat.log2_lt hpos.ne').mp (by omega)
  refine ⟨?_, roundedMantissa_le hden (by rw [one_mul, ← pow_add]; exact hupper.le), ?_⟩
  all_goals rw [one_mul] at hlower ⊢
  all_goals rcases eq_or_ne (e + j) (-1074) with hleast | hnormal
  · obtain rfl : j = 0 := by omega
    rw [pow_zero, Nat.div_one] at hlower
    exact hpos.trans_le hlower
  · have hpower : 2 ^ j ≤ n := (Nat.le_log2 hpos.ne').mp (by omega)
    exact (Nat.div_pos hpower (by positivity)).trans_le hlower
  · exact .inr hleast
  · have hpower : 2 ^ 52 * 2 ^ j ≤ n := by
      rw [← pow_add]
      exact (Nat.le_log2 hpos.ne').mp (by omega)
    exact .inl (((Nat.le_div_iff_mul_le (by positivity)).mpr hpower).trans hlower)

theorem roundWithAccuracy_exact (sign : Sign) {n j i k : Nat} {e : Int}
    (htarget : Format.binary64.targetExponent (totalExponent n e) = e + j)
    (hround : (ofRatio n (1 * 2 ^ j)).roundedMantissa = k)
    (hcarry : Format.binary64.targetExponent (totalExponent k (e + j)) = e + j + i)
    (hpos : 0 < k / 2 ^ i) :
    roundWithAccuracy Format.binary64 sign n e .exact =
      .finite sign (k / 2 ^ i) (e + j + i) hpos := by
  have hexact : ExtendedMantissa.ofMantissaAndAccuracy (n / 1) .exact = ofRatio n 1 := by
    rw [Nat.div_one, ofRatio_eq_exact]
  have hresult := roundWithAccuracy_ofRatio Nat.one_pos sign hexact
    (by rw [Nat.div_one, htarget]) hround hcarry hpos
  rwa [Nat.div_one] at hresult

/-- Rounding to fewer bits does not lead beyond a machine number. -/
theorem Magnitude.Canonical.roundWithAccuracy_le (hm : m.Canonical) (sign : Sign) {n : Nat}
    {e : Int} (hpos : 0 < n) (he : -1074 ≤ e)
    (hfine : e ≤ Format.binary64.targetExponent (totalExponent n e))
    (hle : n * 2 ^ e ≤ m.value) :
    ∃ (r : Magnitude) (hr : r.Canonical), r.value ≤ m.value ∧
      roundWithAccuracy Format.binary64 sign n e .exact =
        .finite sign r.significand r.exponent hr.pos := by
  obtain ⟨j, hj⟩ := Int.le.dest hfine
  obtain ⟨k, hk⟩ := Int.le.dest (hm.targetExponent_le hpos hle)
  rw [← hj] at hk
  have hround := fun i => roundWithAccuracy_exact (i := i) sign hj.symm rfl
  obtain ⟨hsignificand, hupper, hnormal⟩ := roundedMantissa_bounds hpos he hj.symm
  have hunits : m.value = (m.significand * 2 ^ k : Nat) * 2 ^ (e + j) := by
    rw [Magnitude.value, ← hk, zpow_add₀ (by norm_num), zpow_natCast]
    push_cast
    ring
  have hwhole : n ≤ m.significand * 2 ^ k * (1 * 2 ^ j) := by
    have hpower : (0 : ℚ) < 2 ^ e := by positivity
    have hscaled : (n * 2 ^ e : ℚ) ≤ (m.significand * 2 ^ k * (1 * 2 ^ j) : Nat) * 2 ^ e := by
      rw [hunits, zpow_add₀ (by norm_num), zpow_natCast] at hle
      refine hle.trans_eq ?_
      push_cast
      ring
    exact_mod_cast le_of_mul_le_mul_right hscaled hpower
  have hrounded := roundedMantissa_le (by positivity) hwhole
  generalize (ofRatio n (1 * 2 ^ j)).roundedMantissa = significand at *
  have hbelow : (significand * 2 ^ (e + j) : ℚ) ≤ m.value := by
    rw [hunits]
    gcongr
  have hgreatest := hm.greatest
  rw [targetExponent_eq] at hj
  rcases hupper.lt_or_eq with hlt | rfl
  · have hr : Magnitude.Canonical ⟨significand, e + j⟩ :=
      ⟨hsignificand, hlt, by dsimp only; omega, by dsimp only; omega, hnormal⟩
    have hself := hr.targetExponent_self
    have hresult := hround 0 (hself.trans (by simp)) (by rwa [pow_zero, Nat.div_one])
    exact ⟨_, hr, hbelow, by simpa using hresult⟩
  · have hk' : 1 ≤ k := by
      by_contra hzero
      obtain rfl : k = 0 := by omega
      have hlt := hm.lt
      omega
    have hr : Magnitude.Canonical ⟨2 ^ 52, e + j + 1⟩ :=
      ⟨by positivity, by norm_num, by dsimp only; omega, by dsimp only; omega, .inl le_rfl⟩
    refine ⟨_, hr, ?_, hround 1 ?_ (by norm_num)⟩
    · refine le_trans (le_of_eq ?_) hbelow
      rw [Magnitude.value, zpow_add_one₀ (by norm_num)]
      push_cast
      ring
    · rw [targetExponent_eq, Nat.log2_two_pow]
      push_cast
      omega

theorem Magnitude.Canonical.round_le (hm : m.Canonical) (sign : Sign) {n : Nat} {e : Int}
    (hpos : 0 < n) (he : -1074 ≤ e) (hle : n * 2 ^ e ≤ m.value) :
    ∃ (r : Magnitude) (hr : r.Canonical), r.value ≤ m.value ∧
      UnpackedFloat.round Format.binary64 sign n e =
        .finite sign r.significand r.exponent hr.pos := by
  unfold UnpackedFloat.round decreaseExponent
  dsimp only
  generalize hshift :
    (e - Format.binary64.targetExponent (totalExponent n e)).toNat = shift
  rw [targetExponent_eq] at hshift
  have hpos' : 0 < n <<< shift := by
    rw [Nat.shiftLeft_eq]
    positivity
  apply hm.roundWithAccuracy_le sign hpos' (by omega)
  · rw [targetExponent_eq, log2_shiftLeft hpos]
    omega
  · refine le_trans (le_of_eq ?_) hle
    rw [Nat.shiftLeft_eq, zpow_sub₀ (by norm_num), zpow_natCast]
    push_cast
    field_simp

/-- Whether a number is finite and its absolute value at most a bound. -/
def AtMost (bound : ℚ) : UnpackedFloat → Prop
  | .zero _ => 0 ≤ bound
  | .finite _ significand exponent _ => significand * 2 ^ exponent ≤ bound
  | .infinity _ | .notANumber => False

/-- Whether a number is a zero or the value of a finite machine number. -/
def Exact (bound : ℚ) : Prop := bound = 0 ∨ ∃ m : Magnitude, m.Canonical ∧ m.value = bound

theorem Magnitude.value_pos (hpos : 0 < m.significand) : 0 < m.value := by
  have hpos' : (0 : ℚ) < m.significand := by exact_mod_cast hpos
  rw [value]
  positivity

theorem Exact.nonneg {bound : ℚ} (h : Exact bound) : 0 ≤ bound := by
  rcases h with rfl | ⟨m, hm, rfl⟩
  · exact le_rfl
  · exact (Magnitude.value_pos hm.pos).le

theorem exact_natCast {n : Nat} (h : n < 2 ^ 53) : Exact n := by
  rcases Nat.eq_zero_or_pos n with rfl | hpos
  · exact .inl Nat.cast_zero
  · exact .inr ⟨_, Magnitude.canonical_ofNat hpos h, Magnitude.value_ofNat h hpos⟩

theorem Exact.round_le {bound : ℚ} (h : Exact bound) (sign : Sign) {n : Nat} {e : Int}
    (hpos : 0 < n) (he : -1074 ≤ e) (hle : n * 2 ^ e ≤ bound) :
    ∃ (r : Magnitude) (hr : r.Canonical), r.value ≤ bound ∧
      UnpackedFloat.round Format.binary64 sign n e =
        .finite sign r.significand r.exponent hr.pos := by
  rcases h with rfl | ⟨m, hm, rfl⟩
  · have hpos' : (0 : ℚ) < n * 2 ^ e := by positivity
    linarith
  · exact hm.round_le sign hpos he hle

theorem AtMost.neg {a : ℚ} {u : UnpackedFloat} (h : AtMost a u) : AtMost a u.neg := by
  cases u <;> exact h

def rational : UnpackedFloat → ℚ
  | .finite sign significand exponent _ => sign.apply significand * 2 ^ exponent
  | .zero _ | .infinity _ | .notANumber => 0

theorem cast_apply (sign : Sign) (n : Nat) :
    ((sign.apply n : Int) : ℚ) = (sign.apply 1 : Int) * n := by
  cases sign <;> simp [Sign.apply]

theorem abs_apply_mul_zpow (sign : Sign) (n : Nat) (e : Int) :
    |((sign.apply n : Int) * 2 ^ e : ℚ)| = n * 2 ^ e := by
  rw [abs_mul, abs_of_pos (by positivity : (0 : ℚ) < 2 ^ e)]
  cases sign <;> simp [Sign.apply]

theorem sign_apply_mul_zpow (sign : Sign) {n : Nat} (hpos : 0 < n) (e : Int) :
    SignType.sign ((sign.apply n : Int) * 2 ^ e : ℚ) =
      SignType.sign ((sign.apply 1 : Int) : ℚ) := by
  have hn : (0 : ℚ) < n := by exact_mod_cast hpos
  have hpower : (0 : ℚ) < 2 ^ e := by positivity
  rw [cast_apply, sign_mul, sign_mul, sign_pos hn, sign_pos hpower, mul_one, mul_one]

theorem atMost_iff {bound : ℚ} {u : UnpackedFloat} :
    AtMost bound u ↔ u.isFinite ∧ |rational u| ≤ bound := by
  cases u with
  | infinity | notANumber => simp [AtMost, UnpackedFloat.isFinite]
  | zero => simp [AtMost, UnpackedFloat.isFinite, rational]
  | finite sign significand exponent =>
    simp only [AtMost, UnpackedFloat.isFinite, rational, abs_apply_mul_zpow, true_and]

theorem apply_neg (sign : Sign) (n : Int) : (-sign).apply n = -sign.apply n := by
  cases sign
  · exact (neg_neg n).symm
  · rfl

theorem exists_apply {n : Int} (hne : n ≠ 0) :
    ∃ (sign : Sign) (k : Nat), 0 < k ∧ n = sign.apply k := by
  rcases lt_or_gt_of_ne hne with hlt | hgt
  · exact ⟨.negative, n.natAbs, by omega, by rw [Sign.apply]; omega⟩
  · exact ⟨.positive, n.natAbs, by omega, by rw [Sign.apply]; omega⟩

theorem normalize_apply (sign : Sign) {n : Nat} (hpos : 0 < n) (e : Int) (zeroSign : Sign) :
    UnpackedFloat.normalize Format.binary64 (sign.apply n) e zeroSign =
      UnpackedFloat.round Format.binary64 sign n e := by
  unfold UnpackedFloat.normalize
  cases sign with
  | negative =>
    have habs : (-(-(n : Int))).toNat = n := by omega
    rw [Sign.apply, compare_lt_iff_lt.mpr (by omega)]
    simp only [habs]
  | positive =>
    rw [Sign.apply, compare_gt_iff_gt.mpr (by omega)]
    simp only [Int.toNat_natCast]

/-- Below a number of the format, rounding gives a finite number and keeps the sign. -/
theorem Exact.normalize_le {bound : ℚ} (h : Exact bound) {n : Int} {e : Int} (he : -1074 ≤ e)
    (hle : |(n * 2 ^ e : ℚ)| ≤ bound) (zeroSign : Sign) :
    Stored (UnpackedFloat.normalize Format.binary64 n e zeroSign) ∧
      AtMost bound (UnpackedFloat.normalize Format.binary64 n e zeroSign) ∧
      SignType.sign (rational (UnpackedFloat.normalize Format.binary64 n e zeroSign)) =
        SignType.sign (n * 2 ^ e : ℚ) := by
  rcases eq_or_ne n 0 with rfl | hne
  · exact ⟨.zero _, h.nonneg, by simp [UnpackedFloat.normalize, rational]⟩
  obtain ⟨sign, k, hpos, rfl⟩ := exists_apply hne
  rw [abs_apply_mul_zpow] at hle
  obtain ⟨r, hr, hvalue, hround⟩ := h.round_le sign hpos he hle
  rw [normalize_apply sign hpos, hround, sign_apply_mul_zpow sign hpos]
  exact ⟨.finite _ hr, hvalue, sign_apply_mul_zpow sign hr.pos _⟩

theorem shiftLeft_mul_zpow (n : Nat) {e f : Int} (h : f ≤ e) :
    ((n <<< (e - f).toNat : Nat) : ℚ) * 2 ^ f = n * 2 ^ e := by
  obtain ⟨k, rfl⟩ := Int.le.dest h
  have hk : (f + k - f).toNat = k := by omega
  rw [hk, Nat.shiftLeft_eq, zpow_add₀ (by norm_num), zpow_natCast]
  push_cast
  ring

theorem add_eq_normalize {u v : UnpackedFloat} (hu : Stored u) (hv : Stored v)
    (hu' : u.isFinite) (hv' : v.isFinite) :
    ∃ (n : Int) (e : Int) (zeroSign : Sign), -1074 ≤ e ∧ n * 2 ^ e = rational u + rational v ∧
      UnpackedFloat.add Format.binary64 u v =
        UnpackedFloat.normalize Format.binary64 n e zeroSign := by
  have hself (s : Sign) {m : Magnitude} (hm : m.Canonical) :
      .finite s m.significand m.exponent hm.pos = UnpackedFloat.normalize Format.binary64
        (s.apply m.significand) m.exponent .positive := by
    rw [normalize_apply s hm.pos, hm.round_eq s hm.pos hm.nears_value]
  cases hu with
  | infinity | notANumber => cases hu'
  | zero s =>
    cases hv with
    | infinity | notANumber => cases hv'
    | zero t =>
      refine ⟨0, 0, if s == t then s else .positive, by omega, by simp [rational], ?_⟩
      cases s <;> cases t <;> rfl
    | finite t hm => exact ⟨_, _, .positive, hm.least, by simp [rational], hself t hm⟩
  | @finite s m hm =>
    cases hv with
    | infinity | notANumber => cases hv'
    | zero t => exact ⟨_, _, .positive, hm.least, by simp [rational], hself s hm⟩
    | @finite t m' hm' =>
      have hleast := hm.least
      have hleast' := hm'.least
      refine ⟨_, min m.exponent m'.exponent, .positive, by omega, ?_, rfl⟩
      rw [Int.cast_add, add_mul]
      simp only [rational, cast_apply _ (_ <<< _), cast_apply _ m.significand,
        cast_apply _ m'.significand, mul_assoc]
      rw [shiftLeft_mul_zpow _ (by omega), shiftLeft_mul_zpow _ (by omega)]

/-- A sum is finite and has the sign of the exact sum if a number of the format bounds that. -/
theorem add_bounded {u v : UnpackedFloat} (hu : Stored u) (hv : Stored v) (hu' : u.isFinite)
    (hv' : v.isFinite) {bound : ℚ} (hexact : Exact bound)
    (hle : |rational u + rational v| ≤ bound) :
    Stored (UnpackedFloat.add Format.binary64 u v) ∧
      AtMost bound (UnpackedFloat.add Format.binary64 u v) ∧
      SignType.sign (rational (UnpackedFloat.add Format.binary64 u v)) =
        SignType.sign (rational u + rational v) := by
  obtain ⟨n, e, zeroSign, he, hsum, heq⟩ := add_eq_normalize hu hv hu' hv'
  rw [← hsum] at hle ⊢
  rw [heq]
  exact hexact.normalize_le he hle zeroSign

theorem add_atMost {u v : UnpackedFloat} (hu : Stored u) (hv : Stored v) {a b bound : ℚ}
    (ha : AtMost a u) (hb : AtMost b v) (hexact : Exact bound) (hle : a + b ≤ bound) :
    Stored (UnpackedFloat.add Format.binary64 u v) ∧
      AtMost bound (UnpackedFloat.add Format.binary64 u v) := by
  obtain ⟨hu', ha⟩ := atMost_iff.mp ha
  obtain ⟨hv', hb⟩ := atMost_iff.mp hb
  have hsum := (abs_add_le (rational u) (rational v)).trans ((add_le_add ha hb).trans hle)
  obtain ⟨hstored, hatMost, _⟩ := add_bounded hu hv hu' hv' hexact hsum
  exact ⟨hstored, hatMost⟩

theorem sub_eq_add_neg (u v : UnpackedFloat) :
    UnpackedFloat.sub Format.binary64 u v = UnpackedFloat.add Format.binary64 u v.neg := by
  cases u with
  | notANumber => rfl
  | infinity s => cases v <;> rfl
  | zero s => cases v <;> rfl
  | finite s a e ha =>
    cases v with
    | finite t b f hb =>
      simp only [UnpackedFloat.sub, UnpackedFloat.add, UnpackedFloat.neg, apply_neg,
        Int.sub_eq_add_neg]
    | _ => rfl

theorem add_eq_notANumber {u v : UnpackedFloat} (h : u = .notANumber ∨ v = .notANumber) :
    UnpackedFloat.add Format.binary64 u v = .notANumber := by
  rcases h with rfl | rfl
  · rfl
  · cases u <;> rfl

theorem Magnitude.Canonical.value_lt_of_exponent_lt {a b : Magnitude} (ha : a.Canonical)
    (hb : b.Canonical) (h : a.exponent < b.exponent) : a.value < b.value := by
  have hleast := ha.least
  have hnormal : 2 ^ 52 ≤ b.significand := hb.normal.resolve_right (by omega)
  have hnormal' : (2 : ℚ) ^ (52 : Int) ≤ b.significand := by exact_mod_cast hnormal
  calc a.value < 2 ^ (a.exponent + 53) := Magnitude.value_lt ha.lt
    _ ≤ 2 ^ (52 + b.exponent) := zpow_le_zpow_right₀ (by norm_num) (by omega)
    _ = 2 ^ (52 : Int) * 2 ^ b.exponent := zpow_add₀ (by norm_num) _ _
    _ ≤ b.value := mul_le_mul_of_nonneg_right hnormal' (by positivity)

/-- Canonical magnitudes are in the order of their exponents, then of their significands. -/
theorem Magnitude.Canonical.isLE_compare_iff {a b : Magnitude} (ha : a.Canonical)
    (hb : b.Canonical) :
    ((compare a.exponent b.exponent).then (compare a.significand b.significand)).isLE ↔
      a.value ≤ b.value := by
  rcases lt_trichotomy a.exponent b.exponent with h | h | h
  · rw [compare_lt_iff_lt.mpr h]
    exact iff_of_true rfl (ha.value_lt_of_exponent_lt hb h).le
  · have hpower : (0 : ℚ) < 2 ^ b.exponent := by positivity
    rw [compare_eq_iff_eq.mpr h, Ordering.then, Nat.isLE_compare, value, value, h,
      mul_le_mul_iff_left₀ hpower, Nat.cast_le]
  · rw [compare_gt_iff_gt.mpr h]
    exact iff_of_false Bool.false_ne_true (not_le.mpr (hb.value_lt_of_exponent_lt ha h))

theorem natCast_eq {n : Nat} (hpos : 0 < n) (hlt : n < 2 ^ 53) :
    ((n : Nat) : Float) = ofParts .positive _ (Magnitude.canonical_ofNat hpos hlt) := by
  have hm := Magnitude.canonical_ofNat hpos hlt
  have hnears := hm.nears_value
  rw [Magnitude.value_ofNat hlt hpos] at hnears
  exact ofScientific_eq (e := 0) hm hpos (by rwa [zpow_zero, mul_one])

theorem abs_le_natCast_iff {n : Nat} (hn : n < 2 ^ 53) (x : Float) :
    x.abs ≤ (n : Float) ↔ AtMost n (unpacked x) := by
  have hstored := stored_unpacked x
  rw [le_iff, unpacked_abs]
  generalize unpacked x = u at hstored
  rcases Nat.eq_zero_or_pos n with rfl | hpos
  · have hzero : unpacked ((0 : Nat) : Float) = .zero .positive := by rfl
    rw [hzero]
    cases hstored with
    | infinity | notANumber => simp [UnpackedFloat.abs, UnpackedFloat.compare, AtMost]
    | zero => simp [UnpackedFloat.abs, UnpackedFloat.compare, AtMost]
    | finite sign hm =>
      refine iff_of_false nofun (not_le.mpr ?_)
      rw [Nat.cast_zero]
      exact Magnitude.value_pos hm.pos
  · have hm := Magnitude.canonical_ofNat hpos hn
    have hbound : unpacked (n : Float) =
        .finite .positive (Magnitude.ofNat n).significand (Magnitude.ofNat n).exponent hm.pos := by
      rw [natCast_eq hpos hn]
      exact unpacked_ofModel (.finite .positive hm)
    rw [hbound]
    cases hstored with
    | infinity | notANumber => simp [UnpackedFloat.abs, UnpackedFloat.compare, AtMost]
    | zero => simp [UnpackedFloat.abs, UnpackedFloat.compare, AtMost]
    | finite sign hm' =>
      have hle := hm'.isLE_compare_iff hm
      rw [Magnitude.value_ofNat hn hpos] at hle
      exact hle

theorem unpacked_add {x y : Float} {u : UnpackedFloat}
    (h : UnpackedFloat.add Format.binary64 (unpacked x) (unpacked y) = u) (hu : Stored u) :
    unpacked (x + y) = u := by
  subst h
  exact unpacked_ofModel hu

theorem unpacked_sub {x y : Float} {u : UnpackedFloat}
    (h : UnpackedFloat.sub Format.binary64 (unpacked x) (unpacked y) = u) (hu : Stored u) :
    unpacked (x - y) = u := by
  subst h
  exact unpacked_ofModel hu

theorem unpacked_of_isUndefined {x : Float} (h : Scalar.isUndefined x) :
    unpacked x = .notANumber := by
  rw [isUndefined_eq] at h
  cases hx : unpacked x with
  | notANumber => rfl
  | _ => rw [hx] at h; cases h

theorem isUndefined_of_unpacked {x : Float} (h : unpacked x = .notANumber) :
    Scalar.isUndefined x := by
  rw [isUndefined_eq, h]
  rfl

theorem atMost_one_of_inUnit {x : Float} (h : Scalar.inUnit x) : AtMost 1 (unpacked x) := by
  simp only [Scalar.inUnit, Bool.and_eq_true, decide_eq_true_eq] at h
  have hzero : unpacked (0 : Float) = .zero .positive := by rfl
  have hnonneg : (0 : Float) ≤ x := h.1
  have hle : x ≤ ((1 : Nat) : Float) := h.2
  rw [le_iff, hzero] at hnonneg
  rw [le_iff] at hle
  have habs : x.abs ≤ ((1 : Nat) : Float) := by
    rw [le_iff, unpacked_abs]
    cases hx : unpacked x with
    | notANumber => rw [hx] at hnonneg; cases hnonneg
    | infinity s =>
      rw [hx] at hnonneg hle
      cases s with
      | positive => exact hle
      | negative => cases hnonneg
    | zero s => rfl
    | finite s a e ha =>
      rw [hx] at hnonneg hle
      cases s with
      | positive => exact hle
      | negative => cases hnonneg
  exact_mod_cast (abs_le_natCast_iff (by norm_num) x).mp habs

instance : LawfulSums Float where
  abs_abs x := by
    apply abs_eq_of_unpacked
    change (unpacked x.abs).abs = _
    rw [unpacked_abs]
    cases unpacked x <;> rfl
  abs_copySign := abs_copySign
  zero_le_abs x h := by
    rw [isUndefined_eq] at h
    change 0 ≤ x.abs
    rw [le_iff, unpacked_abs]
    cases hx : unpacked x with
    | notANumber => rw [hx] at h; cases h
    | _ => rfl
  abs_le_one x h := by
    refine (abs_le_natCast_iff (by norm_num) x).mpr ?_
    exact_mod_cast atMost_one_of_inUnit h
  isFinite_of_abs_le n x hn h := by
    have hbound := (abs_le_natCast_iff hn x).mp h
    rw [isFinite_eq]
    cases hx : unpacked x with
    | infinity | notANumber => rw [hx] at hbound; exact hbound.elim
    | _ => rfl
  abs_add_le n k x y h hx hy := by
    obtain ⟨hstored, hle⟩ := add_atMost (stored_unpacked x) (stored_unpacked y)
      ((abs_le_natCast_iff (by omega) x).mp hx) ((abs_le_natCast_iff (by omega) y).mp hy)
      (exact_natCast h) (Nat.cast_add n k).ge
    refine (abs_le_natCast_iff h (x + y)).mpr ?_
    rwa [unpacked_add rfl hstored]
  abs_sub_le n k x y h hx hy := by
    obtain ⟨hstored, hle⟩ := add_atMost (stored_unpacked x) (stored_unpacked y).neg
      ((abs_le_natCast_iff (by omega) x).mp hx) ((abs_le_natCast_iff (by omega) y).mp hy).neg
      (exact_natCast h) (Nat.cast_add n k).ge
    refine (abs_le_natCast_iff h (x - y)).mpr ?_
    rwa [unpacked_sub (sub_eq_add_neg _ _) hstored]
  isUndefined_abs x := by
    rw [isUndefined_eq, isUndefined_eq]
    change (unpacked x.abs).isNaN = _
    rw [unpacked_abs]
    cases unpacked x <;> rfl
  isUndefined_add x y h := by
    apply isUndefined_of_unpacked
    refine unpacked_add (add_eq_notANumber ?_) .notANumber
    exact h.imp unpacked_of_isUndefined unpacked_of_isUndefined
  isUndefined_sub x y h := by
    apply isUndefined_of_unpacked
    refine unpacked_sub ((sub_eq_add_neg _ _).trans (add_eq_notANumber ?_)) .notANumber
    refine h.imp unpacked_of_isUndefined ?_
    intro hy
    rw [unpacked_of_isUndefined hy]
    rfl

end RegionDrawing.Binary64
