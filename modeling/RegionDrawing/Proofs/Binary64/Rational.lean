import RegionDrawing.Proofs.Binary64.Sums

/-! # Machine numbers as rational numbers

A finite machine number stands for a rational number, and its order, its absolute value and its
sign are those of that number. Sums are rounded: a bounded one keeps its sign, and a large number
absorbs one of the unit interval.
-/
namespace RegionDrawing.Binary64

open Float.Model UnpackedFloat

/-- The rational number that a finite machine number stands for. -/
def toRat (x : Float) : ℚ := rational (unpacked x)

variable {x y : Float}

theorem toRat_zero : toRat 0 = 0 := rfl

theorem toRat_one : toRat 1 = 1 := by
  have hm := Magnitude.canonical_ofNat Nat.one_pos (by norm_num)
  have hone : unpacked (1 : Float) = .finite .positive (Magnitude.ofNat 1).significand
      (Magnitude.ofNat 1).exponent hm.pos := by
    have heq : (1 : Float) = ((1 : Nat) : Float) := rfl
    rw [heq, natCast_eq Nat.one_pos (by norm_num)]
    exact unpacked_ofModel (.finite .positive hm)
  have hvalue := Magnitude.value_ofNat (n := 1) (by norm_num) Nat.one_pos
  rw [toRat, hone]
  exact hvalue.trans Nat.cast_one

theorem rational_finite (sign : Sign) {m : Magnitude} (hm : m.Canonical) :
    rational (.finite sign m.significand m.exponent hm.pos) = sign.apply 1 * m.value := by
  rw [rational, cast_apply, mul_assoc]
  rfl

theorem isLE_compare_iff {u v : UnpackedFloat} (hu : Stored u) (hv : Stored v)
    (hu' : u.isFinite) (hv' : v.isFinite) :
    (u.compare v).any (·.isLE) ↔ rational u ≤ rational v := by
  have hpositive {m : Magnitude} (hm : m.Canonical) : 0 < m.value := Magnitude.value_pos hm.pos
  cases hu with
  | infinity | notANumber => cases hu'
  | zero s =>
    cases hv with
    | infinity | notANumber => cases hv'
    | zero t => exact iff_of_true rfl le_rfl
    | finite t hm =>
      have hm' := hpositive hm
      rw [rational_finite t hm]
      cases t with
      | positive => exact iff_of_true rfl (by simpa [rational, Sign.apply] using hm'.le)
      | negative => exact iff_of_false Bool.false_ne_true (by simpa [rational, Sign.apply] using hm')
  | @finite s a ha =>
    have ha' := hpositive ha
    cases hv with
    | infinity | notANumber => cases hv'
    | zero t =>
      rw [rational_finite s ha]
      cases s with
      | positive => exact iff_of_false Bool.false_ne_true (by simpa [rational, Sign.apply] using ha')
      | negative => exact iff_of_true rfl (by simpa [rational, Sign.apply] using ha'.le)
    | @finite t b hb =>
      have hb' := hpositive hb
      rw [rational_finite s ha, rational_finite t hb]
      cases s <;> cases t <;> simp only [Sign.apply, Int.cast_neg, Int.cast_one]
      · rw [neg_one_mul, neg_one_mul, neg_le_neg_iff, ← hb.isLE_compare_iff ha]
        show ((compare a.exponent b.exponent).then (compare a.significand b.significand)).swap.isLE
          ↔ _
        rw [Ordering.swap_then, Int.compare_swap, Nat.compare_swap]
      · exact iff_of_true rfl (by linarith)
      · exact iff_of_false Bool.false_ne_true (by linarith)
      · rw [one_mul, one_mul]
        exact ha.isLE_compare_iff hb

theorem le_iff_toRat (hx : x.isFinite) (hy : y.isFinite) : x ≤ y ↔ toRat x ≤ toRat y := by
  rw [le_iff]
  exact isLE_compare_iff (stored_unpacked x) (stored_unpacked y) hx hy

theorem lt_iff_toRat (hx : x.isFinite) (hy : y.isFinite) : x < y ↔ toRat x < toRat y := by
  rw [← not_le, ← le_iff_toRat hy hx, le_iff, lt_iff, compare_swap (unpacked x)]
  cases horder : (unpacked x).compare (unpacked y) with
  | none =>
    have hx' := LawfulScalar.isUndefined_of_isFinite x hx
    have hy' := LawfulScalar.isUndefined_of_isFinite y hy
    rw [isUndefined_eq] at hx' hy'
    simp [compare_eq_none_iff, hx', hy'] at horder
  | some order => cases order <;> simp

/-- Where a number stands on the line that ends in the two infinities. -/
def level : UnpackedFloat → WithBot (WithTop ℚ)
  | .infinity .positive => ⊤
  | .infinity .negative => ⊥
  | u => ((rational u : WithTop ℚ) : WithBot (WithTop ℚ))

theorem isLE_compare_iff_level {u v : UnpackedFloat} (hu : Stored u) (hv : Stored v)
    (hu' : u.isNaN = false) (hv' : v.isNaN = false) :
    (u.compare v).any (·.isLE) ↔ level u ≤ level v := by
  have hlevel {w : UnpackedFloat} (hw : w.isFinite) : level w = (rational w : WithTop ℚ) := by
    cases w <;> first | rfl | cases hw
  have hfinite (hu'' : u.isFinite) (hv'' : v.isFinite) :
      (u.compare v).any (·.isLE) ↔ level u ≤ level v := by
    rw [hlevel hu'', hlevel hv'', WithBot.coe_le_coe, WithTop.coe_le_coe]
    exact isLE_compare_iff hu hv hu'' hv''
  cases u with
  | notANumber => cases hu'
  | infinity s =>
    cases v with
    | notANumber => cases hv'
    | infinity t => cases s <;> cases t <;> simp [UnpackedFloat.compare, level] <;> decide
    | zero t => cases s <;> simp [UnpackedFloat.compare, level]
    | finite t m e hm => cases s <;> simp [UnpackedFloat.compare, level]
  | zero s =>
    cases v with
    | notANumber => cases hv'
    | infinity t => cases t <;> simp [UnpackedFloat.compare, level]
    | zero t => exact hfinite rfl rfl
    | finite t m e hm => exact hfinite rfl rfl
  | finite s m e hm =>
    cases v with
    | notANumber => cases hv'
    | infinity t => cases s <;> cases t <;> simp [UnpackedFloat.compare, level]
    | zero t => exact hfinite rfl rfl
    | finite t m' e' hm' => exact hfinite rfl rfl

theorem isUndefined_of_le (h : x ≤ y) :
    Scalar.isUndefined x = false ∧ Scalar.isUndefined y = false := by
  rw [le_iff] at h
  rw [isUndefined_eq, isUndefined_eq]
  constructor
  · cases hx : (unpacked x).isNaN with
    | false => rfl
    | true =>
      rw [(compare_eq_none_iff _ _).mpr (.inl hx)] at h
      cases h
  · cases hy : (unpacked y).isNaN with
    | false => rfl
    | true =>
      rw [(compare_eq_none_iff _ _).mpr (.inr hy)] at h
      cases h

instance : LawfulOrder Float where
  isUndefined_of_le _ _ h := isUndefined_of_le h
  le_of_lt x y h := by
    rw [lt_iff] at h
    rw [le_iff, h]
    rfl
  not_lt_of_le x y h hback := by
    rw [lt_iff] at hback
    rw [le_iff, compare_swap (unpacked y), hback] at h
    cases h
  le_trans x y z hxy hyz := by
    obtain ⟨hx, hy⟩ := isUndefined_of_le hxy
    have hz := (isUndefined_of_le hyz).2
    rw [isUndefined_eq] at hx hy hz
    rw [le_iff, isLE_compare_iff_level (stored_unpacked _) (stored_unpacked _) hx hy] at hxy
    rw [le_iff, isLE_compare_iff_level (stored_unpacked _) (stored_unpacked _) hy hz] at hyz
    rw [le_iff, isLE_compare_iff_level (stored_unpacked _) (stored_unpacked _) hx hz]
    exact hxy.trans hyz

theorem toRat_least (hx : x.isFinite) (hy : y.isFinite) :
    (Scalar.least x y).isFinite ∧ toRat (Scalar.least x y) = min (toRat x) (toRat y) := by
  rw [Scalar.least, LawfulScalar.isUndefined_of_isFinite x hx, if_neg Bool.false_ne_true]
  split
  · next hlt => exact ⟨hy, (min_eq_right ((lt_iff_toRat hy hx).mp hlt).le).symm⟩
  · next hlt =>
    rw [lt_iff_toRat hy hx, not_lt] at hlt
    exact ⟨hx, (min_eq_left hlt).symm⟩

theorem toRat_of_inUnit (h : Scalar.inUnit x) : 0 ≤ toRat x ∧ toRat x ≤ 1 := by
  have hx : x.isFinite := Scalar.isFinite_of_inUnit h
  simp only [Scalar.inUnit, Bool.and_eq_true, decide_eq_true_eq] at h
  have hzero : Scalar.isFinite (0 : Float) := LawfulScalar.isFinite_zero
  have hone : Scalar.isFinite (1 : Float) := LawfulScalar.isFinite_one
  have hlow := (le_iff_toRat hzero hx).mp h.1
  have hhigh := (le_iff_toRat hx hone).mp h.2
  rw [toRat_zero] at hlow
  rw [toRat_one] at hhigh
  exact ⟨hlow, hhigh⟩

theorem abs_toRat_le_one (h : Scalar.inUnit x) : |toRat x| ≤ 1 := by
  obtain ⟨hlow, hhigh⟩ := toRat_of_inUnit h
  rwa [abs_of_nonneg hlow]

theorem isFinite_abs (x : Float) : x.abs.isFinite = x.isFinite := by
  show (unpacked x.abs).isFinite = (unpacked x).isFinite
  rw [unpacked_abs]
  cases unpacked x <;> rfl

theorem toRat_abs (x : Float) : toRat x.abs = |toRat x| := by
  rw [toRat, toRat, unpacked_abs]
  cases unpacked x with
  | finite sign significand exponent =>
    rw [rational, abs_apply_mul_zpow]
    rfl
  | _ => exact abs_zero.symm

theorem exact_abs_toRat (x : Float) : Exact |toRat x| := by
  have hstored := stored_unpacked x
  rw [toRat]
  generalize unpacked x = u at hstored
  cases hstored with
  | @finite sign m hm =>
    rw [rational, abs_apply_mul_zpow]
    exact .inr ⟨m, hm, rfl⟩
  | _ => exact .inl abs_zero

theorem exact_two_pow {k : Nat} (h : k ≤ 1023) : Exact (2 ^ k) := by
  have hm : Magnitude.Canonical ⟨2 ^ 52, (k : Int) - 52⟩ :=
    ⟨by positivity, by norm_num, by dsimp only; omega, by dsimp only; omega, .inl le_rfl⟩
  refine .inr ⟨_, hm, ?_⟩
  rw [Magnitude.value, zpow_sub₀ (by norm_num), zpow_natCast, zpow_ofNat, Nat.cast_pow,
    Nat.cast_ofNat]
  field_simp

theorem unpacked_eq_finite (hx : x.isFinite) (hne : toRat x ≠ 0) :
    ∃ hm : (Magnitude.ofFloat x).Canonical, 0 < Magnitude.unsignedBits x ∧
      unpacked x = .finite (signOf x) (Magnitude.ofFloat x).significand
        (Magnitude.ofFloat x).exponent hm.pos := by
  have hpos : 0 < Magnitude.unsignedBits x := by
    apply Nat.pos_of_ne_zero
    intro hzero
    apply hne
    have hsignificand : (Magnitude.ofFloat x).significand = 0 := by
      rw [Magnitude.ofFloat, hzero]
      rfl
    rw [eq_zero_of_ofFloat hsignificand]
    split <;> rfl
  have hm := Magnitude.canonical_ofBits hpos (unsignedBits_lt hx)
  have hparts := congrArg unpacked (eq_ofParts hpos (unsignedBits_lt hx))
  exact ⟨hm, hpos, hparts.trans (unpacked_ofModel (.finite (signOf x) hm))⟩

theorem signOf_eq (hx : x.isFinite) (hne : toRat x ≠ 0) :
    signOf x = if toRat x < 0 then .negative else .positive := by
  obtain ⟨hm, _, hunpacked⟩ := unpacked_eq_finite hx hne
  have hpositive := Magnitude.value_pos hm.pos
  have hvalue : toRat x = (signOf x).apply 1 * (Magnitude.ofFloat x).value := by
    rw [toRat, hunpacked, rational_finite _ hm]
  cases hsign : signOf x with
  | negative =>
    rw [hsign] at hvalue
    rw [if_pos]
    simpa [hvalue, Sign.apply] using hpositive
  | positive =>
    rw [hsign] at hvalue
    rw [if_neg]
    simpa [hvalue, Sign.apply] using hpositive.le

theorem isFinite_copySign (x y : Float) : (copySign x y).isFinite = x.isFinite := by
  rw [← isFinite_abs, abs_copySign, isFinite_abs]

theorem toRat_copySign (hx : x.isFinite) (y : Float) :
    toRat (copySign x y) = (signOf y).apply 1 * |toRat x| := by
  rcases eq_or_ne (toRat x) 0 with hzero | hne
  · have habs := toRat_abs (copySign x y)
    rw [abs_copySign, toRat_abs, hzero, abs_zero, eq_comm, abs_eq_zero] at habs
    rw [habs, hzero, abs_zero, mul_zero]
  obtain ⟨hm, hpos, hunpacked⟩ := unpacked_eq_finite hx hne
  have hlt := unsignedBits_lt hx
  have hsign : (if Magnitude.isNegative y then Magnitude.signBit else 0) =
      (signOf y).toBitVec.toNat * 2 ^ 63 := by
    rw [signOf]
    cases Magnitude.isNegative y <;> decide
  have hbits : (UInt64.ofNat ((if Magnitude.isNegative y then Magnitude.signBit else 0) +
      Magnitude.unsignedBits x)).toBitVec.toNat =
        (signOf y).toBitVec.toNat * 2 ^ 63 + Magnitude.unsignedBits x := by
    have hbit := (signOf y).toBitVec.isLt
    change (UInt64.ofNat _).toNat = _
    rw [UInt64.toNat_ofNat', hsign]
    omega
  have hvalue : |toRat x| = (Magnitude.ofFloat x).value := by
    rw [toRat, hunpacked, rational, abs_apply_mul_zpow]
    rfl
  rw [toRat, copySign, unpacked_ofBits, unpack_eq_finite hpos hlt (signOf y) hbits, hvalue]
  exact rational_finite (signOf y) hm

theorem isFinite_neg (x : Float) : (unpacked x).neg.isFinite = x.isFinite := by
  show _ = (unpacked x).isFinite
  cases unpacked x <;> rfl

theorem rational_neg (u : UnpackedFloat) : rational u.neg = -rational u := by
  cases u with
  | finite sign significand exponent =>
    cases sign <;> simp [UnpackedFloat.neg, rational, Sign.apply]
  | _ => exact neg_zero.symm

/-- A sum is finite and has the sign of the exact sum if a number of the format bounds that. -/
theorem add_bounded_of_le (hx : x.isFinite) (hy : y.isFinite) {bound : ℚ} (hexact : Exact bound)
    (hle : |toRat x + toRat y| ≤ bound) :
    (x + y).isFinite ∧ |toRat (x + y)| ≤ bound ∧
      SignType.sign (toRat (x + y)) = SignType.sign (toRat x + toRat y) := by
  obtain ⟨hstored, hbound, hsign⟩ :=
    add_bounded (stored_unpacked x) (stored_unpacked y) hx hy hexact hle
  have hsum : unpacked (x + y) = _ := unpacked_add rfl hstored
  obtain ⟨hfinite, habs⟩ := atMost_iff.mp hbound
  rw [← hsum] at hfinite habs hsign
  exact ⟨hfinite, habs, hsign⟩

theorem sub_bounded_of_le (hx : x.isFinite) (hy : y.isFinite) {bound : ℚ} (hexact : Exact bound)
    (hle : |toRat x - toRat y| ≤ bound) :
    (x - y).isFinite ∧ |toRat (x - y)| ≤ bound ∧
      SignType.sign (toRat (x - y)) = SignType.sign (toRat x - toRat y) := by
  have hneg : toRat x - toRat y = rational (unpacked x) + rational (unpacked y).neg := by
    rw [rational_neg]
    show toRat x - toRat y = toRat x + -toRat y
    ring
  rw [hneg] at hle ⊢
  obtain ⟨hstored, hbound, hsign⟩ := add_bounded (stored_unpacked x) (stored_unpacked y).neg hx
    ((isFinite_neg y).trans hy) hexact hle
  have hsum : unpacked (x - y) = _ := unpacked_sub (sub_eq_add_neg _ _) hstored
  obtain ⟨hfinite, habs⟩ := atMost_iff.mp hbound
  rw [← hsum] at hfinite habs hsign
  exact ⟨hfinite, habs, hsign⟩

/-- Numbers from here on lose nothing by what lies within a unit: the last bit counts for more. -/
def absorbing : ℚ := 2 ^ 55

theorem Magnitude.Canonical.exponent_of_absorbing_lt {m : Magnitude} (hm : m.Canonical)
    (h : absorbing < m.value) : 3 ≤ m.exponent := by
  have hpower : (2 : ℚ) ^ (55 : Int) < 2 ^ (m.exponent + 53) := by
    have hlt := h.trans (Magnitude.value_lt hm.lt)
    exact_mod_cast hlt
  have hexponent := (zpow_lt_zpow_iff_right₀ (by norm_num)).mp hpower
  omega

/-- A sum that is off a large number by a unit at most is rounded to it. -/
theorem add_eq_of_abs_sub_le {u v w : UnpackedFloat} (hu : Stored u) (hv : Stored v)
    (hu' : u.isFinite) (hv' : v.isFinite) (hw : Stored w) (hlarge : absorbing < |rational w|)
    (h : |rational u + rational v - rational w| ≤ 1) :
    UnpackedFloat.add Format.binary64 u v = w := by
  obtain ⟨n, e, zeroSign, _, hsum, heq⟩ := add_eq_normalize hu hv hu' hv'
  rw [← hsum] at h
  cases hw with
  | infinity | notANumber | zero => norm_num [rational, absorbing] at hlarge
  | @finite sign m hm =>
    have habs : |rational (.finite sign m.significand m.exponent hm.pos)| = m.value := by
      rw [rational, abs_apply_mul_zpow]
      rfl
    rw [habs] at hlarge
    rw [rational_finite sign hm] at h
    have hclose : |((sign.apply n : Int) * 2 ^ e : ℚ) - m.value| ≤ 1 := by
      cases sign with
      | positive => simpa [Sign.apply] using h
      | negative =>
        rw [← abs_neg] at h
        convert h using 2
        simp only [Sign.apply, Int.cast_neg, Int.cast_one]
        ring
    have hpos : 0 < sign.apply n := by
      have hpower : (0 : ℚ) < 2 ^ e := by positivity
      have hlarge' : (1 : ℚ) < m.value := lt_trans (by norm_num [absorbing]) hlarge
      have hproduct : 0 < ((sign.apply n : Int) * 2 ^ e : ℚ) := by linarith [(abs_le.mp hclose).1]
      exact_mod_cast (mul_pos_iff_of_pos_right hpower).mp hproduct
    obtain ⟨k, hk⟩ := Int.eq_ofNat_of_zero_le hpos.le
    obtain rfl : n = sign.apply k := by
      cases sign <;> simp only [Sign.apply] at hk ⊢ <;> omega
    rw [hk, Int.cast_natCast] at hclose
    have hpos' : 0 < k := by omega
    have hunit : (8 : ℚ) ≤ 2 ^ m.exponent := by
      have hpower : (2 : ℚ) ^ (3 : Int) ≤ 2 ^ m.exponent :=
        zpow_le_zpow_right₀ (by norm_num) (hm.exponent_of_absorbing_lt hlarge)
      exact hpower.trans_eq' (by norm_num)
    rw [heq, normalize_apply sign hpos']
    exact hm.round_eq sign hpos' (hm.nears_of_abs_sub_lt (by linarith))

section Absorption

variable (hx : x.isFinite) (hlarge : absorbing < |toRat x|) (hy : y.isFinite)
  (hunit : |toRat y| ≤ 1)
include hx hlarge hy hunit

theorem large_sub : (x - y).isFinite ∧ toRat (x - y) = toRat x := by
  have hsum := add_eq_of_abs_sub_le (stored_unpacked x) (stored_unpacked y).neg hx
    ((isFinite_neg y).trans hy) (stored_unpacked x) hlarge (by
      rwa [add_sub_cancel_left, rational_neg, abs_neg])
  have hsub : unpacked (x - y) = unpacked x :=
    unpacked_sub ((sub_eq_add_neg _ _).trans hsum) (stored_unpacked x)
  refine ⟨?_, congrArg rational hsub⟩
  show (unpacked (x - y)).isFinite = true
  rw [hsub]
  exact hx

theorem sub_large : (y - x).isFinite ∧ toRat (y - x) = -toRat x := by
  have hsum := add_eq_of_abs_sub_le (stored_unpacked y) (stored_unpacked x).neg hy
    ((isFinite_neg x).trans hx) (stored_unpacked x).neg (by rwa [rational_neg, abs_neg]) (by
      rwa [add_sub_cancel_right])
  have hsub : unpacked (y - x) = (unpacked x).neg :=
    unpacked_sub ((sub_eq_add_neg _ _).trans hsum) (stored_unpacked x).neg
  refine ⟨?_, (congrArg rational hsub).trans (rational_neg _)⟩
  show (unpacked (y - x)).isFinite = true
  rw [hsub, isFinite_neg]
  exact hx

end Absorption

/-- The difference of a number of the unit interval and any other has the sign of the exact one. -/
theorem unit_sub (hx : x.isFinite) (hy : y.isFinite) (hunit : |toRat y| ≤ 1) :
    (y - x).isFinite ∧ SignType.sign (toRat (y - x)) = SignType.sign (toRat y - toRat x) ∧
      (|toRat x| ≤ absorbing → |toRat (y - x)| ≤ 2 ^ 56) ∧
      (absorbing < |toRat x| → toRat (y - x) = -toRat x) := by
  have hone : (1 : ℚ) < absorbing := by norm_num [absorbing]
  rcases le_or_gt |toRat x| absorbing with hsmall | hlarge
  · have hbound : |toRat y - toRat x| ≤ 2 ^ 56 :=
      calc |toRat y - toRat x| ≤ |toRat y| + |toRat x| := abs_sub _ _
        _ ≤ 1 + absorbing := add_le_add hunit hsmall
        _ ≤ 2 ^ 56 := by norm_num [absorbing]
    obtain ⟨hfinite, hle, hsign⟩ := sub_bounded_of_le hy hx (exact_two_pow (by norm_num)) hbound
    exact ⟨hfinite, hsign, fun _ => hle, fun hlarge => absurd hsmall (not_le.mpr hlarge)⟩
  · obtain ⟨hfinite, hvalue⟩ := sub_large hx hlarge hy hunit
    obtain ⟨hlow, hhigh⟩ := abs_le.mp hunit
    refine ⟨hfinite, ?_, fun hsmall => absurd hsmall (not_le.mpr hlarge), fun _ => hvalue⟩
    rw [hvalue]
    rcases lt_or_ge (toRat x) 0 with hneg | hpos
    · rw [abs_of_neg hneg] at hlarge
      rw [sign_pos (by linarith), sign_pos (by linarith)]
    · rw [abs_of_nonneg hpos] at hlarge
      rw [sign_neg (by linarith), sign_neg (by linarith)]

theorem isFinite_sub_unit (hx : x.isFinite) (hy : y.isFinite) (hunit : |toRat y| ≤ 1) :
    (x - y).isFinite := by
  rcases le_or_gt |toRat x| absorbing with hsmall | hlarge
  · have hbound : |toRat x - toRat y| ≤ 2 ^ 56 :=
      calc |toRat x - toRat y| ≤ |toRat x| + |toRat y| := abs_sub _ _
        _ ≤ absorbing + 1 := add_le_add hsmall hunit
        _ ≤ 2 ^ 56 := by norm_num [absorbing]
    exact (sub_bounded_of_le hx hy (exact_two_pow (by norm_num)) hbound).1
  · exact (large_sub hx hlarge hy hunit).1

end RegionDrawing.Binary64
