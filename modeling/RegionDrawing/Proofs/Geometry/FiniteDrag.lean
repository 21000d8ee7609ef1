import RegionDrawing.Proofs.Binary64.Rational
import RegionDrawing.Proofs.Geometry.Drag

/-! # Drags from anywhere

A drag ends on the media, but where it starts is only known to be finite. Near the media all sums
are small. Far off the media the start absorbs the coordinates of the media, so the way back is as
long as the start is far, and no sum leaves the range between the start and zero.
-/
namespace RegionDrawing.Rect

open Binary64 hiding sub_eq_add_neg

/-- A step that leads back and not beyond zero ends between its start and zero. -/
theorem abs_add_le_of_opposite {a b : ℚ} (h : a * b ≤ 0) (hle : |b| ≤ |a|) :
    |a + b| ≤ |a| ∧ 0 ≤ a * (a + b) := by
  have hproduct : -(a * b) = |a| * |b| := by rw [← abs_mul, abs_of_nonpos h]
  have hsquare := mul_self_le_mul_self (abs_nonneg b) hle
  have hshort := mul_le_mul_of_nonneg_left hle (abs_nonneg a)
  have hlong := mul_le_mul_of_nonneg_right hle (abs_nonneg b)
  rw [abs_mul_abs_self, abs_mul_abs_self] at hsquare
  rw [abs_mul_abs_self] at hshort hlong
  constructor
  · rw [← sq_le_sq]
    nlinarith
  · nlinarith

theorem isFinite_toward {x step : Float} (hx : x.isFinite) (hstep : step.isFinite)
    (hle : |toRat step| ≤ |toRat x|) (h : toRat x * toRat step ≤ 0) :
    (x + step).isFinite ∧ (x - (x + step)).isFinite := by
  obtain ⟨hsum, hside⟩ := abs_add_le_of_opposite h hle
  obtain ⟨hfinite, hbound, hsign⟩ := add_bounded_of_le hx hstep (exact_abs_toRat x) hsum
  have hside' : toRat x * -toRat (x + step) ≤ 0 := by
    rw [mul_neg, neg_nonpos, ← sign_nonneg_iff, sign_mul, hsign, ← sign_mul, sign_nonneg_iff]
    exact hside
  obtain ⟨hback, _⟩ := abs_add_le_of_opposite hside' (by rwa [abs_neg])
  rw [← sub_eq_add_neg] at hback
  exact ⟨hfinite, (sub_bounded_of_le hx hfinite (exact_abs_toRat x) hback).1⟩

theorem isFinite_nearby {x step : Float} (hx : x.isFinite) (hstep : step.isFinite)
    (hnear : |toRat x| ≤ absorbing) (hle : |toRat step| ≤ 2 ^ 56) :
    (x + step).isFinite ∧ (x - (x + step)).isFinite := by
  have hsum : |toRat x + toRat step| ≤ 2 ^ 57 :=
    calc |toRat x + toRat step| ≤ |toRat x| + |toRat step| := abs_add_le _ _
      _ ≤ absorbing + 2 ^ 56 := add_le_add hnear hle
      _ ≤ 2 ^ 57 := by norm_num [absorbing]
  obtain ⟨hfinite, hbound, _⟩ := add_bounded_of_le hx hstep (exact_two_pow (by norm_num)) hsum
  have hback : |toRat x - toRat (x + step)| ≤ 2 ^ 58 :=
    calc |toRat x - toRat (x + step)| ≤ |toRat x| + |toRat (x + step)| := abs_sub _ _
      _ ≤ absorbing + 2 ^ 57 := add_le_add hnear hbound
      _ ≤ 2 ^ 58 := by norm_num [absorbing]
  exact ⟨hfinite, (sub_bounded_of_le hx hfinite (exact_two_pow (by norm_num)) hback).1⟩

/-- Whether a machine number can be a length. -/
structure IsLength (a : Float) : Prop where
  isFinite : a.isFinite
  nonneg : 0 ≤ toRat a

namespace IsLength

variable {a b : Float}

theorem abs (h : a.isFinite) : IsLength a.abs :=
  ⟨(isFinite_abs a).trans h, (toRat_abs a).symm ▸ abs_nonneg (toRat a)⟩

theorem greatest (ha : IsLength a) (hb : IsLength b) : IsLength (Scalar.greatest a b) := by
  rcases Scalar.greatest_eq_or a b with h | h
  · rwa [h]
  · rwa [h]

theorem least (ha : IsLength a) (hb : IsLength b) : IsLength (Scalar.least a b) ∧
    toRat (Scalar.least a b) ≤ toRat a ∧ toRat (Scalar.least a b) ≤ toRat b := by
  obtain ⟨hfinite, hvalue⟩ := toRat_least ha.isFinite hb.isFinite
  have hnonneg := le_min ha.nonneg hb.nonneg
  rw [← hvalue] at hnonneg
  exact ⟨⟨hfinite, hnonneg⟩, hvalue.trans_le (min_le_left _ _), hvalue.trans_le (min_le_right _ _)⟩

end IsLength

section Axis

/-- What the media leaves on one axis for a square drag from `start` in the direction of `d`. -/
def room (start d : Float) : Float := if d ≥ 0 then 1 - start else start

variable {start current : Float} (hstart : start.isFinite) (hcurrent : Scalar.inUnit current)
include hstart hcurrent

/-- There is always room, and far off the media it is the way back to the media. -/
theorem room_spec :
    IsLength (room start (current - start)) ∧
      (|toRat start| ≤ absorbing → toRat (room start (current - start)) ≤ 2 ^ 56) ∧
      (absorbing < |toRat start| → toRat (room start (current - start)) = |toRat start|) := by
  have hzero : Scalar.isFinite (0 : Float) := LawfulScalar.isFinite_zero
  have hone : Scalar.isFinite (1 : Float) := LawfulScalar.isFinite_one
  have hlarge : (1 : ℚ) < absorbing := by norm_num [absorbing]
  obtain ⟨hlow, hhigh⟩ := toRat_of_inUnit hcurrent
  obtain ⟨hfinite, hsign, _⟩ :=
    unit_sub hstart (Scalar.isFinite_of_inUnit hcurrent) (abs_toRat_le_one hcurrent)
  have hdirection : current - start ≥ 0 ↔ toRat start ≤ toRat current := by
    rw [ge_iff_le, le_iff_toRat hzero hfinite, toRat_zero, ← sign_nonneg_iff, hsign,
      sign_nonneg_iff, sub_nonneg]
  rw [room]
  split
  · next hforward =>
    have hle := (hdirection.mp hforward).trans hhigh
    obtain ⟨hroom, hsign', hsmall, hback⟩ :=
      unit_sub hstart hone (by rw [toRat_one, abs_one])
    refine ⟨⟨hroom, ?_⟩, fun h => (le_abs_self _).trans (hsmall h), fun h => ?_⟩
    · rw [← sign_nonneg_iff, hsign', sign_nonneg_iff, toRat_one, sub_nonneg]
      exact hle
    · rw [hback h]
      rcases abs_cases (toRat start) with ⟨habs, _⟩ | ⟨habs, _⟩ <;> linarith
  · next hbackward =>
    rw [hdirection, not_le] at hbackward
    have hpos : 0 ≤ toRat start := hlow.trans hbackward.le
    rw [abs_of_nonneg hpos]
    exact ⟨⟨hstart, hpos⟩, fun h => h.trans (by norm_num [absorbing]), fun _ => rfl⟩

theorem isFinite_corner {side : Float} (hside : IsLength side)
    (hfits : toRat side ≤ toRat (room start (current - start))) :
    (start + copySign side (current - start)).isFinite ∧
      (start - (start + copySign side (current - start))).isFinite := by
  obtain ⟨_, hsmall, hback⟩ := room_spec hstart hcurrent
  obtain ⟨hfinite, _, _, hdistance⟩ :=
    unit_sub hstart (Scalar.isFinite_of_inUnit hcurrent) (abs_toRat_le_one hcurrent)
  have hstep : (copySign side (current - start)).isFinite := by
    rw [isFinite_copySign]
    exact hside.isFinite
  have hvalue := toRat_copySign hside.isFinite (current - start)
  rw [abs_of_nonneg hside.nonneg] at hvalue
  rcases le_or_gt |toRat start| absorbing with hnear | hfar
  · have hlength : |toRat (copySign side (current - start))| = toRat side := by
      rw [hvalue, abs_mul, abs_of_nonneg hside.nonneg]
      cases signOf (current - start) <;> simp [Float.Model.UnpackedFloat.Sign.apply]
    exact isFinite_nearby hstart hstep hnear (hlength.trans_le (hfits.trans (hsmall hnear)))
  · rw [hback hfar] at hfits
    have hdirection : toRat (current - start) = -toRat start := hdistance hfar
    have hne : toRat (current - start) ≠ 0 := by
      rw [hdirection, neg_ne_zero, ← abs_pos]
      exact lt_trans (by norm_num [absorbing]) hfar
    rw [signOf_eq hfinite hne, hdirection] at hvalue
    apply isFinite_toward hstart hstep
    · rw [hvalue, abs_mul, abs_of_nonneg hside.nonneg]
      split <;> simpa [Float.Model.UnpackedFloat.Sign.apply] using hfits
    · rw [hvalue]
      split
      · next hpos =>
        simp only [Float.Model.UnpackedFloat.Sign.apply, Int.cast_neg, Int.cast_one]
        nlinarith [hside.nonneg]
      · next hneg =>
        simp only [Float.Model.UnpackedFloat.Sign.apply, Int.cast_one]
        nlinarith [hside.nonneg]

end Axis

theorem isProper_spanning_of_isFinite {p q : Point Float} (hp : p.isFinite) (hq : q.isFinite)
    (hx : (p.x - q.x).isFinite) (hy : (p.y - q.y).isFinite) : (spanning p q).isProper := by
  simp only [Point.isFinite, Bool.and_eq_true] at hp hq
  have hside {a : Float} (ha : a.isFinite) : a.abs.isFinite ∧ 0 ≤ a.abs :=
    ⟨(isFinite_abs a).trans ha,
      LawfulSums.zero_le_abs a (LawfulScalar.isUndefined_of_isFinite a ha)⟩
  simp only [isProper, spanning, ge_iff_le, Bool.and_eq_true, decide_eq_true_eq]
  exact ⟨⟨⟨⟨⟨(toRat_least hp.1 hq.1).1, (toRat_least hp.2 hq.2).1⟩, (hside hx).1⟩, (hside hy).1⟩,
    (hside hx).2⟩, (hside hy).2⟩

theorem isProper_dragged_of_isFinite {start current : Point Float} (hstart : start.isFinite)
    (hcurrent : current.inMedia) (square : Bool) : (dragged start current square).isProper := by
  have hfinite := Point.isFinite_of_inMedia hcurrent
  obtain ⟨hstartX, hstartY⟩ : start.x.isFinite ∧ start.y.isFinite :=
    Bool.and_eq_true_iff.mp hstart
  obtain ⟨hcurrentX, hcurrentY⟩ : Scalar.inUnit current.x ∧ Scalar.inUnit current.y :=
    Bool.and_eq_true_iff.mp hcurrent
  cases square with
  | false =>
    exact isProper_spanning_of_isFinite hstart hfinite
      (isFinite_sub_unit hstartX (Scalar.isFinite_of_inUnit hcurrentX) (abs_toRat_le_one hcurrentX))
      (isFinite_sub_unit hstartY (Scalar.isFinite_of_inUnit hcurrentY) (abs_toRat_le_one hcurrentY))
  | true =>
    obtain ⟨hroomX, _⟩ := room_spec hstartX hcurrentX
    obtain ⟨hroomY, _⟩ := room_spec hstartY hcurrentY
    have hdistance {s c : Float} (hs : s.isFinite) (hc : Scalar.inUnit c) : IsLength (c - s).abs :=
      .abs (unit_sub hs (Scalar.isFinite_of_inUnit hc) (abs_toRat_le_one hc)).1
    have hlonger := (hdistance hstartX hcurrentX).greatest (hdistance hstartY hcurrentY)
    obtain ⟨hinner, _, hfitsX⟩ := hlonger.least hroomX
    obtain ⟨hside, hle, hfitsY⟩ := hinner.least hroomY
    obtain ⟨hcornerX, hwayX⟩ := isFinite_corner hstartX hcurrentX hside (hle.trans hfitsX)
    obtain ⟨hcornerY, hwayY⟩ := isFinite_corner hstartY hcurrentY hside hfitsY
    exact isProper_spanning_of_isFinite hstart (Bool.and_eq_true_iff.mpr ⟨hcornerX, hcornerY⟩)
      hwayX hwayY

end RegionDrawing.Rect
