import RegionDrawing.Geometry.Rect
import RegionDrawing.Proofs.Geometry.Media
import RegionDrawing.Proofs.Scalar.Sums

/-! # Dragged rectangles

A drag between points of the media spans a rectangle whose numbers are bounded. If its sides are
above some size, they are defined, and then the rectangle is a proper one. That also holds where a
point has no defined coordinates.
-/
namespace RegionDrawing

variable {α : Type} [Scalar α]

/-- Whether both coordinates of a point, if they are defined, are bounded by a whole number. -/
def Point.Within (n : Nat) (p : Point α) : Prop := Scalar.Within n p.x ∧ Scalar.Within n p.y

theorem Point.Within.mono {n k : Nat} {p : Point α} (h : p.Within n) (hle : n ≤ k) : p.Within k :=
  ⟨h.1.mono hle, h.2.mono hle⟩

variable [LawfulScalar α] [LawfulSums α]

open LawfulScalar LawfulSums

theorem Scalar.within_clampUnit (a : α) : Within 1 (clampUnit a) := by
  cases h : isUndefined a with
  | true => exact .inl (by rw [isUndefined_clampUnit, h])
  | false => exact .of_inUnit (inUnit_clampUnit h)

theorem Point.within_clamped (p : Point α) : p.clamped.Within 1 :=
  ⟨Scalar.within_clampUnit p.x, Scalar.within_clampUnit p.y⟩

namespace Rect

open Scalar (Within)

omit [LawfulScalar α] in
theorem isFinite_span {n : Nat} {a b : α} (ha : Within n a) (hb : Within n b)
    (hn : n + n < 2 ^ 53) (h : Scalar.isUndefined (Scalar.abs (a - b)) = false) :
    Scalar.isFinite (Scalar.least a b) ∧ Scalar.isFinite (Scalar.abs (a - b)) ∧
      0 ≤ Scalar.abs (a - b) := by
  have hdistance : Scalar.isUndefined (a - b) = false := (isUndefined_abs _).symm.trans h
  obtain ⟨hdefined, hdefined'⟩ := Scalar.isUndefined_of_sub hdistance
  have hleast : Scalar.isUndefined (Scalar.least a b) = false := by
    rcases Scalar.least_eq_or a b with heq | heq
    · rwa [heq]
    · rwa [heq]
  exact ⟨(ha.least hb).isFinite (by omega) hleast, (ha.sub hb hn).abs.isFinite hn h,
    zero_le_abs _ hdistance⟩

theorem isProper_spanning {n : Nat} {p q : Point α} (hp : p.Within n) (hq : q.Within n)
    (hn : n + n < 2 ^ 53) {size : α} (h : (spanning p q).exceeds size) :
    (spanning p q).isProper := by
  simp only [exceeds, spanning, gt_iff_lt, Bool.and_eq_true, decide_eq_true_eq] at h
  obtain ⟨hx, hwidth, hwidth'⟩ := isFinite_span hp.1 hq.1 hn
    (Scalar.isUndefined_of_lt h.1).2
  obtain ⟨hy, hheight, hheight'⟩ := isFinite_span hp.2 hq.2 hn
    (Scalar.isUndefined_of_lt h.2).2
  simp only [isProper, spanning, ge_iff_le, Bool.and_eq_true, decide_eq_true_eq]
  exact ⟨⟨⟨⟨⟨hx, hy⟩, hwidth⟩, hheight⟩, hwidth'⟩, hheight'⟩

theorem dragged_eq_spanning {start current : Point α} (hstart : start.Within 1)
    (hcurrent : current.Within 1) (square : Bool) :
    ∃ corner, dragged start current square = spanning start corner ∧ corner.Within 3 := by
  cases square with
  | false => exact ⟨current, rfl, hcurrent.mono (by omega)⟩
  | true =>
    have hone : Within 1 (1 : α) := by
      apply Within.of_inUnit
      simp only [Scalar.inUnit, Bool.and_eq_true, decide_eq_true_eq]
      exact ⟨LawfulScalar.zero_le_one, le_self 1 (isUndefined_of_isFinite 1 isFinite_one)⟩
    have hroom (a d : α) (ha : Within 1 a) : Within 2 (if d ≥ 0 then 1 - a else a) := by
      split
      · exact hone.sub ha (by omega)
      · exact ha.mono (by omega)
    refine ⟨_, if_pos rfl, ?_⟩
    have hside := (((hcurrent.1.sub hstart.1 (by omega)).abs.greatest
      (hcurrent.2.sub hstart.2 (by omega)).abs).least
        (hroom start.x (current.x - start.x) hstart.1)).least
          (hroom start.y (current.y - start.y) hstart.2)
    exact ⟨hstart.1.add (hside.copySign _) (by omega), hstart.2.add (hside.copySign _) (by omega)⟩

/-- A drag of a pointer over the media or off it gives a proper rectangle if both sides are above
a size. -/
theorem isProper_dragged (p q : Point α) (square : Bool) {size : α}
    (h : (dragged p.clamped q.clamped square).exceeds size) :
    (dragged p.clamped q.clamped square).isProper := by
  obtain ⟨corner, heq, hcorner⟩ := dragged_eq_spanning p.within_clamped q.within_clamped square
  rw [heq] at h ⊢
  exact isProper_spanning (p.within_clamped.mono (by omega)) hcorner (by omega) h

end Rect

end RegionDrawing
