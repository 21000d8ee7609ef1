import Mathlib
import RegionDrawing.Input
import RegionDrawing.Binary64.Scalar
import RegionDrawing.Proofs.Geometry.SquareDrag
import RegionDrawing.Proofs.Scalar.Signed

/-! # Square drags and the sign of zero

A square drag finds its room by comparing distances with zero, but its direction by their signs.
The two disagree where the distance is a negative zero, which is so exactly on the way from the
positive zero to the negative one. There the square lies on the other side of the edge; in all
other cases the signs of zeros do not matter.
-/
namespace RegionDrawing

variable {K : Type} [FieldScalar K]

def Point.value (p : Point (Signed K)) : Point K := ⟨p.x.value, p.y.value⟩

def Rect.value (r : Rect (Signed K)) : Rect K :=
  ⟨r.x.value, r.y.value, r.width.value, r.height.value⟩

theorem Point.inMedia_value (p : Point (Signed K)) : p.value.inMedia = p.inMedia := rfl

theorem Point.clamped_eq {p : Point (Signed K)} (h : p.inMedia) : p.clamped = p := by
  obtain ⟨hx, hy⟩ := Bool.and_eq_true_iff.mp h
  rw [clamped, Signed.clampUnit_eq hx, Signed.clampUnit_eq hy]

namespace Rect

variable [ExactScalar K] {start current : Point (Signed K)}

theorem value_spanning (p q : Point (Signed K)) :
    (spanning p q).value = spanning p.value q.value := by
  simp only [value, spanning, Signed.value_least, Signed.value_abs, Signed.value_sub,
    Scalar.least_eq, ExactScalar.abs_eq, Point.value]

/-- The square of a drag lies in the direction of the signs of its distances. -/
theorem value_dragged (hstart : start.inMedia) (current : Point (Signed K)) :
    (dragged start current true).value =
      squareAt start.value (current.x - start.x).negative (current.y - start.y).negative
        (squareSide start.value current.value) := by
  have hside := squareSide_nonneg (start.inMedia_value.trans hstart) current.value
  have hroom (a b : Signed K) : (if b - a ≥ 0 then 1 - a else a).value =
      roomToward (decide (b.value < a.value)) a.value := by
    rw [← room_eq, apply_ite Signed.value]
    rfl
  have hspan (side : Signed K) (h : side.value = squareSide start.value current.value) :
      (spanning start ⟨start.x + Scalar.copySign side (current.x - start.x),
        start.y + Scalar.copySign side (current.y - start.y)⟩).value =
        squareAt start.value (current.x - start.x).negative (current.y - start.y).negative
          (squareSide start.value current.value) := by
    have hstep (d : Signed K) : (Scalar.copySign side d).value =
        if d.negative then -squareSide start.value current.value
        else squareSide start.value current.value := by
      rw [Signed.value_copySign, h, abs_of_nonneg hside]
    rw [value_spanning, ← spanning_step start.value _ _ hside]
    simp only [Point.value, Signed.value_add, hstep]
  rw [dragged, if_pos rfl]
  apply hspan
  simp only [Signed.value_least, Signed.value_greatest, Signed.value_abs, Signed.value_sub, hroom]
  rfl

/-- A square drag on the media, whose ends come out of pointer events as they are, is that of their
values exactly if no zero is flipped from start to end on an axis, or if it has no extent. In the
other cases it leads off the media. So zeros with other signs change it exactly if it has an extent
and they are flipped on an axis where they were not, or no longer where they were. -/
theorem square_drag_by_zero_signs (hstart : start.inMedia) (hcurrent : current.inMedia) :
    let drag := (dragged start current true).value
    let exact := dragged start.value current.value true
    let flipped := Signed.FlipsZero start.x current.x ∨ Signed.FlipsZero start.y current.y
    (∀ modifiers, (PointerEvent.ofPosition start modifiers).point = start ∧
      (PointerEvent.ofPosition current modifiers).point = current) ∧
    (drag = exact ↔ ¬ (exact.width ≠ 0 ∧ flipped)) ∧
    (drag.LiesIn media ↔ ¬ (exact.width ≠ 0 ∧ flipped)) ∧
    ∀ start' current' : Point (Signed K),
      start'.value = start.value → current'.value = current.value →
      ((dragged start' current' true).value = drag ↔ exact.width = 0 ∨
        (Signed.FlipsZero start'.x current'.x ↔ Signed.FlipsZero start.x current.x) ∧
        (Signed.FlipsZero start'.y current'.y ↔ Signed.FlipsZero start.y current.y)) := by
  intro drag exact flipped
  have hvalue : start.value.inMedia := hstart
  have hside := squareSide_nonneg hvalue current.value
  have hgreatest := isGreatest_squareSide hvalue current.value
  have hdrag : drag = _ := value_dragged hstart current
  have hexact : exact = _ := dragged_eq_squareAt hvalue current.value
  have hwidth : exact.width = squareSide start.value current.value := congrArg Rect.width hexact
  rw [hwidth]
  have hsame : drag = exact ↔ ¬ (squareSide start.value current.value ≠ 0 ∧ flipped) := by
    have hx := Signed.negative_sub_eq_iff (a := start.x) (b := current.x)
    have hy := Signed.negative_sub_eq_iff (a := start.y) (b := current.y)
    rw [hdrag, hexact, squareAt_eq_iff]
    refine (or_congr_right (and_congr hx hy)).trans ?_
    tauto
  refine ⟨fun _ => ⟨Point.clamped_eq hstart, Point.clamped_eq hcurrent⟩, hsame, ?_, ?_⟩
  · constructor
    · rintro hmedia ⟨hne, hflipped⟩
      rw [hdrag, squareAt_liesIn_media_iff hvalue] at hmedia
      have hroom {a b : Signed K} (hflips : a.FlipsZero b) :
          roomToward (b - a).negative a.value = 0 := by
        rw [Signed.negative_sub_iff.mpr (.inr hflips), hflips.value_eq_zero.1]
        rfl
      apply hne
      apply le_antisymm _ hside
      rcases hflipped with hflips | hflips
      · exact hmedia.1.trans_eq (hroom hflips)
      · exact hmedia.2.trans_eq (hroom hflips)
    · intro hnot
      rw [hsame.mpr hnot, hexact]
      exact hgreatest.1.2.2
  · intro start' current' hs hc
    have hstart' : start'.inMedia := by
      rw [← Point.inMedia_value, hs]
      exact hvalue
    have hx := Signed.negative_sub_congr (congrArg Point.x hs) (congrArg Point.x hc)
    have hy := Signed.negative_sub_congr (congrArg Point.y hs) (congrArg Point.y hc)
    rw [hdrag, value_dragged hstart', hs, hc, squareAt_eq_iff]
    exact or_congr_right (and_congr hx hy)

/-- A drag down the left edge is not flipped if it starts in the negative zero. -/
theorem left_edge_drag_stays :
    let start : Point (Signed ℝ) := ⟨-0, .of (1 / 4)⟩
    let current : Point (Signed ℝ) := ⟨-0, .of (3 / 4)⟩
    start.inMedia ∧ current.inMedia ∧ (PointerEvent.ofPosition current {}).point = current ∧
      (dragged start current true).value = dragged start.value current.value true ∧
      (dragged start current true).value.LiesIn media := by
  intro start current
  have hinMedia (a : ℝ) (h : 0 ≤ a ∧ a ≤ 1) :
      (⟨-0, .of a⟩ : Point (Signed ℝ)).inMedia := by
    rw [← Point.inMedia_value, Point.inMedia_iff]
    simpa [Point.value] using h
  have hstart : start.inMedia := hinMedia _ (by norm_num)
  have hcurrent : current.inMedia := hinMedia _ (by norm_num)
  obtain ⟨hpoints, hsame, hmedia, _⟩ := square_drag_by_zero_signs hstart hcurrent
  have hx : ¬ Signed.FlipsZero start.x current.x := fun hflips =>
    Signed.zero_ne_neg_zero hflips.1.symm
  have hy : ¬ Signed.FlipsZero start.y current.y := by
    intro hflips
    have hzero : (1 / 4 : ℝ) = 0 := hflips.value_eq_zero.1
    norm_num at hzero
  have hnone := not_and_of_not_right ((dragged start.value current.value true).width ≠ 0)
    (not_or.mpr ⟨hx, hy⟩)
  exact ⟨hstart, hcurrent, (hpoints {}).2, hsame.mpr hnone, hmedia.mpr hnone⟩

/-- A square drag down the left edge, from the positive zero to the negative one, gives a square to
the left of the media; to the positive zero it gives one on the media. The same holds of machine
numbers. -/
theorem square_left_of_media :
    let start : Point (Signed ℝ) := ⟨0, .of (1 / 4)⟩
    let current : Point (Signed ℝ) := ⟨0, .of (3 / 4)⟩
    let current' : Point (Signed ℝ) := ⟨-0, .of (3 / 4)⟩
    start.inMedia ∧ current.inMedia ∧ current'.value = current.value ∧
      (dragged start current true).value = ⟨0, 1 / 4, 1 / 2, 1 / 2⟩ ∧
      (dragged start current' true).value = ⟨-1 / 2, 1 / 4, 1 / 2, 1 / 2⟩ ∧
      ¬ (dragged start current' true).value.LiesIn media ∧
      dragged (⟨0.0, 0.25⟩ : Point Float) ⟨0.0, 0.75⟩ true = ⟨0.0, 0.25, 0.5, 0.5⟩ ∧
      dragged (⟨0.0, 0.25⟩ : Point Float) ⟨-0.0, 0.75⟩ true = ⟨-0.5, 0.25, 0.5, 0.5⟩ := by
  intro start current current'
  have hstart : start.inMedia := by
    rw [← Point.inMedia_value, Point.inMedia_iff]
    norm_num [start, Point.value]
  have hcurrent : current.inMedia := by
    rw [← Point.inMedia_value, Point.inMedia_iff]
    norm_num [current, Point.value]
  have hvalue : current'.value = current.value := by
    rw [Point.value, Point.value, Point.mk.injEq]
    exact ⟨neg_zero, rfl⟩
  have hside : squareSide start.value current.value = 1 / 2 := by
    norm_num [squareSide, roomToward, start, current, Point.value, abs_of_nonneg]
  have hdown (b : Signed ℝ) (hb : b.value = 3 / 4) : (b - start.y).negative = false := by
    rw [← Bool.not_eq_true, Signed.negative_sub_iff, not_or, hb]
    refine ⟨by norm_num [start], fun hflips => ?_⟩
    have hzero := hflips.value_eq_zero.2
    rw [hb] at hzero
    norm_num at hzero
  have hdrag : (dragged start current true).value = ⟨0, 1 / 4, 1 / 2, 1 / 2⟩ := by
    have hx : (current.x - start.x).negative = false := by
      rw [← Bool.not_eq_true, Signed.negative_sub_iff, not_or]
      exact ⟨lt_irrefl 0, fun hflips => Signed.zero_ne_neg_zero hflips.2⟩
    rw [value_dragged hstart, hx, hdown current.y rfl, hside]
    rfl
  have hdrag' : (dragged start current' true).value = ⟨-1 / 2, 1 / 4, 1 / 2, 1 / 2⟩ := by
    have hx : (current'.x - start.x).negative = true := Signed.negative_sub_iff.mpr (.inr ⟨rfl, rfl⟩)
    rw [value_dragged hstart, hx, hdown current'.y rfl, hvalue, hside]
    norm_num [squareAt, start, Point.value]
  refine ⟨hstart, hcurrent, hvalue, hdrag, hdrag', ?_, by decide +kernel, by decide +kernel⟩
  intro hmedia
  have hleft := hmedia.left
  rw [hdrag'] at hleft
  norm_num [media] at hleft

end Rect

end RegionDrawing
