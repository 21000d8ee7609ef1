import Mathlib
import RegionDrawing.Proofs.Drawer.Translation
import RegionDrawing.Proofs.Scalar.Real

/-! # Compositions of edits

Two scalings about one center are one scaling by the products of their factors, two displacements
are one by the sum, and an edit that does both is the one after the other. Rectangles follow the
same laws as points although a negative factor turns them over each time.
-/
namespace RegionDrawing

variable {α : Type} [FieldScalar α]

def Transform.magnification (sx sy : α) (center : Point α) : Transform α :=
  { scaling := some ⟨sx, sy, center⟩ }

namespace Point

theorem scaledAbout_scaledAbout (p center : Point α) (a b c e : α) :
    (p.scaledAbout center a b).scaledAbout center c e = p.scaledAbout center (a * c) (b * e) := by
  simp only [scaledAbout, add_sub_cancel_left, mul_assoc]

theorem scaledAbout_one (p center : Point α) : p.scaledAbout center 1 1 = p := by
  simp only [scaledAbout, mul_one, add_sub_cancel]

theorem translated_translated (p : Point α) (dx dy dx' dy' : α) :
    (p.translated dx dy).translated dx' dy' = p.translated (dx + dx') (dy + dy') := by
  simp only [translated, add_assoc]

theorem translated_zero (p : Point α) : p.translated 0 0 = p := by
  simp only [translated, add_zero]

end Point

namespace Rect

theorem translated_translated (r : Rect α) (dx dy dx' dy' : α) :
    (r.translated dx dy).translated dx' dy' = r.translated (dx + dx') (dy + dy') := by
  simp only [translated, add_assoc]

theorem translated_zero (r : Rect α) : r.translated 0 0 = r := by
  simp only [translated, add_zero]

variable [ExactScalar α]

theorem ofExtent_of_nonneg {width height : α} (hwidth : 0 ≤ width) (hheight : 0 ≤ height)
    (x y : α) : ofExtent x y width height = ⟨x, y, width, height⟩ := by
  simp only [ofExtent, ExactScalar.abs_eq, if_neg hwidth.not_gt, if_neg hheight.not_gt,
    abs_of_nonneg hwidth, abs_of_nonneg hheight]

omit [ExactScalar α] in
/-- One side of a rectangle that is turned, scaled and turned once more. It makes no difference
whether a side with a negative extent is turned before the scaling or only after it. -/
theorem turned_scaled_side (z w o k : α) :
    (let start := if w < 0 then z + w else z
      if |w| * k < 0 then o + (start - o) * k + |w| * k else o + (start - o) * k) =
    if w * k < 0 then o + (z - o) * k + w * k else o + (z - o) * k := by
  rcases lt_or_ge w 0 with hw | hw
  · simp only [if_pos hw, abs_of_neg hw]
    rcases lt_trichotomy k 0 with hk | rfl | hk
    · rw [if_pos (mul_neg_of_pos_of_neg (neg_pos.mpr hw) hk),
        if_neg (mul_pos_of_neg_of_neg hw hk).not_gt]
      ring
    · simp only [mul_zero, add_zero, lt_irrefl, if_false]
    · rw [if_neg (mul_pos (neg_pos.mpr hw) hk).not_gt, if_pos (mul_neg_of_neg_of_pos hw hk)]
      ring
  · simp only [if_neg hw.not_gt, abs_of_nonneg hw]

theorem scaledAbout_ofExtent (x y width height : α) (center : Point α) (sx sy : α) :
    (ofExtent x y width height).scaledAbout center sx sy =
      let corner := Point.scaledAbout ⟨x, y⟩ center sx sy
      ofExtent corner.x corner.y (width * sx) (height * sy) := by
  have hextent : ∀ w k : α, |(|w| * k)| = |w * k| := by
    intro w k
    rw [abs_mul, abs_abs, abs_mul]
  simp only [scaledAbout, ofExtent, topLeft, Point.scaledAbout, ExactScalar.abs_eq,
    turned_scaled_side, hextent]

theorem scaledAbout_scaledAbout (r : Rect α) (center : Point α) (a b c e : α) :
    (r.scaledAbout center a b).scaledAbout center c e = r.scaledAbout center (a * c) (b * e) := by
  rw [scaledAbout.eq_def r center a b, scaledAbout_ofExtent, Point.scaledAbout_scaledAbout,
    mul_assoc, mul_assoc]
  rfl

theorem scaledAbout_one {r : Rect α} (h : r.isProper) (center : Point α) :
    r.scaledAbout center 1 1 = r := by
  obtain ⟨hwidth, hheight⟩ := isProper_iff.mp h
  rw [scaledAbout, Point.scaledAbout_one, mul_one, mul_one, ofExtent_of_nonneg hwidth hheight]
  rfl

end Rect

namespace Shape

variable {shape : Shape α} {t t' once : Transform α}

theorem transformed_transformed (hpoint : ∀ p, t'.applyPoint (t.applyPoint p) = once.applyPoint p)
    (hrect : ∀ r, t'.applyRect (t.applyRect r) = once.applyRect r) (shape : Shape α) :
    (shape.transformed t).transformed t' = shape.transformed once := by
  cases shape with
  | rect bounds => simp only [transformed, hrect]
  | polygon outline => simp only [transformed, List.map_map, Function.comp_def, hpoint]
  | path outline => simp only [transformed, List.map_map, Function.comp_def, hpoint]
  | box b => simp only [transformed, hrect, hpoint]

theorem transformed_eq_self (h : shape.isValid) (hpoint : ∀ p, t.applyPoint p = p)
    (hrect : ∀ r : Rect α, r.isProper → t.applyRect r = r) : shape.transformed t = shape := by
  have hmap : ∀ points : List (Point α), points.map t.applyPoint = points := by
    intro points
    rw [funext hpoint, List.map_id']
  cases shape with
  | rect bounds => rw [transformed, hrect bounds h]
  | polygon outline => rw [transformed, hmap]
  | path outline => rw [transformed, hmap]
  | box b =>
    have hfront : b.front.isProper := by
      simp only [isValid, PerspectiveBox.isProper, Bool.and_eq_true] at h
      exact h.1.1
    simp only [transformed, hpoint, hrect b.front hfront]

theorem transformed_translation (shape : Shape α) (dx dy dx' dy' : α) :
    (shape.transformed (.translation dx dy)).transformed (.translation dx' dy') =
      shape.transformed (.translation (dx + dx') (dy + dy')) := by
  refine transformed_transformed (fun p => ?_) (fun r => ?_) shape
  · exact p.translated_translated dx dy dx' dy'
  · exact r.translated_translated dx dy dx' dy'

variable [ExactScalar α]

theorem transformed_magnification (shape : Shape α) (center : Point α) (a b c e : α) :
    (shape.transformed (.magnification a b center)).transformed (.magnification c e center) =
      shape.transformed (.magnification (a * c) (b * e) center) := by
  refine transformed_transformed (fun p => ?_) (fun r => ?_) shape
  · exact p.scaledAbout_scaledAbout center a b c e
  · exact r.scaledAbout_scaledAbout center a b c e

/-- Edits of a shape compose. Scalings about one center multiply and displacements add up, so that
each is undone by its inverse, and an edit that scales and displaces is the scaling followed by
the displacement. -/
theorem edits_compose (h : shape.isValid) (center : Point α) (a b c e dx dy dx' dy' : α) :
    (shape.transformed (.magnification a b center)).transformed (.magnification c e center) =
        shape.transformed (.magnification (a * c) (b * e) center) ∧
      (a ≠ 0 → b ≠ 0 → (shape.transformed (.magnification a b center)).transformed
        (.magnification (1 / a) (1 / b) center) = shape) ∧
      (shape.transformed (.translation dx dy)).transformed (.translation dx' dy') =
        shape.transformed (.translation (dx + dx') (dy + dy')) ∧
      (shape.transformed (.translation dx dy)).transformed (.translation (-dx) (-dy)) = shape ∧
      shape.transformed { scaling := some ⟨a, b, center⟩, displacement := some ⟨dx, dy⟩ } =
        (shape.transformed (.magnification a b center)).transformed (.translation dx dy) := by
  refine ⟨transformed_magnification shape center a b c e, ?_,
    transformed_translation shape dx dy dx' dy', ?_, ?_⟩
  · intro ha hb
    rw [transformed_magnification, mul_one_div_cancel ha, mul_one_div_cancel hb]
    exact transformed_eq_self h (fun p => p.scaledAbout_one center)
      fun r hr => Rect.scaledAbout_one hr center
  · rw [transformed_translation, add_neg_cancel, add_neg_cancel]
    exact transformed_eq_self h Point.translated_zero fun r _ => r.translated_zero
  · symm
    apply transformed_transformed <;> exact fun _ => rfl

/-- A box is turned over, made twice as wide and half as high, and comes back unharmed. -/
theorem mirrored_box_returns :
    let box : Shape ℝ := .box ⟨⟨1 / 4, 1 / 4, 1 / 4, 1 / 2⟩, ⟨1 / 2, 1⟩, 1 / 2⟩
    let center : Point ℝ := ⟨1 / 2, 0⟩
    let mirrored : Shape ℝ := .box ⟨⟨1 / 2, 1 / 8, 1 / 2, 1 / 4⟩, ⟨1 / 2, 1 / 2⟩, 1 / 2⟩
    box.isValid ∧ (-2 : ℝ) ≠ 0 ∧ (1 / 2 : ℝ) ≠ 0 ∧
      box.transformed (.magnification (-2) (1 / 2) center) = mirrored ∧
      mirrored.transformed (.magnification (1 / -2) (1 / (1 / 2)) center) = box := by
  intro box center mirrored
  have hvalid : box.isValid := by
    apply PerspectiveBox.isProper_iff.mpr
    rw [Rect.isProper_iff]
    norm_num
  have hmirrored : box.transformed (.magnification (-2) (1 / 2) center) = mirrored := by
    norm_num [box, mirrored, center, transformed, Transform.magnification, Transform.applyRect,
      Transform.applyPoint, Rect.scaledAbout, Rect.topLeft, Rect.ofExtent, Point.scaledAbout,
      ExactScalar.abs_eq]
  obtain ⟨-, hback, -⟩ := edits_compose hvalid center (-2) (1 / 2) 0 0 0 0 0 0
  refine ⟨hvalid, by norm_num, by norm_num, hmirrored, ?_⟩
  rw [← hmirrored]
  exact hback (by norm_num) (by norm_num)

end Shape

end RegionDrawing
