import Mathlib
import RegionDrawing.Drawer.Polyline
import RegionDrawing.Proofs.Geometry.Affine
import RegionDrawing.Proofs.Scalar.Real

/-! # Edited shapes

Editing a shape and editing its bounds agree: the bounds of the edited shape are around the images
of all its points and within the edited bounds. They are the edited bounds themselves unless the
edit rotates.
-/
namespace RegionDrawing

namespace Shape

variable {α : Type}

def depth? : Shape α → Option α
  | box b => some b.depth
  | _ => none

/-- The corners of a rectangle, the vertices of a list, or all eight corners of a box. -/
def controlPoints [Scalar α] : Shape α → List (Point α)
  | rect bounds => bounds.corners
  | polygon outline => outline.points
  | path outline => outline.points
  | box b => b.front.corners ++ b.backCorners

end Shape

variable {α : Type} [FieldScalar α] [ExactScalar α]

namespace PerspectiveBox

variable {b : PerspectiveBox α} {p : Point α}

theorem front_liesIn_bounds (h : b.front.isProper) : b.front.LiesIn b.bounds := by
  have hcorners := (Rect.enclosing_liesIn_iff (s := b.bounds) b.front.corners_ne_nil).mpr
    fun q hq => Rect.contains_enclosing (List.mem_append_left _ hq)
  rwa [Rect.enclosing_corners h] at hcorners

theorem contains_projectedToward (hp : b.front.contains p) :
    b.bounds.contains (p.projectedToward b.vanishing b.depth) := by
  apply Rect.contains_image (Point.isAxial_projectedToward _ _).isAffine _ hp
  exact fun q hq => Rect.contains_enclosing (List.mem_append_right _ (List.mem_map_of_mem hq))

theorem isProper_iff : b.isProper ↔ b.front.isProper ∧ 0 ≤ b.depth ∧ b.depth ≤ 1 := by
  simp only [isProper, Point.isFinite, ExactScalar.isFinite_eq, Bool.and_self, Bool.and_true,
    Bool.and_eq_true, Scalar.inUnit_iff]

end PerspectiveBox

namespace Shape

variable {shape : Shape α} {p : Point α} (t : Transform α)

omit [ExactScalar α] in
theorem controlPoints_ne_nil (h : shape.isValid) : shape.controlPoints ≠ [] := by
  have hlist : ∀ points : List (Point α), (2 ≤ points.length && points.all Point.isFinite) →
      points ≠ [] := by
    rintro points hpoints rfl
    cases hpoints
  cases shape with
  | rect bounds => exact List.cons_ne_nil _ _
  | polygon outline => exact hlist _ h
  | path outline => exact hlist _ h
  | box b => exact List.cons_ne_nil _ _

theorem bounds_eq_enclosing (h : shape.isValid) :
    shape.bounds = Rect.enclosing shape.controlPoints := by
  cases shape with
  | rect bounds => exact (Rect.enclosing_corners h).symm
  | polygon outline => rfl
  | path outline => rfl
  | box b => rfl

theorem isProper_bounds (h : shape.isValid) : shape.bounds.isProper := by
  rw [bounds_eq_enclosing h]
  exact Rect.isProper_enclosing _

theorem contains_bounds_transformed (h : shape.isValid) (hp : p ∈ shape.controlPoints) :
    (shape.transformed t).bounds.contains (t.applyPoint p) := by
  cases shape with
  | rect bounds => exact t.contains_applyRect h (Rect.contains_corner h hp)
  | polygon outline => exact Rect.contains_enclosing (List.mem_map_of_mem hp)
  | path outline => exact Rect.contains_enclosing (List.mem_map_of_mem hp)
  | box b =>
    obtain ⟨hfront, _⟩ := PerspectiveBox.isProper_iff.mp h
    have hcorner : ∀ q ∈ b.front.corners, (t.applyRect b.front).contains (t.applyPoint q) :=
      fun q hq => t.contains_applyRect hfront (Rect.contains_corner hfront hq)
    rcases List.mem_append.mp hp with hp | hp
    · exact (PerspectiveBox.front_liesIn_bounds (t.isProper_applyRect hfront)).contains
        (hcorner p hp)
    · obtain ⟨q, hq, rfl⟩ := List.mem_map.mp hp
      rw [Point.projectedToward, t.isAffine_applyPoint.map_lerp]
      exact PerspectiveBox.contains_projectedToward (hcorner q hq)

/-- The bounds of an edited shape are within its edited bounds. -/
theorem bounds_transformed_liesIn (h : shape.isValid) :
    (shape.transformed t).bounds.LiesIn (t.applyRect shape.bounds) := by
  have himage : ∀ p ∈ shape.controlPoints,
      (t.applyRect shape.bounds).contains (t.applyPoint p) := by
    intro p hp
    apply t.contains_applyRect (isProper_bounds h)
    rw [bounds_eq_enclosing h]
    exact Rect.contains_enclosing hp
  have hne := controlPoints_ne_nil h
  cases shape with
  | rect bounds => exact .refl _
  | polygon outline | path outline =>
    apply (Rect.enclosing_liesIn_iff (mt List.map_eq_nil_iff.mp hne)).mpr
    exact List.forall_mem_map.mpr himage
  | box b =>
    obtain ⟨hfront, _⟩ := PerspectiveBox.isProper_iff.mp h
    have hcorner : ∀ q ∈ (t.applyRect b.front).corners,
        (∃ c ∈ b.front.corners, (t.applyPoint c).x = q.x) ∧
          ∃ c ∈ b.front.corners, (t.applyPoint c).y = q.y := by
      intro q hq
      rw [t.applyRect_eq_enclosing hfront] at hq
      simpa using Rect.exists_of_mem_corners (mt List.map_eq_nil_iff.mp b.front.corners_ne_nil) hq
    have hback : ∀ c ∈ b.front.corners, (t.applyRect (box b).bounds).contains
        ((t.applyPoint c).projectedToward (t.applyPoint b.vanishing) b.depth) := by
      intro c hc
      rw [Point.projectedToward, ← t.isAffine_applyPoint.map_lerp]
      exact himage _ (List.mem_append_right _ (List.mem_map_of_mem hc))
    apply (Rect.enclosing_liesIn_iff
      (List.append_ne_nil_of_left_ne_nil (Rect.corners_ne_nil _) _)).mpr
    intro q hq
    rcases List.mem_append.mp hq with hq | hq
    · obtain ⟨⟨c, hc, hx⟩, d, hd, hy⟩ := hcorner q hq
      exact Rect.contains_of_coordinates (himage c (List.mem_append_left _ hc))
        (himage d (List.mem_append_left _ hd)) hx.symm hy.symm
    · obtain ⟨corner, hmem, rfl⟩ := List.mem_map.mp hq
      obtain ⟨⟨c, hc, hx⟩, d, hd, hy⟩ := hcorner corner hmem
      have haxial := Point.isAxial_projectedToward (t.applyPoint b.vanishing) b.depth
      exact Rect.contains_of_coordinates (hback c hc) (hback d hd)
        (haxial.x_eq hx.symm) (haxial.y_eq hy.symm)

theorem bounds_transformed (h : shape.isValid) (hrotation : t.rotation = none) :
    (shape.transformed t).bounds = t.applyRect shape.bounds := by
  apply (bounds_transformed_liesIn t h).antisymm
  rw [t.applyRect_eq_enclosing (isProper_bounds h), bounds_eq_enclosing h,
    Rect.enclosing_liesIn_iff (mt List.map_eq_nil_iff.mp (Rect.corners_ne_nil _)),
    List.forall_mem_map]
  intro q hq
  obtain ⟨⟨a, ha, hx⟩, b, hb, hy⟩ := Rect.exists_of_mem_corners (controlPoints_ne_nil h) hq
  have haxial := t.isAxial_applyPoint hrotation
  exact Rect.contains_of_coordinates (contains_bounds_transformed t h ha)
    (contains_bounds_transformed t h hb) (haxial.x_eq hx.symm) (haxial.y_eq hy.symm)

theorem isValid_transformed (h : shape.isValid) : (shape.transformed t).isValid := by
  have hlist : ∀ points : List (Point α), (2 ≤ points.length && points.all Point.isFinite) →
      (2 ≤ (points.map t.applyPoint).length &&
        (points.map t.applyPoint).all Point.isFinite) := by
    intro points hpoints
    simpa [Point.isFinite, ExactScalar.isFinite_eq] using hpoints
  cases shape with
  | rect bounds => exact t.isProper_applyRect h
  | polygon outline => exact hlist _ h
  | path outline => exact hlist _ h
  | box b =>
    obtain ⟨hfront, hdepth⟩ := PerspectiveBox.isProper_iff.mp h
    exact PerspectiveBox.isProper_iff.mpr ⟨t.isProper_applyRect hfront, hdepth⟩

/-- An edit describes one affine map, whatever it is applied to: it takes the points of a rectangle
into the edited rectangle and those of a shape into the bounds of the edited shape, which are no
larger than the edited bounds, and equal to them without a rotation. What an edited shape has
besides its coordinates stays as it is. -/
theorem edits_agree_with_bounds :
    (∀ r : Rect α, 0 ≤ r.width → 0 ≤ r.height →
      (∀ p, r.contains p → (t.applyRect r).contains (t.applyPoint p)) ∧
        0 ≤ (t.applyRect r).width ∧ 0 ≤ (t.applyRect r).height) ∧
    ∀ shape : Shape α, shape.isValid →
      (∀ p ∈ shape.controlPoints, (shape.transformed t).bounds.contains (t.applyPoint p)) ∧
      (shape.transformed t).bounds.LiesIn (t.applyRect shape.bounds) ∧
      (t.rotation = none → (shape.transformed t).bounds = t.applyRect shape.bounds) ∧
      (shape.transformed t).isValid ∧
      (shape.transformed t).kind = shape.kind ∧
      (shape.transformed t).outline?.map (·.points.length) =
        shape.outline?.map (·.points.length) ∧
      (shape.transformed t).outline?.map (·.closed) = shape.outline?.map (·.closed) ∧
      (shape.transformed t).depth? = shape.depth? := by
  constructor
  · intro r hwidth hheight
    have hproper := Rect.isProper_iff.mpr ⟨hwidth, hheight⟩
    exact ⟨fun p hp => t.contains_applyRect hproper hp,
      Rect.isProper_iff.mp (t.isProper_applyRect hproper)⟩
  · intro shape h
    refine ⟨fun p hp => contains_bounds_transformed t h hp, bounds_transformed_liesIn t h,
      bounds_transformed t h, isValid_transformed t h, ?_⟩
    cases shape with
    | rect bounds => exact ⟨rfl, rfl, rfl, rfl⟩
    | polygon outline => exact ⟨rfl, congrArg some (List.length_map _), rfl, rfl⟩
    | path outline => exact ⟨rfl, congrArg some (List.length_map _), rfl, rfl⟩
    | box b => exact ⟨rfl, rfl, rfl, rfl⟩

/-- A box left of its vanishing point. -/
noncomputable def leftBox : Shape ℝ :=
  .box ⟨⟨1 / 8, 1 / 4, 1 / 4, 1 / 2⟩, ⟨3 / 4, 1 / 2⟩, 1 / 2⟩

/-- Turns over from left to right and halves the height. -/
noncomputable def mirroring : Transform ℝ := { scaling := some ⟨-1, 1 / 2, ⟨1 / 2, 0⟩⟩ }

/-- The mirrored media and the mirrored box have the mirrored corners in them. -/
theorem mirrored_box_reaches :
    (mirroring.applyRect ⟨0, 0, 1, 1⟩).contains ⟨0, 1 / 2⟩ ∧
      leftBox.isValid ∧ mirroring.rotation = none ∧
      (leftBox.transformed mirroring).bounds = mirroring.applyRect leftBox.bounds ∧
      (leftBox.transformed mirroring).bounds.contains ⟨7 / 8, 1 / 8⟩ := by
  have hvalid : leftBox.isValid := by
    apply PerspectiveBox.isProper_iff.mpr
    rw [Rect.isProper_iff]
    norm_num
  have hmedia : (⟨0, 0, 1, 1⟩ : Rect ℝ).contains ⟨1, 1⟩ := by
    rw [Rect.contains_iff]
    norm_num [Rect.right, Rect.bottom]
  obtain ⟨hrect, hshape⟩ := edits_agree_with_bounds mirroring
  have hcorner := (hrect ⟨0, 0, 1, 1⟩ zero_le_one zero_le_one).1 ⟨1, 1⟩ hmedia
  obtain ⟨himages, -, hequal, -⟩ := hshape leftBox hvalid
  have hbox := himages ⟨1 / 8, 1 / 4⟩ List.mem_cons_self
  norm_num [mirroring, Transform.applyPoint, Point.scaledAbout] at hcorner hbox
  exact ⟨by norm_num [mirroring, hcorner], hvalid, rfl, hequal rfl, hbox⟩

end Shape

end RegionDrawing
