import Mathlib
import RegionDrawing.Proofs.Element.Bounds

/-! # Unions of rectangles

The union of two rectangles is the least one in which both lie, and taking bounds turns appended
lists into unions. So the bounds of a box are the union of its front and of the front drawn toward
the vanishing point.
-/
namespace RegionDrawing

variable {α : Type} [FieldScalar α] [ExactScalar α]

namespace Rect

variable {r s t : Rect α} {points others : List (Point α)}

theorem liesIn_iff (h : r.isProper) : r.LiesIn s ↔ ∀ p, r.contains p → s.contains p := by
  refine ⟨fun hlies p hp => hlies.contains hp, fun hall => ?_⟩
  have hcorners := (enclosing_liesIn_iff (s := s) r.corners_ne_nil).mpr
    fun q hq => hall q (contains_corner h hq)
  rwa [enclosing_corners h] at hcorners

theorem right_union (r s : Rect α) : (r.union s).right = max r.right s.right :=
  (add_sub_cancel _ _).trans (Scalar.greatest_eq _ _)

theorem bottom_union (r s : Rect α) : (r.union s).bottom = max r.bottom s.bottom :=
  (add_sub_cancel _ _).trans (Scalar.greatest_eq _ _)

/-- The union of two rectangles is the least one in which both lie. -/
theorem union_liesIn_iff : (r.union s).LiesIn t ↔ r.LiesIn t ∧ s.LiesIn t := by
  have hx : (r.union s).x = min r.x s.x := Scalar.least_eq _ _
  have hy : (r.union s).y = min r.y s.y := Scalar.least_eq _ _
  constructor
  · rintro ⟨hleft, hright, htop, hbottom⟩
    rw [hx, le_min_iff] at hleft
    rw [right_union, max_le_iff] at hright
    rw [hy, le_min_iff] at htop
    rw [bottom_union, max_le_iff] at hbottom
    exact ⟨⟨hleft.1, hright.1, htop.1, hbottom.1⟩, hleft.2, hright.2, htop.2, hbottom.2⟩
  · rintro ⟨hr, hs⟩
    constructor
    · rw [hx]
      exact le_min hr.left hs.left
    · rw [right_union]
      exact max_le hr.right hs.right
    · rw [hy]
      exact le_min hr.top hs.top
    · rw [bottom_union]
      exact max_le hr.bottom hs.bottom

theorem liesIn_union_left (r s : Rect α) : r.LiesIn (r.union s) :=
  (union_liesIn_iff.mp (.refl _)).1

theorem liesIn_union_right (r s : Rect α) : s.LiesIn (r.union s) :=
  (union_liesIn_iff.mp (.refl _)).2

omit [ExactScalar α] in
theorem eq_of_liesIn_iff (h : ∀ t, r.LiesIn t ↔ s.LiesIn t) : r = s :=
  ((h s).mpr (.refl s)).antisymm ((h r).mp (.refl r))

theorem union_comm (r s : Rect α) : r.union s = s.union r :=
  eq_of_liesIn_iff fun t => by rw [union_liesIn_iff, union_liesIn_iff, and_comm]

theorem union_assoc (r s t : Rect α) : (r.union s).union t = r.union (s.union t) :=
  eq_of_liesIn_iff fun u => by simp only [union_liesIn_iff, and_assoc]

theorem union_self (r : Rect α) : r.union r = r :=
  eq_of_liesIn_iff fun t => by rw [union_liesIn_iff, and_self]

theorem isProper_union (h : r.isProper) (s : Rect α) : (r.union s).isProper := by
  have hr : r.LiesIn (r.union s) := liesIn_union_left r s
  rw [isProper_iff] at h ⊢
  have hwidth : r.x ≤ r.right := le_add_of_nonneg_right h.1
  have hheight : r.y ≤ r.bottom := le_add_of_nonneg_right h.2
  exact ⟨(le_add_iff_nonneg_right _).mp (hr.left.trans (hwidth.trans hr.right)),
    (le_add_iff_nonneg_right _).mp (hr.top.trans (hheight.trans hr.bottom))⟩

omit [ExactScalar α] in
theorem enclosing?_eq_some (h : points ≠ []) : enclosing? points = some (enclosing points) := by
  obtain ⟨first, rest, rfl⟩ := List.exists_cons_of_ne_nil h
  rfl

omit [ExactScalar α] in
theorem ne_nil_of_enclosing? (h : enclosing? points = some r) : points ≠ [] := by
  rintro rfl
  cases h

theorem enclosing_append (h : points ≠ []) (h' : others ≠ []) :
    enclosing (points ++ others) = (enclosing points).union (enclosing others) := by
  apply eq_of_liesIn_iff
  intro t
  rw [union_liesIn_iff, enclosing_liesIn_iff h, enclosing_liesIn_iff h',
    enclosing_liesIn_iff (List.append_ne_nil_of_left_ne_nil h _), List.forall_mem_append]

/-- The rectangle around the corners has the same extent, turned so that no side is negative. -/
theorem enclosing_corners_eq (r : Rect α) :
    enclosing r.corners = ofExtent r.x r.y r.width r.height := by
  have hproper : (ofExtent r.x r.y r.width r.height).isProper := by
    rw [isProper_iff, ofExtent, ExactScalar.abs_eq, ExactScalar.abs_eq]
    exact ⟨abs_nonneg _, abs_nonneg _⟩
  rw [← enclosing_corners hproper]
  exact enclosing_congr fun q => mem_corners_iff.trans mem_corners_ofExtent.symm

theorem enclosing_map_scaledAbout (r : Rect α) (center : Point α) (sx sy : α) :
    enclosing (r.corners.map fun p => p.scaledAbout center sx sy) = r.scaledAbout center sx sy := by
  rw [← enclosing_congr fun q => mem_corners_scaledAbout,
    enclosing_corners (isProper_scaledAbout r center sx sy)]

end Rect

namespace PerspectiveBox

omit [ExactScalar α] in
/-- To go a part of the way to the vanishing point is to scale by the rest of the way. -/
theorem backCorners_eq (b : PerspectiveBox α) : b.backCorners =
    b.front.corners.map fun p => p.scaledAbout b.vanishing (1 - b.depth) (1 - b.depth) := by
  apply List.map_congr_left
  intro p _
  simp only [Point.projectedToward, Point.lerp, Point.scaledAbout, Point.mk.injEq]
  constructor <;> ring

theorem bounds_eq_union (b : PerspectiveBox α) :
    b.bounds = (Rect.ofExtent b.front.x b.front.y b.front.width b.front.height).union
      (b.front.scaledAbout b.vanishing (1 - b.depth) (1 - b.depth)) := by
  rw [bounds, backCorners_eq, Rect.enclosing_append b.front.corners_ne_nil
    (mt List.map_eq_nil_iff.mp b.front.corners_ne_nil), Rect.enclosing_corners_eq,
    Rect.enclosing_map_scaledAbout]

end PerspectiveBox

/-- The rectangle around some points is the least one that contains them, whatever their order and
number, and the union of two rectangles the least one in which both lie. To lie in a rectangle is to
have all points in it. The bounds of a box are the union of its front, turned so that no side is
negative, and of the front scaled about the vanishing point by what the depth leaves; a front
without a negative side is taken as it is. -/
theorem bounds_least_unions_join :
    (∀ r s : Rect α, 0 ≤ r.width → 0 ≤ r.height →
      (r.LiesIn s ↔ ∀ p, r.contains p → s.contains p)) ∧
    (∀ points : List (Point α), points ≠ [] →
      ∃ r, Rect.enclosing? points = some r ∧ 0 ≤ r.width ∧ 0 ≤ r.height ∧
        (∀ p ∈ points, r.contains p) ∧ ∀ s, (∀ p ∈ points, s.contains p) → r.LiesIn s) ∧
    (∀ points others : List (Point α), points ≠ [] → (∀ p, p ∈ points ↔ p ∈ others) →
      Rect.enclosing? points = Rect.enclosing? others) ∧
    (∀ r s : Rect α, 0 ≤ r.width → 0 ≤ r.height → 0 ≤ s.width → 0 ≤ s.height →
      0 ≤ (r.union s).width ∧ 0 ≤ (r.union s).height ∧
        r.LiesIn (r.union s) ∧ s.LiesIn (r.union s) ∧
        ∀ t, r.LiesIn t → s.LiesIn t → (r.union s).LiesIn t) ∧
    (∀ r s t : Rect α, r.union s = s.union r ∧ (r.union s).union t = r.union (s.union t) ∧
      r.union r = r) ∧
    (∀ (points others : List (Point α)) (r s : Rect α), Rect.enclosing? points = some r →
      Rect.enclosing? others = some s → Rect.enclosing? (points ++ others) = some (r.union s)) ∧
    ∀ b : PerspectiveBox α,
      b.bounds = (Rect.ofExtent b.front.x b.front.y b.front.width b.front.height).union
          (b.front.scaledAbout b.vanishing (1 - b.depth) (1 - b.depth)) ∧
        (0 ≤ b.front.width → 0 ≤ b.front.height → b.bounds =
          b.front.union (b.front.scaledAbout b.vanishing (1 - b.depth) (1 - b.depth))) := by
  refine ⟨fun r s hwidth hheight => Rect.liesIn_iff (Rect.isProper_iff.mpr ⟨hwidth, hheight⟩),
    fun points h => ?_, fun points others h hmem => ?_, fun r s hwidth hheight _ _ => ?_,
    fun r s t => ⟨Rect.union_comm r s, Rect.union_assoc r s t, Rect.union_self r⟩,
    fun points others r s hr hs => ?_, fun b => ⟨b.bounds_eq_union, fun hwidth hheight => ?_⟩⟩
  · obtain ⟨hwidth, hheight⟩ := Rect.isProper_iff.mp (Rect.isProper_enclosing points)
    exact ⟨_, Rect.enclosing?_eq_some h, hwidth, hheight, fun p hp => Rect.contains_enclosing hp,
      fun s hs => (Rect.enclosing_liesIn_iff h).mpr hs⟩
  · have h' : others ≠ [] := by
      obtain ⟨p, hp⟩ := List.exists_mem_of_ne_nil points h
      exact List.ne_nil_of_mem ((hmem p).mp hp)
    rw [Rect.enclosing?_eq_some h, Rect.enclosing?_eq_some h', Rect.enclosing_congr hmem]
  · have hproper := Rect.isProper_union (Rect.isProper_iff.mpr ⟨hwidth, hheight⟩) s
    obtain ⟨hwidth', hheight'⟩ := Rect.isProper_iff.mp hproper
    exact ⟨hwidth', hheight', Rect.liesIn_union_left r s, Rect.liesIn_union_right r s,
      fun t hr hs => Rect.union_liesIn_iff.mpr ⟨hr, hs⟩⟩
  · have h := Rect.ne_nil_of_enclosing? hr
    have h' := Rect.ne_nil_of_enclosing? hs
    rw [Rect.enclosing?_eq_some h, Option.some.injEq] at hr
    rw [Rect.enclosing?_eq_some h', Option.some.injEq] at hs
    rw [Rect.enclosing?_eq_some (List.append_ne_nil_of_left_ne_nil h _),
      Rect.enclosing_append h h', hr, hs]
  · rw [b.bounds_eq_union, ← Rect.enclosing_corners_eq,
      Rect.enclosing_corners (Rect.isProper_iff.mpr ⟨hwidth, hheight⟩)]

/-- A box left of its vanishing point, which its back face is halfway from. -/
noncomputable def halfwayBox : PerspectiveBox ℝ :=
  ⟨⟨1 / 4, 1 / 4, 1 / 4, 1 / 4⟩, ⟨1, 1 / 2⟩, 1 / 2⟩

/-- The back face sets the right edge of the bounds. -/
theorem halfwayBox_bounds :
    0 ≤ halfwayBox.front.width ∧ 0 ≤ halfwayBox.front.height ∧
      halfwayBox.bounds = ⟨1 / 4, 1 / 4, 1 / 2, 1 / 4⟩ := by
  have hwidth : 0 ≤ halfwayBox.front.width := by norm_num [halfwayBox]
  have hheight : 0 ≤ halfwayBox.front.height := by norm_num [halfwayBox]
  obtain ⟨_, _, _, _, _, _, hboxes⟩ := bounds_least_unions_join (α := ℝ)
  refine ⟨hwidth, hheight, ((hboxes halfwayBox).2 hwidth hheight).trans ?_⟩
  norm_num [halfwayBox, Rect.union, Rect.scaledAbout, Rect.topLeft, Point.scaledAbout,
    Rect.ofExtent, Rect.right, Rect.bottom, Scalar.least_eq, Scalar.greatest_eq,
    ExactScalar.abs_eq]

/-- A box whose front reaches to the left of where it begins and whose back face is its vanishing
point. -/
noncomputable def turnedBox : PerspectiveBox ℝ :=
  ⟨⟨1 / 2, 0, -(1 / 4), 1 / 2⟩, ⟨1 / 2, 1 / 2⟩, 1⟩

/-- With a negative side the front as it is given does not reach as far as its corners. -/
theorem turnedBox_leaves_union :
    0 ≤ turnedBox.depth ∧ turnedBox.depth ≤ 1 ∧
      turnedBox.bounds = ⟨1 / 4, 0, 1 / 4, 1 / 2⟩ ∧
      turnedBox.front.union (turnedBox.front.scaledAbout turnedBox.vanishing
        (1 - turnedBox.depth) (1 - turnedBox.depth)) = ⟨1 / 2, 0, 0, 1 / 2⟩ ∧
      turnedBox.bounds ≠ turnedBox.front.union (turnedBox.front.scaledAbout turnedBox.vanishing
        (1 - turnedBox.depth) (1 - turnedBox.depth)) := by
  have hbounds : turnedBox.bounds = ⟨1 / 4, 0, 1 / 4, 1 / 2⟩ := by
    rw [turnedBox.bounds_eq_union]
    norm_num [turnedBox, Rect.union, Rect.scaledAbout, Rect.topLeft, Point.scaledAbout,
      Rect.ofExtent, Rect.right, Rect.bottom, Scalar.least_eq, Scalar.greatest_eq,
      ExactScalar.abs_eq, abs_of_neg]
  have hunion : turnedBox.front.union (turnedBox.front.scaledAbout turnedBox.vanishing
      (1 - turnedBox.depth) (1 - turnedBox.depth)) = ⟨1 / 2, 0, 0, 1 / 2⟩ := by
    norm_num [turnedBox, Rect.union, Rect.scaledAbout, Rect.topLeft, Point.scaledAbout,
      Rect.ofExtent, Rect.right, Rect.bottom, Scalar.least_eq, Scalar.greatest_eq,
      ExactScalar.abs_eq]
  refine ⟨by norm_num [turnedBox], by norm_num [turnedBox], hbounds, hunion, ?_⟩
  rw [hbounds, hunion]
  norm_num

end RegionDrawing
