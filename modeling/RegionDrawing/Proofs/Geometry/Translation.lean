import Mathlib
import RegionDrawing.Proofs.Geometry.Curve
import RegionDrawing.Proofs.Geometry.Polyline

/-! # Moved outlines and curves

A map of the plane takes the edges of an outline to the edges of the mapped outline, and an affine
one takes the samples of a curve to the samples of the mapped curve. Between points that are all
moved by one distance nothing changes that is measured or counted.
-/
namespace RegionDrawing

namespace Polyline

variable {α : Type} (f : Point α → Point α)

theorem ringEdges_map (points : List (Point α)) :
    ringEdges (points.map f) = (ringEdges points).map (Prod.map f f) := by
  unfold ringEdges
  rw [List.getLast?_map]
  cases points.getLast? with
  | none => rfl
  | some last =>
    rw [← List.zip_map, List.map_cons]
    rfl

theorem edges_map (points : List (Point α)) (closed : Bool) :
    edges (points.map f) closed = (edges points closed).map (Prod.map f f) := by
  have hinner : (points.map f).zip ((points.map f).drop 1) =
      (points.zip (points.drop 1)).map (Prod.map f f) := by
    rw [← List.map_drop, List.zip_map]
  match points, hinner with
  | [], _ | [_], _ | [_, _], _ => rfl
  | first :: second :: third :: rest, hinner =>
    unfold edges
    rw [hinner, List.getLast?_map]
    cases (first :: second :: third :: rest).getLast? with
    | none => rfl
    | some last => cases closed <;> simp

end Polyline

namespace Spline

variable {α : Type}

def Controls.mapped (f : Point α → Point α) (c : Controls α) : Controls α :=
  ⟨f c.before, f c.start, f c.stop, f c.after⟩

section
variable [Scalar α] (f : Point α → Point α)

omit [Scalar α] in
theorem positions_lt {n i : Nat} {wrap : Bool} (h : i < spanCount n wrap) :
    (positions n i wrap).1 < n ∧ (positions n i wrap).2.1 < n ∧
      (positions n i wrap).2.2.1 < n ∧ (positions n i wrap).2.2.2 < n := by
  have hn : i < n := h.trans_le (spanCount_le n wrap)
  cases wrap with
  | true =>
    have hpos : 0 < n := Nat.zero_lt_of_lt hn
    exact ⟨Nat.mod_lt _ hpos, hn, Nat.mod_lt _ hpos, Nat.mod_lt _ hpos⟩
  | false =>
    have hstop : i + 1 < n := by
      unfold spanCount at h
      split at h
      · omega
      · split at h <;> simp at h <;> omega
    simp only [positions, Bool.false_eq_true, if_false]
    omega

theorem controls_map {points : List (Point α)} {i : Nat} {wrap : Bool}
    (h : i < spanCount points.length wrap) :
    controls (points.map f) i wrap = (controls points i wrap).mapped f := by
  have hpoint : ∀ {position : Nat}, position < points.length →
      (points.map f).getD position Point.origin = f (points.getD position Point.origin) := by
    intro position hposition
    rw [List.getD_eq_getElem _ _ hposition,
      List.getD_eq_getElem _ _ (by rwa [List.length_map]), List.getElem_map]
  obtain ⟨hbefore, hstart, hstop, hafter⟩ := positions_lt h
  simp only [controls, Controls.mapped, List.length_map, hpoint hbefore, hpoint hstart,
    hpoint hstop, hpoint hafter]

theorem allControls_map (points : List (Point α)) (closed : Bool) :
    allControls (points.map f) closed = (allControls points closed).map (Controls.mapped f) := by
  unfold allControls wraps
  rw [List.length_map, List.map_map]
  exact List.map_congr_left fun i hi => controls_map f (List.mem_range.mp hi)

end

variable [FieldScalar α] {f : Point α → Point α}

/-- The weights of the four points of a span add up to one. -/
theorem Controls.pointAt_mapped (hf : Point.IsAffine f) (c : Controls α) (t tension : α) :
    (c.mapped f).pointAt t tension = f (c.pointAt t tension) := by
  obtain ⟨a, b, k, d, e, h, hf⟩ := hf
  simp only [Controls.mapped, Controls.pointAt, hf, Point.mk.injEq]
  constructor <;> ring

theorem Controls.samples_mapped (hf : Point.IsAffine f) (c : Controls α) (tension : α)
    (steps : Nat) :
    (c.mapped f).samples tension steps = (c.samples tension steps).map f := by
  simp only [samples, List.map_map, Function.comp_def, pointAt_mapped hf]

theorem sample_map (hf : Point.IsAffine f) (points : List (Point α)) (closed : Bool) (tension : α)
    (samples : Nat) :
    sample (points.map f) closed tension samples =
      (sample points closed tension samples).map f := by
  cases points with
  | nil => rfl
  | cons first rest =>
    unfold sample
    rw [allControls_map]
    cases allControls (first :: rest) closed with
    | nil => rfl
    | cons c others =>
      let steps := stepCount samples
      show f first :: ((c :: others).map (Controls.mapped f)).flatMap
          (fun c => c.samples tension steps) =
        f first :: ((c :: others).flatMap fun c => c.samples tension steps).map f
      simp only [List.flatMap_map, List.map_flatMap, Controls.samples_mapped hf]

end Spline

variable {α : Type} [FieldScalar α] (dx dy : α)

namespace Point

theorem distance_translated (p q : Point α) :
    (p.translated dx dy).distance (q.translated dx dy) = p.distance q := by
  simp only [distance, translated, add_sub_add_right_eq_sub]

theorem distanceToSegment_translated (p a b : Point α) :
    (p.translated dx dy).distanceToSegment (a.translated dx dy) (b.translated dx dy) =
      p.distanceToSegment a b := by
  simp only [distanceToSegment, translated, distance, add_sub_add_right_eq_sub,
    add_right_comm _ dx, add_right_comm _ dy]

end Point

namespace Polyline

theorem near_translated (points : List (Point α)) (closed : Bool) (p : Point α) (tolerance : α) :
    near (points.map fun q => q.translated dx dy) closed (p.translated dx dy) tolerance =
      near points closed p tolerance := by
  by_cases h : points.length = 1
  · obtain ⟨only, rfl⟩ := List.length_eq_one_iff.mp h
    simp only [near, List.map_cons, List.map_nil, Point.distance_translated]
  · rw [near_eq_any (by rwa [List.length_map]), near_eq_any h, edges_map, List.any_map]
    simp only [Function.comp_def, Prod.map, Point.distanceToSegment_translated]

theorem rayCrosses_translated (p a b : Point α) :
    rayCrosses (p.translated dx dy) (a.translated dx dy) (b.translated dx dy) =
      rayCrosses p a b := by
  simp only [rayCrosses, Point.translated, add_sub_add_right_eq_sub, gt_iff_lt,
    add_lt_add_iff_right, ← add_assoc]

theorem interiorContains_translated (points : List (Point α)) (p : Point α) :
    interiorContains (points.map fun q => q.translated dx dy) (p.translated dx dy) =
      interiorContains points p := by
  simp only [interiorContains, List.length_map, ringEdges_map, List.countP_map,
    Function.comp_def, Prod.map, rayCrosses_translated]

end Polyline

namespace Rect

theorem contains_translated (r : Rect α) (p : Point α) :
    (r.translated dx dy).contains (p.translated dx dy) = r.contains p := by
  have hright : (r.translated dx dy).right = r.right + dx := add_right_comm _ _ _
  have hbottom : (r.translated dx dy).bottom = r.bottom + dy := add_right_comm _ _ _
  rw [Bool.eq_iff_iff, contains_iff, contains_iff, hright, hbottom]
  simp only [translated, Point.translated, add_le_add_iff_right]

theorem expanded_translated (r : Rect α) (margin : α) :
    (r.translated dx dy).expanded margin = (r.expanded margin).translated dx dy := by
  simp only [expanded, translated, add_sub_right_comm]

theorem enclosing_translated [ExactScalar α] {points : List (Point α)} (h : points ≠ []) :
    enclosing (points.map fun p => p.translated dx dy) =
      (enclosing points).translated dx dy := by
  have hsides := isProper_iff.mp (isProper_enclosing points)
  have hproper : ((enclosing points).translated dx dy).isProper := isProper_iff.mpr hsides
  rw [enclosing_map (Point.isAxial_translated dx dy) points h, ← corners_translated,
    enclosing_corners hproper]

end Rect

end RegionDrawing
