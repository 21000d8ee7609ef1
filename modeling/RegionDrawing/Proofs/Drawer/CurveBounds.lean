import Mathlib
import RegionDrawing.Proofs.Drawer.Picking
import RegionDrawing.Proofs.Geometry.Curve

/-! # Bounds of sampled curves

A path is bounded by its samples. They go through its points, each at the step where a span is
complete, so no tension and no number of samples lets a point out of the bounds.
-/
namespace RegionDrawing.PolylineDrawer

variable {α : Type} [FieldScalar α] [ExactScalar α] {element : Element α} {outline : Outline α}

theorem bounds_liesIn_bounds (settings : Settings α) (h : element.shape = .path outline) :
    element.shape.bounds.LiesIn (bounds settings element) := by
  by_cases hne : outline.points = []
  · simp only [bounds, Shape.bounds, h, hne]
    exact .refl _
  · have hbounds : element.shape.bounds = Rect.enclosing outline.points := by rw [h, Shape.bounds]
    rw [hbounds]
    exact enclosing_liesIn_bounds settings h hne

/-- The curve through some points has as many samples as asked for in each span, but at least one,
and the first point before them. It is at its points where the spans are complete, and a joined
curve ends where it begins; up to one point is its own curve. So the bounds that a path is drawn
with contain the bounds of its points and each sample. -/
theorem curve_takes_in_its_points :
    (∀ (points : List (Point α)) (closed : Bool) (tension : α) (samples : Nat),
      let curve := Spline.sample points closed tension samples
      let spans := Spline.spans points closed tension
      (points.length ≤ 1 → curve = points) ∧
      (2 ≤ points.length →
        spans.length = (if closed ∧ 2 < points.length then points.length else points.length - 1) ∧
        curve.length = spans.length * max samples 1 + 1 ∧
        (∀ i (hi : i < points.length), curve[i * max samples 1]? = some points[i]) ∧
        (closed → 2 < points.length → curve.getLast? = curve.head?))) ∧
    ∀ (settings : Settings α) (element : Element α) (outline : Outline α),
      element.shape = .path outline →
      element.shape.bounds.LiesIn (bounds settings element) ∧
      ∀ p ∈ Spline.sample outline.points outline.closed settings.splineTension
        settings.splineSamples, (bounds settings element).contains p := by
  constructor
  · intro points closed tension samples curve spans
    refine ⟨fun hone => Spline.sample_of_length_le_one hone closed tension samples, ?_⟩
    intro htwo
    have hspans : spans.length = Spline.spanCount points.length (Spline.wraps points closed) :=
      Spline.length_spans points closed tension
    refine ⟨hspans.trans (Spline.spanCount_wraps htwo closed), ?_, ?_, ?_⟩
    · rw [hspans]
      exact Spline.length_sample htwo closed tension samples
    · intro i hi
      exact Spline.getElem?_sample_point htwo closed tension samples hi
    · rintro rfl hthree
      exact (Spline.getLast?_sample hthree tension samples).trans
        (Spline.head?_sample htwo true tension samples).symm
  · intro settings element outline h
    refine ⟨bounds_liesIn_bounds settings h, ?_⟩
    intro p hp
    simp only [bounds, h]
    exact Rect.contains_enclosing hp

/-- A closed path around the corner triangle goes through its last corner at the second span's end
and back to the first one, within its bounds. -/
theorem corner_path_bounded :
    let points : List (Point ℝ) := [⟨0, 0⟩, ⟨1, 0⟩, ⟨0, 1⟩]
    let path : Element ℝ := { cornerTriangle with shape := .path ⟨points, true⟩ }
    let curve := Spline.sample points true (1 / 2) 0
    curve.length = 4 ∧ curve[2]? = some ⟨0, 1⟩ ∧ curve.getLast? = curve.head? ∧
      path.shape.bounds.LiesIn (bounds Settings.default path) := by
  intro points path curve
  obtain ⟨hsampled, hbounded⟩ := curve_takes_in_its_points (α := ℝ)
  obtain ⟨-, hcurve⟩ := hsampled points true (1 / 2) 0
  obtain ⟨hspans, hlength, hpoints, hjoined⟩ := hcurve (by decide)
  refine ⟨?_, hpoints 2 (by decide), hjoined rfl (by decide), ?_⟩
  · rw [hlength, hspans]
    rfl
  · exact (hbounded Settings.default path ⟨points, true⟩ rfl).1

end RegionDrawing.PolylineDrawer
