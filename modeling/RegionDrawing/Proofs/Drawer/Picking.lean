import Mathlib
import RegionDrawing.Drawer.BuiltIn
import RegionDrawing.Proofs.Element.Bounds
import RegionDrawing.Proofs.Geometry.Polyline
import RegionDrawing.Proofs.Geometry.Spline

/-! # Picking within bounds

Where a drawer reports a hit and what it gives as the bounds of an element are computed from
different data: interiors are counted out along rays, outlines measured edge by edge, and paths
picked on their points but bounded by their curve. A hit still lies in the bounds, up to the margin
in which an element is picked.
-/
namespace RegionDrawing

variable {α : Type} [FieldScalar α] (settings : Settings α) {element : Element α} {p : Point α}
  {tolerance : α}

theorem RectangleDrawer.contains_of_hits_rect {bounds : Rect α}
    (h : element.shape = .rect bounds) (htolerance : 0 ≤ tolerance)
    (hhit : RectangleDrawer.hits element p tolerance) :
    (element.shape.bounds.expanded tolerance).contains p := by
  simp only [RectangleDrawer.hits, h] at hhit
  simp only [Shape.bounds, h]
  exact (Rect.liesIn_expanded _ htolerance).contains hhit

variable [ExactScalar α]

namespace PolylineDrawer

theorem contains_of_hits_polygon {outline : Outline α} (h : element.shape = .polygon outline)
    (htolerance : 0 ≤ tolerance) (hhit : hits element p tolerance) :
    ((bounds settings element).expanded tolerance).contains p := by
  simp only [hits, h, Bool.or_eq_true, Bool.and_eq_true] at hhit
  simp only [bounds, h]
  rcases hhit with hnear | ⟨_, hinterior⟩
  · exact Polyline.contains_of_near hnear
  · exact (Rect.liesIn_expanded _ htolerance).contains
      (Polyline.contains_of_interiorContains hinterior)

/-- The curve of a path goes through its points, so its bounds are around those of the points. -/
theorem enclosing_liesIn_bounds {outline : Outline α} (h : element.shape = .path outline)
    (hne : outline.points ≠ []) :
    (Rect.enclosing outline.points).LiesIn (bounds settings element) := by
  simp only [bounds, h]
  rw [Rect.enclosing_liesIn_iff hne]
  exact fun q hq => Rect.contains_enclosing (Spline.mem_sample hq _ _)

theorem contains_of_hits_path {outline : Outline α} (h : element.shape = .path outline)
    (hne : outline.points ≠ []) (hhit : hits element p tolerance) :
    ((bounds settings element).expanded tolerance).contains p := by
  simp only [hits, h] at hhit
  exact ((enclosing_liesIn_bounds settings h hne).expanded tolerance).contains
    (Polyline.contains_of_near hhit)

end PolylineDrawer

theorem BoxDrawer.contains_of_hits_box {b : PerspectiveBox α} (h : element.shape = .box b)
    (hfront : b.front.isProper) (hhit : BoxDrawer.hits settings element p tolerance) :
    (element.shape.bounds.expanded settings.boxHitMargin).contains p := by
  simp only [BoxDrawer.hits, h] at hhit
  simp only [Shape.bounds, h]
  exact ((PerspectiveBox.front_liesIn_bounds hfront).expanded _).contains hhit

/-- A hit lies in the bounds of what it hits, with the tolerance around them or, for a box, with
its own margin. -/
theorem hit_lies_in_bounds (hvalid : element.shape.isValid) (htolerance : 0 ≤ tolerance)
    (hhit : (builtInDrawer element.kind settings).hits element p tolerance) :
    (((builtInDrawer element.kind settings).bounds element).expanded
      (if element.kind = .box then settings.boxHitMargin else tolerance)).contains p := by
  cases hshape : element.shape with
  | rect bounds =>
    have hkind : element.kind = .rect := congrArg Shape.kind hshape
    rw [hkind] at hhit ⊢
    exact RectangleDrawer.contains_of_hits_rect hshape htolerance hhit
  | polygon outline =>
    have hkind : element.kind = .polygon := congrArg Shape.kind hshape
    rw [hkind] at hhit ⊢
    exact PolylineDrawer.contains_of_hits_polygon settings hshape htolerance hhit
  | path outline =>
    have hkind : element.kind = .path := congrArg Shape.kind hshape
    rw [hkind] at hhit ⊢
    have hne := Shape.controlPoints_ne_nil hvalid
    rw [hshape] at hne
    exact PolylineDrawer.contains_of_hits_path settings hshape hne hhit
  | box b =>
    have hkind : element.kind = .box := congrArg Shape.kind hshape
    rw [hkind] at hhit ⊢
    rw [hshape] at hvalid
    obtain ⟨hfront, _⟩ := PerspectiveBox.isProper_iff.mp hvalid
    have hmargin : BoxDrawer.hits settings element p tolerance := hhit
    exact BoxDrawer.contains_of_hits_box settings hshape hfront hmargin

/-- A triangle in the upper left corner of the media. -/
noncomputable def cornerTriangle : Element ℝ where
  id := ElementId.nil
  label := "Polygon"
  note := none
  style := none
  createdAt := 0
  updatedAt := 0
  shape := .polygon ⟨[⟨0, 0⟩, ⟨1, 0⟩, ⟨0, 1⟩], true⟩

/-- The triangle is hit in its interior, within its bounds. -/
theorem corner_triangle_hit :
    cornerTriangle.shape.isValid ∧ (0 : ℝ) ≤ 0 ∧
      (builtInDrawer cornerTriangle.kind Settings.default).hits cornerTriangle
        ⟨1 / 4, 1 / 4⟩ 0 ∧
      (((builtInDrawer cornerTriangle.kind Settings.default).bounds cornerTriangle).expanded
        0).contains ⟨1 / 4, 1 / 4⟩ := by
  have hvalid : cornerTriangle.shape.isValid := rfl
  have hinterior : Polyline.interiorContains
      [⟨0, 0⟩, ⟨1, 0⟩, ⟨0, 1⟩] (⟨1 / 4, 1 / 4⟩ : Point ℝ) := by
    norm_num [Polyline.interiorContains, Polyline.ringEdges, Polyline.rayCrosses]
  have hhit : (builtInDrawer cornerTriangle.kind Settings.default).hits cornerTriangle
      ⟨1 / 4, 1 / 4⟩ 0 :=
    Bool.or_eq_true_iff.mpr (.inr hinterior)
  exact ⟨hvalid, le_rfl, hhit, hit_lies_in_bounds Settings.default hvalid le_rfl hhit⟩

end RegionDrawing
