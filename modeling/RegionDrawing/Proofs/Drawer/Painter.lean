import RegionDrawing.Drawer.Painter
import RegionDrawing.Proofs.Canvas.Surface

/-! # Built-in drawers on a surface

On a surface a built-in drawer makes the calls that its list of commands says, and no others.
-/
namespace RegionDrawing

open Canvas

variable {α : Type} [Scalar α]

namespace RectangleDrawer

theorem draw_eq (element : Element α) (view : View α) :
    draw element view = callAll (paint element view) := by
  unfold draw paint
  cases element.shape with
  | rect bounds =>
    cases hselected : view.selected <;>
      simp [Drawing.pen_eq, Drawing.polyline_eq, Drawing.handles_eq, Drawing.label_eq]
  | polygon | path | box => rfl

theorem drawPreview_eq (preview : Preview α) (view : View α) :
    drawPreview preview view = callAll (paintPreview preview view) := by
  unfold drawPreview paintPreview
  cases preview.shape with
  | rect bounds =>
    simp [Drawing.pen_eq, Drawing.dashed_eq, Drawing.polyline_eq, Drawing.solid_eq]
  | polygon | path | box => rfl

end RectangleDrawer

namespace PolylineDrawer

variable (kind : OutlineKind) (settings : Settings α)

theorem drawTrace_eq (points : List (Point α)) (closed : Bool) (view : View α) :
    drawTrace kind settings points closed view =
      callAll (trace kind settings points closed view) := by
  cases kind with
  | polygon => exact Drawing.polyline_eq view points closed
  | path => exact Drawing.spans_eq view _ closed

theorem draw_eq (element : Element α) (view : View α) :
    draw kind settings element view = callAll (paint kind settings element view) := by
  unfold draw paint
  cases element.shape.outline? with
  | some outline =>
    obtain ⟨points, closed⟩ := outline
    cases closed <;> cases view.selected <;>
      simp [Drawing.pen_eq, drawTrace_eq, Drawing.handles_eq, Drawing.label_eq]
  | none => rfl

theorem drawPreview_eq (preview : Preview α) (view : View α) :
    drawPreview kind settings preview view = callAll (paintPreview kind settings preview view) := by
  obtain ⟨shape, cursor⟩ := preview
  unfold drawPreview paintPreview
  cases shape.outline? with
  | some outline =>
    cases hcloses : closesAt settings outline.points cursor <;> cases cursor <;>
      simp [hcloses, Drawing.pen_eq, Drawing.dashed_eq, drawTrace_eq, Drawing.solid_eq,
        Drawing.handles_eq]
  | none => rfl

end PolylineDrawer

namespace BoxDrawer

theorem drawFace_eq (view : View α) (face : List (Point α)) :
    drawFace view face = callAll (strokeFace view face) := by
  simp [drawFace, strokeFace, Drawing.polyline_eq]

theorem drawFaces_eq (view : View α) (faces : List (List (Point α))) :
    forM faces (drawFace view) = callAll (faces.flatMap (strokeFace view)) := by
  rw [callAll_flatMap]
  exact congrArg (forM faces) (funext (drawFace_eq view))

theorem draw_eq (element : Element α) (view : View α) :
    draw element view = callAll (paint element view) := by
  unfold draw paint
  cases element.shape with
  | box b =>
    cases view.selected <;>
      simp [Drawing.pen_eq, Drawing.dashed_eq, drawFace_eq, drawFaces_eq, Drawing.solid_eq,
        Drawing.polyline_eq, Drawing.handles_eq, Drawing.label_eq]
  | rect | polygon | path => rfl

theorem drawPreview_eq (preview : Preview α) (view : View α) :
    drawPreview preview view = callAll (paintPreview preview view) := by
  unfold drawPreview paintPreview
  cases preview.shape with
  | box b =>
    simp [Drawing.pen_eq, Drawing.dashed_eq, drawFace_eq, drawFaces_eq, Drawing.solid_eq]
  | rect | polygon | path => rfl

end BoxDrawer

variable (kind : ShapeKind) (settings : Settings α)

theorem builtInPainter_element (element : Element α) (view : View α) :
    (builtInPainter kind settings).element element view =
      callAll ((builtInDrawer kind settings).paint element view) := by
  cases kind with
  | rect => exact RectangleDrawer.draw_eq element view
  | polygon => exact PolylineDrawer.draw_eq .polygon settings element view
  | path => exact PolylineDrawer.draw_eq .path settings element view
  | box => exact BoxDrawer.draw_eq element view

theorem builtInPainter_preview (preview : Preview α) (view : View α) :
    (builtInPainter kind settings).preview preview view =
      callAll ((builtInDrawer kind settings).paintPreview preview view) := by
  cases kind with
  | rect => exact RectangleDrawer.drawPreview_eq preview view
  | polygon => exact PolylineDrawer.drawPreview_eq .polygon settings preview view
  | path => exact PolylineDrawer.drawPreview_eq .path settings preview view
  | box => exact BoxDrawer.drawPreview_eq preview view

end RegionDrawing
