import RegionDrawing.Drawer.Box
import RegionDrawing.Drawer.Polyline
import RegionDrawing.Drawer.Rectangle

/-! # Built-in drawers -/
namespace RegionDrawing

variable {α : Type} [Scalar α]

def builtInDrawer (kind : ShapeKind) (settings : Settings α) : Drawer α :=
  match kind with
  | .rect => rectangleDrawer settings
  | .polygon => polylineDrawer .polygon settings
  | .path => polylineDrawer .path settings
  | .box => boxDrawer settings

end RegionDrawing
