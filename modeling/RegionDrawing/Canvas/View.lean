import RegionDrawing.Geometry.Rect

/-! # Views

How media coordinates appear on the canvas: the frame of the media in canvas pixels, the zoom of
the host's view and the state of the element being drawn.
-/
namespace RegionDrawing.Canvas

structure View (α : Type) where
  frame : Rect α
  zoom : α
  selected : Bool := false
  hovered : Bool := false
  deriving BEq, DecidableEq, Repr

namespace View

variable {α : Type} [Scalar α]

/-- A size that stays the same on the screen under the zoom. A zoom that is no positive finite
number counts as one. -/
def pixels (view : View α) (size : α) : α :=
  if Scalar.isFinite view.zoom && view.zoom > 0 then size / view.zoom else size

def screenX (view : View α) (x : α) : α := view.frame.x + x * view.frame.width

def screenY (view : View α) (y : α) : α := view.frame.y + y * view.frame.height

def screen (view : View α) (p : Point α) : Point α := ⟨view.screenX p.x, view.screenY p.y⟩

end View

end RegionDrawing.Canvas
