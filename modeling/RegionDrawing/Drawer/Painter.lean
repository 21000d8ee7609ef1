import RegionDrawing.Canvas.Surface
import RegionDrawing.Drawer.BuiltIn

/-! # Painters

How the built-in drawers paint on a surface, call by call.
-/
namespace RegionDrawing

open Canvas

/-- How the elements and the previews of a drawer are painted on a surface. -/
structure Painter (α : Type) where
  element : Element α → View α → Drawing α Unit
  preview : Preview α → View α → Drawing α Unit

variable {α : Type} [Scalar α]

namespace RectangleDrawer

def draw (element : Element α) (view : View α) : Drawing α Unit := do
  match element.shape with
  | .rect bounds =>
    let pen := Pen.ofStyle element.style view
    call .save
    Drawing.pen pen
    Drawing.polyline bounds.corners true view
    call .fill
    call .stroke
    call .restore
    if view.selected then Drawing.handles bounds.corners pen.stroke view
    Drawing.label element.label bounds.topLeft pen.stroke view
  | _ => pure ()

def drawPreview (preview : Preview α) (view : View α) : Drawing α Unit := do
  match preview.shape with
  | .rect bounds =>
    call .save
    Drawing.pen Pen.preview
    Drawing.dashed view
    Drawing.polyline bounds.corners true view
    call .stroke
    Drawing.solid
    call .restore
  | _ => pure ()

end RectangleDrawer

namespace PolylineDrawer

variable (kind : OutlineKind) (settings : Settings α)

def drawTrace (points : List (Point α)) (closed : Bool) (view : View α) : Drawing α Unit :=
  match kind with
  | .polygon => Drawing.polyline points closed view
  | .path => Drawing.spans (Spline.spans points closed settings.splineTension) closed view

def draw (element : Element α) (view : View α) : Drawing α Unit := do
  match element.shape.outline? with
  | some outline =>
    let pen := Pen.ofStyle element.style view
    call .save
    Drawing.pen pen
    drawTrace kind settings outline.points outline.closed view
    if outline.closed then call .fill
    call .stroke
    call .restore
    if view.selected then Drawing.handles outline.points pen.stroke view
    Drawing.label element.label (Rect.enclosing outline.points).topLeft pen.stroke view
  | none => pure ()

def drawPreview (preview : Preview α) (view : View α) : Drawing α Unit := do
  match preview.shape.outline? with
  | some outline =>
    let points := match preview.cursor with
      | some cursor => Polyline.append outline.points cursor
      | none => outline.points
    let pen : Pen α := Pen.preview
    call .save
    Drawing.pen pen
    Drawing.dashed view
    drawTrace kind settings points false view
    call .stroke
    Drawing.solid
    call .restore
    Drawing.handles outline.points pen.stroke view
    match closesAt settings outline.points preview.cursor with
    | some first => Drawing.handles [first] selectedStroke view
    | none => pure ()
  | none => pure ()

end PolylineDrawer

namespace BoxDrawer

def drawFace (view : View α) (face : List (Point α)) : Drawing α Unit := do
  Drawing.polyline face true view
  call .stroke

def draw (element : Element α) (view : View α) : Drawing α Unit := do
  match element.shape with
  | .box b =>
    let pen := Pen.ofStyle element.style view
    let front := b.front.corners
    call .save
    Drawing.pen pen
    Drawing.dashed view
    drawFace view b.backCorners
    Drawing.solid
    forM b.sides (drawFace view)
    Drawing.polyline front true view
    call .fill
    call .stroke
    call .restore
    if view.selected then Drawing.handles front pen.stroke view
    Drawing.label element.label b.front.topLeft pen.stroke view
  | _ => pure ()

def drawPreview (preview : Preview α) (view : View α) : Drawing α Unit := do
  match preview.shape with
  | .box b =>
    call .save
    Drawing.pen Pen.preview
    Drawing.dashed view
    drawFace view b.backCorners
    forM b.sides (drawFace view)
    drawFace view b.front.corners
    Drawing.solid
    call .restore
  | _ => pure ()

end BoxDrawer

def builtInPainter (kind : ShapeKind) (settings : Settings α) : Painter α :=
  match kind with
  | .rect => ⟨RectangleDrawer.draw, RectangleDrawer.drawPreview⟩
  | .polygon =>
    ⟨PolylineDrawer.draw .polygon settings, PolylineDrawer.drawPreview .polygon settings⟩
  | .path => ⟨PolylineDrawer.draw .path settings, PolylineDrawer.drawPreview .path settings⟩
  | .box => ⟨BoxDrawer.draw, BoxDrawer.drawPreview⟩

end RegionDrawing
