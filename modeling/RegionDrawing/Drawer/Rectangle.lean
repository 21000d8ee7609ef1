import RegionDrawing.Canvas.Pen
import RegionDrawing.Drawer.Basic
import RegionDrawing.Settings

/-! # The rectangle drawer

A drag spans the rectangle; with shift it is a square.
-/
namespace RegionDrawing

namespace RectangleDrawer

open Canvas

variable {α : Type} [Scalar α]

def info : DrawerInfo where
  id := "rect"
  name := "Rectangle"
  category := .shape
  shortcut := 'r'
  kind := .rect
  cursor := "crosshair"

def dragged (context : DrawingContext α) (start : Point α) : Rect α :=
  Rect.dragged start context.current context.event.modifiers.shift

def start (context : DrawingContext α) : Outcome α :=
  let p := context.current
  { preview := some ⟨.rect ⟨p.x, p.y, 0, 0⟩, none⟩, cursor := some info.cursor }

def move (context : DrawingContext α) : Outcome α :=
  match context.start with
  | none => .discarded
  | some start => .pending ⟨.rect (dragged context start), none⟩

def finish (settings : Settings α) (context : DrawingContext α) : Outcome α :=
  match context.start with
  | none => .discarded
  | some start =>
    let bounds := dragged context start
    if bounds.exceeds settings.minSize then .completed (.rect bounds) else .discarded

def paint (element : Element α) (view : View α) : List (Command α) :=
  match element.shape with
  | .rect bounds =>
    let pen := Pen.ofStyle element.style view
    [.save] ++ pen.apply ++ tracePolyline bounds.corners true view ++ [.fill, .stroke, .restore] ++
      (if view.selected then handles bounds.corners pen.stroke view else []) ++
      label element.label bounds.topLeft pen.stroke view
  | _ => []

def paintPreview (preview : Preview α) (view : View α) : List (Command α) :=
  match preview.shape with
  | .rect bounds =>
    [.save] ++ Pen.preview.apply ++ dashed view ++ tracePolyline bounds.corners true view ++
      [.stroke] ++ solid ++ [.restore]
  | _ => []

/-- The tolerance plays no part. -/
def hits (element : Element α) (p : Point α) (_tolerance : α) : Bool :=
  match element.shape with
  | .rect bounds => bounds.contains p
  | _ => false

end RectangleDrawer

def rectangleDrawer {α : Type} [Scalar α] (settings : Settings α) : Drawer α where
  info := RectangleDrawer.info
  gesture := .drag
  start := RectangleDrawer.start
  move := RectangleDrawer.move
  finish := RectangleDrawer.finish settings
  complete _ := .discarded
  hearsCancel := false
  paint := RectangleDrawer.paint
  paintPreview := RectangleDrawer.paintPreview
  hits := RectangleDrawer.hits
  bounds element := element.shape.bounds
  transformed element t := element.shape.transformed t

end RegionDrawing
