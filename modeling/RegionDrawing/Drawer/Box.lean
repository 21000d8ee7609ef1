import RegionDrawing.Canvas.Pen
import RegionDrawing.Drawer.Basic
import RegionDrawing.Settings

/-! # The box drawer

A drag spans the front face like a rectangle; depth and vanishing point come from the settings.
The back is painted first and dashed, then the sides, then the front.
-/
namespace RegionDrawing

namespace BoxDrawer

open Canvas

variable {α : Type} [Scalar α] (settings : Settings α)

def info : DrawerInfo where
  id := "box3d"
  name := "3D box"
  category := .perspective
  shortcut := 'b'
  kind := .box
  cursor := "crosshair"

def behind (front : Rect α) : PerspectiveBox α :=
  ⟨front, settings.boxVanishing, settings.boxDepth⟩

def dragged (context : DrawingContext α) (start : Point α) : Rect α :=
  Rect.dragged start context.current context.event.modifiers.shift

def start (context : DrawingContext α) : Outcome α :=
  let p := context.current
  { preview := some ⟨.box (behind settings ⟨p.x, p.y, 0, 0⟩), none⟩, cursor := some info.cursor }

def move (context : DrawingContext α) : Outcome α :=
  match context.start with
  | none => .discarded
  | some start => .pending ⟨.box (behind settings (dragged context start)), none⟩

def finish (context : DrawingContext α) : Outcome α :=
  match context.start with
  | none => .discarded
  | some start =>
    let front := dragged context start
    if front.exceeds settings.minSize then .completed (.box (behind settings front))
    else .discarded

def strokeFace (view : View α) (face : List (Point α)) : List (Command α) :=
  tracePolyline face true view ++ [.stroke]

def paint (element : Element α) (view : View α) : List (Command α) :=
  match element.shape with
  | .box b =>
    let pen := Pen.ofStyle element.style view
    let front := b.front.corners
    [.save] ++ pen.apply ++ dashed view ++ strokeFace view b.backCorners ++ solid ++
      b.sides.flatMap (strokeFace view) ++ tracePolyline front true view ++
      [.fill, .stroke, .restore] ++
      (if view.selected then handles front pen.stroke view else []) ++
      label element.label b.front.topLeft pen.stroke view
  | _ => []

def paintPreview (preview : Preview α) (view : View α) : List (Command α) :=
  match preview.shape with
  | .box b =>
    [.save] ++ Pen.preview.apply ++ dashed view ++ strokeFace view b.backCorners ++
      b.sides.flatMap (strokeFace view) ++ strokeFace view b.front.corners ++ solid ++ [.restore]
  | _ => []

/-- A box is picked on its front face and a margin around it. The tolerance plays no part. -/
def hits (element : Element α) (p : Point α) (_tolerance : α) : Bool :=
  match element.shape with
  | .box b => (b.front.expanded settings.boxHitMargin).contains p
  | _ => false

end BoxDrawer

def boxDrawer {α : Type} [Scalar α] (settings : Settings α) : Drawer α where
  info := BoxDrawer.info
  gesture := .drag
  start := BoxDrawer.start settings
  move := BoxDrawer.move settings
  finish := BoxDrawer.finish settings
  complete _ := .discarded
  hearsCancel := false
  paint := BoxDrawer.paint
  paintPreview := BoxDrawer.paintPreview
  hits := BoxDrawer.hits settings
  bounds element := element.shape.bounds
  transformed element t := element.shape.transformed t

end RegionDrawing
