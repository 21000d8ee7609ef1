import RegionDrawing.Canvas.Pen
import RegionDrawing.Drawer.Basic
import RegionDrawing.Settings

/-! # The polygon and path drawers

Every press adds a point and a double click ends the list; ends that are close are joined. The two
drawers differ in how the list is drawn and picked: a polygon has straight edges and, once closed,
an interior, while a path is a smooth curve of which only the line counts.
-/
namespace RegionDrawing

inductive OutlineKind where
  | polygon
  | path
  deriving DecidableEq, Repr

namespace OutlineKind

def info : OutlineKind → DrawerInfo
  | polygon => ⟨"polygon", "Polygon", .freeform, 'p', .polygon, "crosshair"⟩
  | path => ⟨"path", "Smooth path", .freeform, 's', .path, "crosshair"⟩

def shape {α : Type} (kind : OutlineKind) (outline : Outline α) : Shape α :=
  match kind with
  | polygon => .polygon outline
  | path => .path outline

end OutlineKind

def Shape.outline? {α : Type} : Shape α → Option (Outline α)
  | .polygon outline => some outline
  | .path outline => some outline
  | _ => none

namespace PolylineDrawer

open Canvas

variable {α : Type} [Scalar α] (kind : OutlineKind) (settings : Settings α)

/-- The open list of points, stretching to the pointer. -/
def preview (points : List (Point α)) (cursor : Point α) : Preview α :=
  ⟨kind.shape ⟨points, false⟩, some cursor⟩

def start (context : DrawingContext α) : Outcome α :=
  let cursor := context.current
  let points := Polyline.append context.points cursor
  { preview := some (preview kind points cursor)
    cursor := some kind.info.cursor
    points := some points }

def move (context : DrawingContext α) : Outcome α :=
  if context.points.isEmpty then .discarded
  else .pending (preview kind context.points context.current)

def complete (context : DrawingContext α) : Outcome α :=
  if context.points.length < 2 then .discarded
  else
    let closed := Polyline.endsMeet context.points settings.autoCloseDistance
    .completed (kind.shape ⟨context.points, closed⟩)

def trace (points : List (Point α)) (closed : Bool) (view : View α) : List (Command α) :=
  match kind with
  | .polygon => tracePolyline points closed view
  | .path => traceSpans (Spline.spans points closed settings.splineTension) closed view

def paint (element : Element α) (view : View α) : List (Command α) :=
  match element.shape.outline? with
  | some outline =>
    let pen := Pen.ofStyle element.style view
    [.save] ++ pen.apply ++ trace kind settings outline.points outline.closed view ++
      (if outline.closed then [.fill] else []) ++ [.stroke, .restore] ++
      (if view.selected then handles outline.points pen.stroke view else []) ++
      label element.label (Rect.enclosing outline.points).topLeft pen.stroke view
  | none => []

/-- Whether ending the gesture at the pointer would join the ends. -/
def closesAt (points : List (Point α)) (cursor : Option (Point α)) : Option (Point α) :=
  match points, cursor with
  | first :: _ :: _, some cursor =>
    if first.distance cursor < settings.autoCloseDistance then some first else none
  | _, _ => none

/-- The outline up to the pointer with handles on its points; the first point is set off while a
click would join the ends. -/
def paintPreview (preview : Preview α) (view : View α) : List (Command α) :=
  match preview.shape.outline? with
  | some outline =>
    let points := match preview.cursor with
      | some cursor => Polyline.append outline.points cursor
      | none => outline.points
    [.save] ++ Pen.preview.apply ++ dashed view ++ trace kind settings points false view ++
      [.stroke] ++ solid ++ [.restore] ++
      handles outline.points (Pen.preview : Pen α).stroke view ++
      (match closesAt settings outline.points preview.cursor with
        | some first => handles [first] selectedStroke view
        | none => [])
  | none => []

/-- A polygon is picked near its outline and, when closed, in its interior; a path only near the
outline of its points. -/
def hits (element : Element α) (p : Point α) (tolerance : α) : Bool :=
  match element.shape with
  | .polygon outline =>
    Polyline.near outline.points outline.closed p tolerance ||
      (outline.closed && Polyline.interiorContains outline.points p)
  | .path outline => Polyline.near outline.points outline.closed p tolerance
  | _ => false

/-- The curve of a path may leave the rectangle of its points, so its bounds are those of the
sampled curve. -/
def bounds (element : Element α) : Rect α :=
  match element.shape with
  | .path outline =>
    Rect.enclosing
      (Spline.sample outline.points outline.closed settings.splineTension settings.splineSamples)
  | shape => shape.bounds

end PolylineDrawer

def polylineDrawer {α : Type} [Scalar α] (kind : OutlineKind) (settings : Settings α) :
    Drawer α where
  info := kind.info
  gesture := .multiClick
  start := PolylineDrawer.start kind
  move := PolylineDrawer.move kind
  finish := PolylineDrawer.move kind
  complete := PolylineDrawer.complete kind settings
  hearsCancel := false
  paint := PolylineDrawer.paint kind settings
  paintPreview := PolylineDrawer.paintPreview kind settings
  hits := PolylineDrawer.hits
  bounds := PolylineDrawer.bounds settings
  transformed element t := element.shape.transformed t

end RegionDrawing
