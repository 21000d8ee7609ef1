import RegionDrawing.Canvas.Command
import RegionDrawing.Canvas.View
import RegionDrawing.Element.Basic
import RegionDrawing.Geometry.Spline

/-! # Pens

The colors and widths that shapes are drawn with, and the pieces that drawings are made of: traced
outlines, handles on vertices and labels.
-/
namespace RegionDrawing.Canvas

variable {α : Type} [Scalar α]

def defaultStroke : String := "#00C2FF"
def defaultFill : String := "rgba(0, 194, 255, 0.12)"
def defaultStrokeWidth : α := 2
def selectedStroke : String := "#FFB020"
def previewStroke : String := "#FFFFFF"
/-- The dashes of shapes in progress and of hidden faces, in screen pixels. -/
def previewDash : List α := [6, 4]
def handleRadius : α := 4
def handleOutline : String := "#000000"
def hoverBoost : α := 1
def labelFont : String := "12px sans-serif"
/-- How far a label stands above its anchor. -/
def labelOffset : α := 4

structure Pen (α : Type) where
  stroke : String
  fill : String
  width : α
  deriving BEq, DecidableEq, Repr

namespace Pen

/-- The pen for an element: its own style over the defaults, with the selection's stroke when
selected and a wider line when hovered. -/
def ofStyle (style : Option (Style α)) (view : View α) : Pen α :=
  let stroke := (style.bind (·.strokeColor)).getD defaultStroke
  let width := (style.bind (·.strokeWidth)).getD defaultStrokeWidth
  { stroke := if view.selected then selectedStroke else stroke
    fill := (style.bind (·.fillColor)).getD defaultFill
    width := if view.hovered then width + hoverBoost else width }

def preview : Pen α := ⟨previewStroke, defaultFill, defaultStrokeWidth⟩

def apply (pen : Pen α) : List (Command α) :=
  [.strokeStyle pen.stroke, .fillStyle pen.fill, .lineWidth pen.width]

end Pen

def dashed (view : View α) : List (Command α) := [.lineDash (previewDash.map view.pixels)]

def solid : List (Command α) := [.lineDash []]

def closing (closed : Bool) : List (Command α) := if closed then [.closePath] else []

def tracePolyline (points : List (Point α)) (closed : Bool) (view : View α) :
    List (Command α) :=
  match points with
  | [] => [.beginPath]
  | first :: rest =>
    .beginPath :: .moveTo (view.screen first) ::
      (rest.map fun p => .lineTo (view.screen p)) ++ closing closed

def traceSpans (spans : List (Spline.Span α)) (closed : Bool) (view : View α) :
    List (Command α) :=
  match spans with
  | [] => [.beginPath]
  | first :: _ =>
    .beginPath :: .moveTo (view.screen first.start) ::
      (spans.map fun s =>
        .bezierTo (view.screen s.control₁) (view.screen s.control₂) (view.screen s.stop)) ++
      closing closed

def handles (points : List (Point α)) (color : String) (view : View α) : List (Command α) :=
  [.save, .fillStyle color, .strokeStyle handleOutline, .lineWidth 1] ++
    (points.flatMap fun p =>
      [.beginPath, .circle (view.screen p) (view.pixels handleRadius), .fill, .stroke]) ++
    [.restore]

/-- A label above its anchor; an empty one leaves no trace. -/
def label (text : String) (anchor : Point α) (color : String) (view : View α) :
    List (Command α) :=
  if text.isEmpty then []
  else
    let p := view.screen anchor
    [.save, .font labelFont, .fillStyle color, .text text ⟨p.x, p.y - labelOffset⟩, .restore]

end RegionDrawing.Canvas
