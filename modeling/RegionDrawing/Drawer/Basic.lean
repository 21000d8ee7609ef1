import RegionDrawing.Canvas.Command
import RegionDrawing.Canvas.View
import RegionDrawing.Element.Basic
import RegionDrawing.Input
import RegionDrawing.Json.Value

/-! # Drawers

A drawer is what one kind of shape contributes: how gestures make it, how it is painted, picked,
measured and edited. A drawer has no state of its own. The session hands it a fresh context for
every event, and the outcome tells the session what to show or to commit.
-/
namespace RegionDrawing

inductive DrawerCategory where
  /-- Shapes parallel to the axes. -/
  | shape
  | freeform
  | perspective
  deriving DecidableEq, Repr

namespace DrawerCategory

def name : DrawerCategory → String
  | shape => "shape"
  | freeform => "freeform"
  | perspective => "perspective"

def ofName? (name : String) : Option DrawerCategory :=
  [shape, freeform, perspective].find? fun category => category.name = name

end DrawerCategory

inductive Gesture where
  | drag
  /-- A press for every point, then a double click. -/
  | multiClick
  deriving DecidableEq, Repr

structure DrawerInfo where
  id : String
  name : String
  category : DrawerCategory
  shortcut : Char
  kind : ShapeKind
  cursor : String
  deriving DecidableEq, Repr

def DrawerInfo.json {α : Type} (info : DrawerInfo) : Json α :=
  .obj [("id", .str info.id), ("name", .str info.name), ("category", .str info.category.name),
    ("shortcut", .str info.shortcut.toString), ("tool_type", .str info.kind.name),
    ("cursor", .str info.cursor)]

structure Preview (α : Type) where
  shape : Shape α
  /-- The pointer, for shapes that stretch to it. -/
  cursor : Option (Point α) := none
  deriving BEq, DecidableEq, Repr

def Preview.kind {α : Type} (preview : Preview α) : ShapeKind := preview.shape.kind

/-- What a drawer makes of an event. -/
structure Outcome (α : Type) where
  complete : Bool := false
  shape : Option (Shape α) := none
  preview : Option (Preview α) := none
  cursor : Option String := none
  points : Option (List (Point α)) := none
  deriving BEq, DecidableEq, Repr

namespace Outcome

variable {α : Type}

/-- The gesture goes on and shows a preview. -/
def pending (preview : Preview α) : Outcome α := { preview := some preview }

/-- The gesture is over and leaves a shape. -/
def completed (shape : Shape α) : Outcome α := { complete := true, shape := some shape }

def discarded : Outcome α := {}

end Outcome

/-- What a drawer gets to see of an event. -/
structure DrawingContext (α : Type) where
  event : PointerEvent α
  start : Option (Point α) := none
  points : List (Point α) := []
  elements : List (Element α) := []

namespace DrawingContext

variable {α : Type} [Scalar α]

def current (context : DrawingContext α) : Point α := context.event.point

end DrawingContext

structure Drawer (α : Type) where
  info : DrawerInfo
  gesture : Gesture
  start : DrawingContext α → Outcome α
  move : DrawingContext α → Outcome α
  finish : DrawingContext α → Outcome α
  complete : DrawingContext α → Outcome α
  /-- Whether abandoned gestures are reported to the drawer. -/
  hearsCancel : Bool
  paint : Element α → Canvas.View α → List (Canvas.Command α)
  paintPreview : Preview α → Canvas.View α → List (Canvas.Command α)
  /-- Whether a point picks an element, given a tolerance. -/
  hits : Element α → Point α → α → Bool
  bounds : Element α → Rect α
  transformed : Element α → Transform α → Shape α

end RegionDrawing
