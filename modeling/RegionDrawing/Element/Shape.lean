import RegionDrawing.Geometry.PerspectiveBox
import RegionDrawing.Geometry.Polyline
import RegionDrawing.Geometry.Transform

/-! # Shapes

The geometry of an element. Polygons and paths are both point lists; they differ in how the list
is drawn and picked.
-/
namespace RegionDrawing

inductive ShapeKind where
  | rect
  | polygon
  | path
  | box
  deriving DecidableEq, Repr

namespace ShapeKind

def name : ShapeKind → String
  | rect => "rect"
  | polygon => "polygon"
  | path => "path"
  | box => "box3d"

/-- The name of a kind for people, from which labels are made. -/
def title : ShapeKind → String
  | rect => "Rectangle"
  | polygon => "Polygon"
  | path => "Path"
  | box => "Box"

def all : List ShapeKind := [rect, polygon, path, box]

def ofName? (name : String) : Option ShapeKind := all.find? fun kind => kind.name = name

end ShapeKind

structure Outline (α : Type) where
  points : List (Point α)
  closed : Bool
  deriving BEq, DecidableEq, Repr

inductive Shape (α : Type) where
  | rect (bounds : Rect α)
  | polygon (outline : Outline α)
  | path (outline : Outline α)
  | box (box : PerspectiveBox α)
  deriving BEq, DecidableEq, Repr

namespace Shape

variable {α : Type}

def kind : Shape α → ShapeKind
  | rect _ => .rect
  | polygon _ => .polygon
  | path _ => .path
  | box _ => .box

def points? : Shape α → Option (List (Point α))
  | polygon outline => some outline.points
  | path outline => some outline.points
  | _ => none

variable [Scalar α]

/-- What a committed element has to satisfy: finite numbers, no negative side, at least two
vertices and a depth within the unit interval. -/
def isValid : Shape α → Bool
  | rect bounds => bounds.isProper
  | polygon outline => 2 ≤ outline.points.length && outline.points.all Point.isFinite
  | path outline => 2 ≤ outline.points.length && outline.points.all Point.isFinite
  | box b => b.isProper

/-- The least rectangle around the stored points. A curve may leave that of its points. -/
def bounds : Shape α → Rect α
  | rect bounds => bounds
  | polygon outline => Rect.enclosing outline.points
  | path outline => Rect.enclosing outline.points
  | box b => b.bounds

/-- The geometry after an edit. A box keeps its depth. -/
def transformed (shape : Shape α) (t : Transform α) : Shape α :=
  match shape with
  | rect bounds => rect (t.applyRect bounds)
  | polygon outline => polygon ⟨outline.points.map t.applyPoint, outline.closed⟩
  | path outline => path ⟨outline.points.map t.applyPoint, outline.closed⟩
  | box b => box ⟨t.applyRect b.front, t.applyPoint b.vanishing, b.depth⟩

end Shape

end RegionDrawing
