import RegionDrawing.Geometry.Rect

/-! # Perspective boxes

A front face and its projection toward a vanishing point, joined by four sides.
-/
namespace RegionDrawing

structure PerspectiveBox (α : Type) where
  front : Rect α
  vanishing : Point α
  /-- The part of the way from a front corner to the vanishing point. -/
  depth : α
  deriving BEq, DecidableEq, Repr

namespace PerspectiveBox

variable {α : Type} [Scalar α]

def backCorners (b : PerspectiveBox α) : List (Point α) :=
  b.front.corners.map fun p => p.projectedToward b.vanishing b.depth

/-- The side faces. Each joins an edge of the front, taken clockwise, to its projection. -/
def sides (b : PerspectiveBox α) : List (List (Point α)) :=
  let front := b.front.corners
  let back := b.backCorners
  let next (face : List (Point α)) := face.drop 1 ++ face.take 1
  ((front.zip (next front)).zip ((next back).zip back)).map
    fun ((a, b), (c, d)) => [a, b, c, d]

def bounds (b : PerspectiveBox α) : Rect α := Rect.enclosing (b.front.corners ++ b.backCorners)

/-- A proper front, a depth within the unit interval and a finite vanishing point. -/
def isProper (b : PerspectiveBox α) : Bool :=
  b.front.isProper && Scalar.inUnit b.depth && b.vanishing.isFinite

end PerspectiveBox

end RegionDrawing
