import RegionDrawing.Geometry.Point

/-! # Rectangles

Rectangles parallel to the axes, given by their upper left corner and their extent.
-/
namespace RegionDrawing

structure Rect (α : Type) where
  x : α
  y : α
  width : α
  height : α
  deriving BEq, DecidableEq, Repr

namespace Rect

variable {α : Type} [Scalar α]

def zero : Rect α := ⟨0, 0, 0, 0⟩

def right (r : Rect α) : α := r.x + r.width

def bottom (r : Rect α) : α := r.y + r.height

def center (r : Rect α) : Point α := ⟨r.x + r.width / 2, r.y + r.height / 2⟩

def topLeft (r : Rect α) : Point α := ⟨r.x, r.y⟩

def corners (r : Rect α) : List (Point α) :=
  [⟨r.x, r.y⟩, ⟨r.right, r.y⟩, ⟨r.right, r.bottom⟩, ⟨r.x, r.bottom⟩]

def contains (r : Rect α) (p : Point α) : Bool :=
  p.x ≥ r.x && p.x ≤ r.right && p.y ≥ r.y && p.y ≤ r.bottom

/-- All numbers finite and no side negative. -/
def isProper (r : Rect α) : Bool :=
  Scalar.isFinite r.x && Scalar.isFinite r.y && Scalar.isFinite r.width &&
    Scalar.isFinite r.height && r.width ≥ 0 && r.height ≥ 0

def exceeds (r : Rect α) (size : α) : Bool := r.width > size && r.height > size

def expanded (r : Rect α) (margin : α) : Rect α :=
  ⟨r.x - margin, r.y - margin, r.width + margin * 2, r.height + margin * 2⟩

def translated (r : Rect α) (dx dy : α) : Rect α := ⟨r.x + dx, r.y + dy, r.width, r.height⟩

/-- The rectangle with a corner and a signed extent, turned so that no side is negative. -/
def ofExtent (x y width height : α) : Rect α :=
  ⟨if width < 0 then x + width else x, if height < 0 then y + height else y,
    Scalar.abs width, Scalar.abs height⟩

/-- Scales about a center; a negative factor flips. -/
def scaledAbout (r : Rect α) (center : Point α) (sx sy : α) : Rect α :=
  let corner := r.topLeft.scaledAbout center sx sy
  ofExtent corner.x corner.y (r.width * sx) (r.height * sy)

def spanning (p q : Point α) : Rect α :=
  ⟨Scalar.least p.x q.x, Scalar.least p.y q.y, Scalar.abs (p.x - q.x), Scalar.abs (p.y - q.y)⟩

def union (r s : Rect α) : Rect α :=
  let x := Scalar.least r.x s.x
  let y := Scalar.least r.y s.y
  ⟨x, y, Scalar.greatest r.right s.right - x, Scalar.greatest r.bottom s.bottom - y⟩

def enclosing? : List (Point α) → Option (Rect α)
  | [] => none
  | p :: rest =>
    let left := rest.foldl (fun m q => Scalar.least m q.x) p.x
    let top := rest.foldl (fun m q => Scalar.least m q.y) p.y
    let right := rest.foldl (fun m q => Scalar.greatest m q.x) p.x
    let bottom := rest.foldl (fun m q => Scalar.greatest m q.y) p.y
    some ⟨left, top, right - left, bottom - top⟩

/-- The least rectangle around a list of points, without extent if there are none. -/
def enclosing (points : List (Point α)) : Rect α := (enclosing? points).getD zero

def rotatedBounds (r : Rect α) (center : Point α) (radians : α) : Rect α :=
  enclosing (r.corners.map fun p => p.rotatedAbout center radians)

/-- The rectangle of a drag from `start` to `current`. A square drag takes the longer of the two
distances for both sides, but no more than the media leaves room for in the drag's direction. -/
def dragged (start current : Point α) (square : Bool) : Rect α :=
  if square then
    let dx := current.x - start.x
    let dy := current.y - start.y
    let roomX := if dx ≥ 0 then 1 - start.x else start.x
    let roomY := if dy ≥ 0 then 1 - start.y else start.y
    let longer := Scalar.greatest (Scalar.abs dx) (Scalar.abs dy)
    let side := Scalar.least (Scalar.least longer roomX) roomY
    spanning start ⟨start.x + Scalar.copySign side dx, start.y + Scalar.copySign side dy⟩
  else spanning start current

end Rect

end RegionDrawing
