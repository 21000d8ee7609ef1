import RegionDrawing.Geometry.Point

/-! # Polylines

Point lists as outlines: distance to their edges, the interior of a closed one, and the searches
that gestures need.
-/
namespace RegionDrawing

variable {α : Type} [Scalar α]

/-- The distance from a point to the segment between `a` and `b`. A segment too short to project
on counts as its first end. -/
def Point.distanceToSegment (p a b : Point α) : α :=
  let dx := b.x - a.x
  let dy := b.y - a.y
  let squared := dx * dx + dy * dy
  if squared ≤ 1 / ((1 <<< 52 : Nat) : α) then p.distance a
  else
    let t := Scalar.clampUnit (((p.x - a.x) * dx + (p.y - a.y) * dy) / squared)
    p.distance ⟨a.x + dx * t, a.y + dy * t⟩

namespace Polyline

/-- Whether the ray from `p` to the right crosses the edge from `a` to `b`. -/
def rayCrosses (p a b : Point α) : Bool :=
  decide (a.y > p.y) != decide (b.y > p.y) &&
    p.x < (b.x - a.x) * (p.y - a.y) / (b.y - a.y) + a.x

def ringEdges (points : List (Point α)) : List (Point α × Point α) :=
  match points.getLast? with
  | none => []
  | some last => points.zip (last :: points)

/-- Whether a ray from the point crosses the ring an odd number of times. Fewer than three
vertices contain nothing. -/
def interiorContains (points : List (Point α)) (p : Point α) : Bool :=
  3 ≤ points.length && (ringEdges points).countP (fun (a, b) => rayCrosses p a b) % 2 = 1

def edges (points : List (Point α)) (closed : Bool) : List (Point α × Point α) :=
  let inner := points.zip (points.drop 1)
  match points, points.getLast? with
  | first :: _ :: _ :: _, some last => if closed then inner ++ [(last, first)] else inner
  | _, _ => inner

/-- Whether a point lies within the tolerance of an outline; a single point is its own outline. -/
def near (points : List (Point α)) (closed : Bool) (p : Point α) (tolerance : α) : Bool :=
  match points with
  | [only] => only.distance p ≤ tolerance
  | points => (edges points closed).any fun (a, b) => p.distanceToSegment a b ≤ tolerance

/-- The nearer of the best vertex so far and a further one, if that is in reach at all. -/
def nearerVertex (target : Point α) (reach : α) (best : Option (Nat × α))
    (vertex : Point α × Nat) : Option (Nat × α) :=
  let distance := vertex.1.distance target
  if distance > reach then best
  else match best with
    | none => some (vertex.2, distance)
    | some (_, least) => if distance < least then some (vertex.2, distance) else best

/-- The position of the vertex nearest to `target`, the first of several, if it is in reach. -/
def nearestVertex? (points : List (Point α)) (target : Point α) (reach : α) : Option Nat :=
  (points.zipIdx.foldl (nearerVertex target reach) none).map (·.1)

def repeatDistance : α := 0.000001

/-- The points with `p` added, unless it repeats the last one. -/
def append (points : List (Point α)) (p : Point α) : List (Point α) :=
  match points.getLast? with
  | none => points ++ [p]
  | some last => if last.distance p > repeatDistance then points ++ [p] else points

/-- Whether the ends of at least two points are closer than `distance`. -/
def endsMeet (points : List (Point α)) (distance : α) : Bool :=
  match points, points.getLast? with
  | first :: _ :: _, some last => first.distance last < distance
  | _, _ => false

/-- Moves one vertex to the nearest point of the media. A position beyond the list changes
nothing. -/
def moveVertex (points : List (Point α)) (position : Nat) (target : Point α) : List (Point α) :=
  points.set position target.clamped

end Polyline

end RegionDrawing
