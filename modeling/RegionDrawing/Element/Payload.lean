import RegionDrawing.Element.Error
import RegionDrawing.Json.Fields

/-! # Payloads

The geometry of an element as a JSON value. A payload does not tell its kind; the kind is known
from elsewhere and decides how the payload is read. Keys are in the order in which documents sort
them.
-/
namespace RegionDrawing

variable {α : Type}

section
variable [Scalar α]

def Point.payload (p : Point α) : Json α := .obj [("x", .ofScalar p.x), ("y", .ofScalar p.y)]

def Rect.payload (r : Rect α) : Json α :=
  .obj [("height", .ofScalar r.height), ("width", .ofScalar r.width), ("x", .ofScalar r.x),
    ("y", .ofScalar r.y)]

def Outline.payload (outline : Outline α) : Json α :=
  .obj [("closed", .bool outline.closed), ("points", .arr (outline.points.map Point.payload))]

def PerspectiveBox.payload (b : PerspectiveBox α) : Json α :=
  .obj [("depth", .ofScalar b.depth), ("front", b.front.payload),
    ("vanishingPoint", b.vanishing.payload)]

def Shape.payload : Shape α → Json α
  | .rect bounds => .obj [("bounds", bounds.payload)]
  | .polygon outline => outline.payload
  | .path outline => outline.payload
  | .box b => b.payload

end

variable [WrittenScalar α]

open Json (required)

def Point.ofPayload? (value : Json α) : Option (Point α) := do
  let [x, y] ← value.fields? ["x", "y"] | none
  some ⟨← required Json.scalar? x, ← required Json.scalar? y⟩

def Rect.ofPayload? (value : Json α) : Option (Rect α) := do
  let [x, y, width, height] ← value.fields? ["x", "y", "width", "height"] | none
  some ⟨← required Json.scalar? x, ← required Json.scalar? y, ← required Json.scalar? width,
    ← required Json.scalar? height⟩

def Outline.ofPayload? (value : Json α) : Option (Outline α) := do
  let [points, closed] ← value.fields? ["points", "closed"] | none
  let points ← required Json.items? points
  some ⟨← points.mapM Point.ofPayload?, ← required Json.bool? closed⟩

def PerspectiveBox.ofPayload? (value : Json α) : Option (PerspectiveBox α) := do
  let [front, vanishing, depth] ← value.fields? ["front", "vanishingPoint", "depth"] | none
  some ⟨← required Rect.ofPayload? front, ← required Point.ofPayload? vanishing,
    ← required Json.scalar? depth⟩

def Shape.ofPayload? (kind : ShapeKind) (value : Json α) : Option (Shape α) :=
  match kind with
  | .rect => do
    let [bounds] ← value.fields? ["bounds"] | none
    some (.rect (← required Rect.ofPayload? bounds))
  | .polygon => (Outline.ofPayload? value).map .polygon
  | .path => (Outline.ofPayload? value).map .path
  | .box => (PerspectiveBox.ofPayload? value).map .box

/-- The shape of a kind with a payload, or the complaint that the payload is of another shape. -/
def Shape.ofPayload (kind : ShapeKind) (value : Json α) : Except ElementError (Shape α) :=
  match Shape.ofPayload? kind value with
  | some shape => .ok shape
  | none => .error (.wrongPayload kind)

end RegionDrawing
