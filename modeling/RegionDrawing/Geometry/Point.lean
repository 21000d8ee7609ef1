import RegionDrawing.Scalar

/-! # Points

Points of the plane in media coordinates: the displayed media is the unit square, with the origin
in its upper left corner.
-/
namespace RegionDrawing

structure Point (α : Type) where
  x : α
  y : α
  deriving BEq, DecidableEq, Repr

namespace Point

variable {α : Type} [Scalar α]

def origin : Point α := ⟨0, 0⟩

def distance (p q : Point α) : α := Scalar.hypot (p.x - q.x) (p.y - q.y)

def lerp (p target : Point α) (t : α) : Point α :=
  ⟨p.x + (target.x - p.x) * t, p.y + (target.y - p.y) * t⟩

def clamped (p : Point α) : Point α := ⟨Scalar.clampUnit p.x, Scalar.clampUnit p.y⟩

def inMedia (p : Point α) : Bool := Scalar.inUnit p.x && Scalar.inUnit p.y

def isFinite (p : Point α) : Bool := Scalar.isFinite p.x && Scalar.isFinite p.y

def translated (p : Point α) (dx dy : α) : Point α := ⟨p.x + dx, p.y + dy⟩

def scaledAbout (p center : Point α) (sx sy : α) : Point α :=
  ⟨center.x + (p.x - center.x) * sx, center.y + (p.y - center.y) * sy⟩

/-- Rotates about a center, clockwise for a positive angle as the second axis points down. -/
def rotatedAbout (p center : Point α) (radians : α) : Point α :=
  let sin := Scalar.sin radians
  let cos := Scalar.cos radians
  let dx := p.x - center.x
  let dy := p.y - center.y
  ⟨center.x + dx * cos - dy * sin, center.y + dx * sin + dy * cos⟩

/-- The projection toward a vanishing point, which depth one reaches. -/
def projectedToward (p vanishing : Point α) (depth : α) : Point α := p.lerp vanishing depth

end Point

end RegionDrawing
