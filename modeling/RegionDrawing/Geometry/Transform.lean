import RegionDrawing.Geometry.Rect

/-! # Affine edits

A scaling, a rotation and a displacement, each optional, applied in this order.
-/
namespace RegionDrawing

structure Scaling (α : Type) where
  sx : α
  sy : α
  center : Point α
  deriving BEq, DecidableEq, Repr

structure Rotation (α : Type) where
  radians : α
  center : Point α
  deriving BEq, DecidableEq, Repr

structure Displacement (α : Type) where
  dx : α
  dy : α
  deriving BEq, DecidableEq, Repr

structure Transform (α : Type) where
  displacement : Option (Displacement α) := none
  scaling : Option (Scaling α) := none
  rotation : Option (Rotation α) := none
  deriving BEq, DecidableEq, Repr

namespace Transform

variable {α : Type} [Scalar α]

def applyPoint (t : Transform α) (p : Point α) : Point α :=
  let p := match t.scaling with
    | some s => p.scaledAbout s.center s.sx s.sy
    | none => p
  let p := match t.rotation with
    | some r => p.rotatedAbout r.center r.radians
    | none => p
  match t.displacement with
  | some v => p.translated v.dx v.dy
  | none => p

/-- A rectangle stays parallel to the axes: a rotation gives the bounds of the rotated corners. -/
def applyRect (t : Transform α) (r : Rect α) : Rect α :=
  let r := match t.scaling with
    | some s => r.scaledAbout s.center s.sx s.sy
    | none => r
  let r := match t.rotation with
    | some rotation => r.rotatedBounds rotation.center rotation.radians
    | none => r
  match t.displacement with
  | some v => r.translated v.dx v.dy
  | none => r

end Transform

end RegionDrawing
