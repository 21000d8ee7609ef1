import RegionDrawing.Element.Basic

/-! # Vertex editing

The vertices of a polygon or path, moved one at a time. A press takes hold of the nearest vertex
in reach, moves drag it along, and a press with no vertex in reach ends the editing.
-/
namespace RegionDrawing

structure VertexEditor (α : Type) where
  id : ElementId
  shape : Shape α
  reach : α
  held : Option Nat := none
  deriving BEq, DecidableEq, Repr

namespace VertexEditor

variable {α : Type}

/-- Begins to edit an element, if its shape is a point list. -/
def begin? (element : Element α) (reach : α) : Option (VertexEditor α) :=
  match element.shape with
  | .polygon _ | .path _ => some ⟨element.id, element.shape, reach, none⟩
  | _ => none

def points (editor : VertexEditor α) : List (Point α) := editor.shape.points?.getD []

variable [Scalar α]

/-- Takes hold of the nearest vertex in reach and gives its position; lets go if there is none. -/
def press (editor : VertexEditor α) (p : Point α) : VertexEditor α × Option Nat :=
  let held := Polyline.nearestVertex? editor.points p editor.reach
  ({ editor with held }, held)

def moved (shape : Shape α) (position : Nat) (p : Point α) : Shape α :=
  let moved (outline : Outline α) : Outline α :=
    ⟨Polyline.moveVertex outline.points position p, outline.closed⟩
  match shape with
  | .polygon outline => .polygon (moved outline)
  | .path outline => .path (moved outline)
  | shape => shape

/-- Moves the vertex that is held and gives the new geometry; nothing without one. -/
def drag (editor : VertexEditor α) (p : Point α) : VertexEditor α × Option (Shape α) :=
  match editor.held with
  | none => (editor, none)
  | some position =>
    let shape := moved editor.shape position p
    ({ editor with shape }, some shape)

def release (editor : VertexEditor α) : VertexEditor α := { editor with held := none }

end VertexEditor

end RegionDrawing
