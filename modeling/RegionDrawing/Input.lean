import RegionDrawing.Geometry.Point

/-! # Input

Pointer events and keys. The host maps device positions to media coordinates before events arrive.
-/
namespace RegionDrawing

structure Modifiers where
  shift : Bool := false
  ctrl : Bool := false
  alt : Bool := false
  command : Bool := false
  deriving DecidableEq, Repr

/-- The modifiers of a bit set, from the lowest bit: shift, ctrl, alt and command. -/
def Modifiers.ofBits (bits : UInt8) : Modifiers :=
  ⟨bits &&& 1 != 0, bits &&& 2 != 0, bits &&& 4 != 0, bits &&& 8 != 0⟩

structure PointerEvent (α : Type) where
  position : Point α
  /-- Whether the pointer is over the media. -/
  within : Bool
  modifiers : Modifiers := {}
  deriving BEq, DecidableEq, Repr

namespace PointerEvent

variable {α : Type} [Scalar α]

/-- An event that is over the media exactly when its position lies on it. -/
def ofPosition (position : Point α) (modifiers : Modifiers) : PointerEvent α :=
  ⟨position, position.inMedia, modifiers⟩

def point (event : PointerEvent α) : Point α := event.position.clamped

end PointerEvent

structure Key where
  name : String
  deriving DecidableEq, Repr

namespace Key

def isEscape (key : Key) : Bool := key.name == "Escape" || key.name == "Esc"

def isDelete (key : Key) : Bool := key.name == "Delete" || key.name == "Backspace"

def char? (key : Key) : Option Char :=
  match key.name.toList with
  | [c] => some c
  | _ => none

end Key

end RegionDrawing
