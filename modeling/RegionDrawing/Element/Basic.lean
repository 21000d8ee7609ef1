import RegionDrawing.Element.Id
import RegionDrawing.Element.Shape

/-! # Elements

Annotation elements, the drafts they are made from and the patches that edit them.
-/
namespace RegionDrawing

/-- Milliseconds of the epoch. -/
abbrev Timestamp := Int64

/-- Overrides of the drawing style; what is absent is drawn with the defaults. -/
structure Style (α : Type) where
  strokeColor : Option String := none
  fillColor : Option String := none
  strokeWidth : Option α := none
  deriving BEq, DecidableEq, Repr

structure Element (α : Type) where
  id : ElementId
  label : String
  note : Option String
  style : Option (Style α)
  createdAt : Timestamp
  updatedAt : Timestamp
  shape : Shape α
  deriving BEq, DecidableEq, Repr

/-- What a completed gesture leaves behind; the store gives it an id and times. -/
structure Draft (α : Type) where
  shape : Shape α
  label : Option String := none
  style : Option (Style α) := none
  deriving BEq, DecidableEq, Repr

/-- New values for some of the fields that people edit. A note or style may also be cleared. -/
structure Patch (α : Type) where
  label : Option String := none
  note : Option (Option String) := none
  style : Option (Option (Style α)) := none
  deriving BEq, DecidableEq, Repr

variable {α : Type}

def Element.kind (element : Element α) : ShapeKind := element.shape.kind

def Draft.kind (draft : Draft α) : ShapeKind := draft.shape.kind

/-- The element with the fields of the patch; its geometry stays. -/
def Element.patched (element : Element α) (patch : Patch α) : Element α :=
  { element with
    label := patch.label.getD element.label
    note := patch.note.getD element.note
    style := patch.style.getD element.style }

end RegionDrawing
