import RegionDrawing.Element.Basic

/-! # Faults of stored elements -/
namespace RegionDrawing

inductive ElementError where
  /-- The text is not a document of the expected form. -/
  | unreadable
  /-- A payload does not have the form of its kind. -/
  | wrongPayload (kind : ShapeKind)
  /-- An element's geometry could not have been committed. -/
  | invalidGeometry (kind : ShapeKind) (id : ElementId)
  /-- Two elements of one document share an id. -/
  | duplicateId (id : ElementId)
  deriving DecidableEq, Repr

def ElementError.message : ElementError → String
  | unreadable => "element decode failed"
  | wrongPayload kind => s!"invalid {kind.name} data"
  | invalidGeometry kind id => s!"invalid {kind.name} data: element {id.text} has invalid geometry"
  | duplicateId id => s!"duplicate element id: {id.text}"

end RegionDrawing
