import RegionDrawing.Element.Payload
import RegionDrawing.Json.Reader
import RegionDrawing.Json.Writer

/-! # Elements in documents

Elements and drafts are written flat: the kind is a field beside the payload. Records hold the
fields as they stand, with a payload that has not been looked at; an element has a record, and a
record gives an element when its payload fits its kind.
-/
namespace RegionDrawing

variable {α : Type}

structure ElementRecord (α : Type) where
  id : ElementId
  kind : ShapeKind
  label : String
  note : Option String
  style : Option (Style α)
  createdAt : Timestamp
  updatedAt : Timestamp
  payload : Json α

structure DraftRecord (α : Type) where
  kind : ShapeKind
  payload : Json α
  label : Option String
  style : Option (Style α)

/-- A member that is left out when there is nothing to write. -/
def presentMember {β : Type} (key : String) (write : β → Json α) (value : Option β) :
    List (String × Json α) :=
  match value with
  | some value => [(key, write value)]
  | none => []

section
variable [Scalar α]

def Style.json (style : Style α) : Json α :=
  .obj (presentMember "strokeColor" .str style.strokeColor ++
    presentMember "fillColor" .str style.fillColor ++
    presentMember "strokeWidth" .ofScalar style.strokeWidth)

def ElementRecord.json (record : ElementRecord α) : Json α :=
  .obj ([("id", .str record.id.text), ("toolType", .str record.kind.name),
      ("label", .str record.label)] ++
    presentMember "note" .str record.note ++ presentMember "style" Style.json record.style ++
    [("createdAt", .int record.createdAt.toInt), ("updatedAt", .int record.updatedAt.toInt),
      ("data", record.payload)])

def DraftRecord.json (record : DraftRecord α) : Json α :=
  .obj ([("toolType", .str record.kind.name), ("data", record.payload)] ++
    presentMember "label" .str record.label ++ presentMember "style" Style.json record.style)

def Element.record (element : Element α) : ElementRecord α where
  id := element.id
  kind := element.kind
  label := element.label
  note := element.note
  style := element.style
  createdAt := element.createdAt
  updatedAt := element.updatedAt
  payload := element.shape.payload

def Draft.record (draft : Draft α) : DraftRecord α where
  kind := draft.kind
  payload := draft.shape.payload
  label := draft.label
  style := draft.style

def Element.json (element : Element α) : Json α := element.record.json

def Draft.json (draft : Draft α) : Json α := draft.record.json

end

variable [WrittenScalar α]

open Json (required optional)

def ShapeKind.ofTree? (tree : Json.Tree) : Option ShapeKind := tree.name? >>= ShapeKind.ofName?

def ElementId.ofTree? (tree : Json.Tree) : Option ElementId := tree.text? >>= ElementId.parse?

def Style.ofTree? (tree : Json.Tree) : Option (Style α) := do
  let [stroke, fill, width] ← tree.fields? ["strokeColor", "fillColor", "strokeWidth"] .ignored
    | none
  some ⟨← optional Json.Tree.text? stroke, ← optional Json.Tree.text? fill,
    ← optional Json.Tree.scalar? width⟩

/-- The most lists and objects inside each other that a document may hold. -/
def maximalNesting : Nat := 127

/-- Reads a record that stands inside `depth` lists and objects. -/
def ElementRecord.ofTree? (depth : Nat) (tree : Json.Tree) : Option (ElementRecord α) := do
  let [id, kind, label, note, style, createdAt, updatedAt, payload] ← tree.fields?
    ["id", "toolType", "label", "note", "style", "createdAt", "updatedAt", "data"] .ignored | none
  some {
    id := ← required ElementId.ofTree? id
    kind := ← required ShapeKind.ofTree? kind
    label := ← required Json.Tree.text? label
    note := ← optional Json.Tree.text? note
    style := ← optional Style.ofTree? style
    createdAt := ← required Json.Tree.signed64? createdAt
    updatedAt := ← required Json.Tree.signed64? updatedAt
    payload := ← required (Json.ofTree? (maximalNesting - depth - 1)) payload }

def DraftRecord.ofTree? (depth : Nat) (tree : Json.Tree) : Option (DraftRecord α) := do
  let [kind, payload, label, style] ← tree.fields?
    ["toolType", "data", "label", "style"] .ignored | none
  some {
    kind := ← required ShapeKind.ofTree? kind
    payload := ← required (Json.ofTree? (maximalNesting - depth - 1)) payload
    label := ← optional Json.Tree.text? label
    style := ← optional Style.ofTree? style }

def ElementRecord.element (record : ElementRecord α) : Except ElementError (Element α) := do
  let shape ← Shape.ofPayload record.kind record.payload
  return {
    id := record.id
    label := record.label
    note := record.note
    style := record.style
    createdAt := record.createdAt
    updatedAt := record.updatedAt
    shape := shape }

def DraftRecord.draft (record : DraftRecord α) : Except ElementError (Draft α) := do
  let shape ← Shape.ofPayload record.kind record.payload
  return ⟨shape, record.label, record.style⟩

def Element.ofTree? (depth : Nat) (tree : Json.Tree) : Option (Element α) := do
  let record ← ElementRecord.ofTree? depth tree
  record.element.toOption

def Draft.ofTree? (depth : Nat) (tree : Json.Tree) : Option (Draft α) := do
  let record ← DraftRecord.ofTree? depth tree
  record.draft.toOption

def Element.listOfText? (text : String) : Option (List (Element α)) := do
  let .arr items ← Json.Tree.parse? text | none
  items.mapM (Element.ofTree? 1)

def Element.listText (elements : List (Element α)) : String :=
  (Json.arr (elements.map Element.json)).text

end RegionDrawing
