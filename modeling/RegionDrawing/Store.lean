import RegionDrawing.Element.Document
import RegionDrawing.Element.Error

/-! # The store

The committed elements of every asset, in the order in which they are drawn. The store gives
drafts their ids, times and labels, and moves the elements of an asset to and from documents.
-/
namespace RegionDrawing

/-- What the surroundings provide for a change: a fresh id and the time. -/
structure Moment where
  id : ElementId
  now : Timestamp
  deriving DecidableEq, Repr

structure Store (α : Type) where
  /-- The elements of each asset that was ever written to. -/
  assets : List (String × List (Element α)) := []

namespace Store

variable {α : Type}

def elements (store : Store α) (asset : String) : List (Element α) :=
  (store.assets.lookup asset).getD []

def get? (store : Store α) (asset : String) (id : ElementId) : Option (Element α) :=
  (store.elements asset).find? fun element => element.id = id

/-- Puts a name in its place among sorted names, once. -/
def insertName (name : String) : List String → List String
  | [] => [name]
  | other :: rest =>
    if name < other then name :: other :: rest
    else if name = other then other :: rest
    else other :: insertName name rest

/-- The names of the assets that hold elements, sorted. -/
def assetNames (store : Store α) : List String :=
  ((store.assets.filter fun entry => !entry.2.isEmpty).map (·.1)).foldl
    (fun names name => insertName name names) []

def putAsset (asset : String) (elements : List (Element α)) :
    List (String × List (Element α)) → List (String × List (Element α))
  | [] => [(asset, elements)]
  | (name, old) :: rest =>
    if name = asset then (name, elements) :: rest else (name, old) :: putAsset asset elements rest

def setElements (store : Store α) (asset : String) (elements : List (Element α)) : Store α :=
  ⟨putAsset asset elements store.assets⟩

/-- The label of a draft without one: the title of its kind and its number among the elements of
that kind. -/
def defaultLabel (elements : List (Element α)) (kind : ShapeKind) : String :=
  let number := elements.countP (fun element => element.kind = kind) + 1
  s!"{kind.title} {number}"

def insert (store : Store α) (moment : Moment) (asset : String) (draft : Draft α) :
    Store α × Element α :=
  let elements := store.elements asset
  let element : Element α := {
    id := moment.id
    label := draft.label.getD (defaultLabel elements draft.kind)
    note := none
    style := draft.style
    createdAt := moment.now
    updatedAt := moment.now
    shape := draft.shape }
  (store.setElements asset (elements ++ [element]), element)

def editElement (id : ElementId) (edit : Element α → Element α) :
    List (Element α) → List (Element α)
  | [] => []
  | element :: rest =>
    if element.id = id then edit element :: rest else element :: editElement id edit rest

def updateShape (store : Store α) (moment : Moment) (asset : String) (id : ElementId)
    (shape : Shape α) : Store α × Bool :=
  match store.get? asset id with
  | none => (store, false)
  | some element =>
    if element.kind = shape.kind then
      let edit (element : Element α) := { element with shape, updatedAt := moment.now }
      (store.setElements asset (editElement id edit (store.elements asset)), true)
    else (store, false)

def patch (store : Store α) (moment : Moment) (asset : String) (id : ElementId)
    (patch : Patch α) : Store α × Bool :=
  match store.get? asset id with
  | none => (store, false)
  | some _ =>
    let edit (element : Element α) := { element.patched patch with updatedAt := moment.now }
    (store.setElements asset (editElement id edit (store.elements asset)), true)

def remove (store : Store α) (asset : String) (id : ElementId) : Store α × Option (Element α) :=
  match store.get? asset id with
  | none => (store, none)
  | some element =>
    (store.setElements asset ((store.elements asset).eraseP fun element => element.id = id),
      some element)

def clear (store : Store α) (asset : String) : Store α × Nat :=
  (⟨store.assets.filter fun entry => entry.1 ≠ asset⟩, (store.elements asset).length)

def exportText [WrittenScalar α] (store : Store α) (asset : String) : String :=
  Element.listText (store.elements asset)

/-- The first element that cannot be stored behind elements with the given ids, invalid geometry
before a repeated id. -/
def importFault? [Scalar α] (seen : List ElementId) : List (Element α) → Option ElementError
  | [] => none
  | element :: rest =>
    if !element.shape.isValid then some (.invalidGeometry element.kind element.id)
    else if seen.contains element.id then some (.duplicateId element.id)
    else importFault? (element.id :: seen) rest

def readElements [WrittenScalar α] (text : String) : Except ElementError (List (Element α)) :=
  match Element.listOfText? text with
  | none => .error .unreadable
  | some elements =>
    match importFault? [] elements with
    | some fault => .error fault
    | none => .ok elements

/-- Replaces the elements of an asset by those of a document and gives their number. The document
is read and checked as a whole before anything is replaced. -/
def importText [WrittenScalar α] (store : Store α) (asset text : String) :
    Store α × Except ElementError Nat :=
  match readElements text with
  | .error fault => (store, .error fault)
  | .ok elements => (store.setElements asset elements, .ok elements.length)

end Store

end RegionDrawing
