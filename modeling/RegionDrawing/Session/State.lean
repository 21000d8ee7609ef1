import RegionDrawing.Registry
import RegionDrawing.VertexEditor

/-! # The state of a session

A session owns what lives between events: the mode, the gesture, its preview, the selection and
the element under the pointer. What follows from an event for elements and display leaves the
session as actions.
-/
namespace RegionDrawing

inductive Mode where
  | select
  | draw (id : String)
  deriving DecidableEq, Repr

/-- The gesture going on. The last two states mean the same as `idle` for the next event. -/
inductive GestureState (α : Type) where
  | idle
  | dragging (start : Point α)
  | collecting (points : List (Point α))
  | editing (editor : VertexEditor α)
  | cancelled
  | committed
  deriving BEq, DecidableEq, Repr

namespace GestureState

variable {α : Type}

def isDrawing : GestureState α → Bool
  | dragging _ | collecting _ => true
  | _ => false

def editor? : GestureState α → Option (VertexEditor α)
  | editing editor => some editor
  | _ => none

def points : GestureState α → List (Point α)
  | collecting points => points
  | _ => []

end GestureState

inductive Action (α : Type) where
  | previewChanged (preview : Option (Preview α))
  /-- A gesture left a draft to be stored. -/
  | elementCommitted (draft : Draft α)
  | elementUpdated (id : ElementId) (shape : Shape α)
  | elementRemoved (id : ElementId)
  | selectionChanged (id : Option ElementId)
  | hoverChanged (id : Option ElementId)
  | vertexEditStarted (id : ElementId)
  | vertexEditEnded (id : ElementId)
  | setCursor (cursor : String)
  | renderNeeded
  deriving BEq, DecidableEq, Repr

structure Session (α : Type) where
  registry : Registry α
  settings : Settings α
  mode : Mode := .select
  state : GestureState α := .idle
  preview : Option (Preview α) := none
  selected : Option ElementId := none
  hovered : Option ElementId := none
  /-- How many abandoned gestures were reported to drawers that hear of them. -/
  cancelReports : Nat := 0

namespace Session

variable {α : Type}

def activeDrawer? (session : Session α) : Option (Drawer α) :=
  match session.mode with
  | .draw id => session.registry.get? id
  | .select => none

def cursor (session : Session α) : String :=
  (session.activeDrawer?.map (·.info.cursor)).getD "default"

/-- Reports an open drawing gesture to its drawer as abandoned and drops the preview. -/
def abandonGesture (session : Session α) : Session α :=
  let heard := session.state.isDrawing && session.activeDrawer?.any (·.hearsCancel)
  { session with
    preview := none
    cancelReports := session.cancelReports + heard.toNat }

/-- Whether a mode can be entered: drawing needs a drawer that is registered and enabled. -/
def admits (session : Session α) : Mode → Bool
  | .select => true
  | .draw id => (session.registry.registration? id).any (·.enabled)

/-- Enters a mode, abandoning what goes on; tells whether it can be entered. -/
def setMode (session : Session α) (mode : Mode) : Session α × Bool :=
  if session.admits mode then
    let hovered := if mode = .select then session.hovered else none
    ({ session.abandonGesture with hovered, state := .idle, mode }, true)
  else (session, false)

def selectByShortcut (session : Session α) (key : Char) : Session α × Bool :=
  match session.registry.ofShortcut? key with
  | some drawer => session.setMode (.draw drawer.info.id)
  | none => (session, false)

/-- Abandons what goes on and clears selection and hover. The mode stays. -/
def reset (session : Session α) : Session α :=
  { session.abandonGesture with state := .idle, selected := none, hovered := none }

/-- Drops all references to an element that was removed. -/
def forget (session : Session α) (id : ElementId) : Session α :=
  { session with
    selected := if session.selected = some id then none else session.selected
    hovered := if session.hovered = some id then none else session.hovered
    state := if session.state.editor?.any (fun editor => editor.id = id) then .idle
      else session.state }

end Session

end RegionDrawing
