import RegionDrawing.Engine.Scene

/-! # The canvas of a host

The engine as a host sees it: tools and ids are texts, modifiers are bit sets, and every event
answers whether the canvas has to be painted again.
-/
namespace RegionDrawing

structure HostCanvas (α : Type) where
  engine : Engine α

inductive HostError (α : Type) where
  | settings (error : SettingsError α)
  | malformedId
  | document (error : ElementError)

namespace HostCanvas

variable {α : Type}

def selectTool : String := "select"

def toolMode (tool : String) : Mode := if tool = selectTool then .select else .draw tool

def tool (canvas : HostCanvas α) : String :=
  match canvas.engine.session.mode with
  | .select => selectTool
  | .draw id => id

def cursor (canvas : HostCanvas α) : String := canvas.engine.session.cursor

def selection (canvas : HostCanvas α) : Option String :=
  canvas.engine.session.selected.map ElementId.text

def setAsset (canvas : HostCanvas α) (asset : String) : HostCanvas α :=
  ⟨canvas.engine.setAsset asset⟩

def setFrame (canvas : HostCanvas α) (frame : Rect α) : HostCanvas α :=
  ⟨canvas.engine.setFrame frame⟩

def setZoom (canvas : HostCanvas α) (zoom : α) : HostCanvas α := ⟨canvas.engine.setZoom zoom⟩

def setTool (canvas : HostCanvas α) (tool : String) : HostCanvas α × Bool :=
  let (engine, entered) := canvas.engine.setMode (toolMode tool)
  (⟨engine⟩, entered)

def showsChange : Action α → Bool
  | .renderNeeded | .setCursor _ => true
  | _ => false

/-- The canvas behind an event and whether it has to be painted again. -/
def answered (handled : Engine α × List (Action α)) : HostCanvas α × Bool :=
  (⟨handled.1⟩, handled.2.any showsChange)

section
variable [Scalar α]

def pointerEvent (position : Point α) (modifiers : UInt8) : PointerEvent α :=
  .ofPosition position (.ofBits modifiers)

def pointerDown (canvas : HostCanvas α) (moment : Moment) (position : Point α)
    (modifiers : UInt8) : HostCanvas α × Bool :=
  answered (canvas.engine.pointerDown moment (pointerEvent position modifiers))

def pointerMove (canvas : HostCanvas α) (moment : Moment) (position : Point α)
    (modifiers : UInt8) : HostCanvas α × Bool :=
  answered (canvas.engine.pointerMove moment (pointerEvent position modifiers))

def pointerUp (canvas : HostCanvas α) (moment : Moment) (position : Point α)
    (modifiers : UInt8) : HostCanvas α × Bool :=
  answered (canvas.engine.pointerUp moment (pointerEvent position modifiers))

def doubleClick (canvas : HostCanvas α) (moment : Moment) (position : Point α)
    (modifiers : UInt8) : HostCanvas α × Bool :=
  answered (canvas.engine.doubleClick moment (pointerEvent position modifiers))

def keyDown (canvas : HostCanvas α) (moment : Moment) (key : String) : HostCanvas α × Bool :=
  answered (canvas.engine.keyDown moment ⟨key⟩)

end

def setLabel (canvas : HostCanvas α) (moment : Moment) (id label : String) :
    HostCanvas α × Except (HostError α) Bool :=
  match ElementId.parse? id with
  | none => (canvas, .error .malformedId)
  | some id =>
    let (engine, found) := canvas.engine.patch moment id { label := some label }
    (⟨engine⟩, .ok found)

section
variable [WrittenScalar α]

def ofText (settings : Option String) : Except (HostError α) (HostCanvas α) :=
  match settings with
  | none => .ok ⟨.ofSettings Settings.default⟩
  | some text =>
    match Settings.ofText text with
    | .ok settings => .ok ⟨.ofSettings settings⟩
    | .error error => .error (.settings error)

def exportText (canvas : HostCanvas α) : String := canvas.engine.exportText

def importText (canvas : HostCanvas α) (text : String) :
    HostCanvas α × Except (HostError α) Nat :=
  let (engine, imported) := canvas.engine.importText text
  (⟨engine⟩, imported.mapError .document)

end

end HostCanvas

end RegionDrawing
