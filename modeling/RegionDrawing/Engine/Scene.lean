import RegionDrawing.Engine.Basic

/-! # The scene

What an engine shows: the elements of the current asset in their order, the handles of an element
under edit, and on top the shape in progress.
-/
namespace RegionDrawing.Engine

open Canvas

variable {α : Type} [Scalar α]

/-- The view before an element's own state is taken into account. -/
def view (engine : Engine α) : View α := { frame := engine.frame, zoom := engine.zoom }

def elementView (engine : Engine α) (element : Element α) : View α :=
  { engine.view with
    selected := engine.session.selected = some element.id
    hovered := engine.session.hovered = some element.id }

/-- The drawing of an element. Without a drawer for its kind it is left out. -/
def paintElement (engine : Engine α) (element : Element α) : List (Command α) :=
  match engine.session.registry.drawerFor? element.kind with
  | some drawer => drawer.paint element (engine.elementView element)
  | none => []

def paintEditor (engine : Engine α) : List (Command α) :=
  match engine.session.state.editor? with
  | some editor => handles editor.points selectedStroke engine.view
  | none => []

def paintPreview (engine : Engine α) : List (Command α) :=
  match engine.session.preview, engine.session.activeDrawer? with
  | some preview, some drawer => drawer.paintPreview preview engine.view
  | _, _ => []

def scene (engine : Engine α) : List (Command α) :=
  engine.elements.flatMap engine.paintElement ++ engine.paintEditor ++ engine.paintPreview

/-- Paints the scene on a canvas that may refuse fallible commands by their number. -/
def render (engine : Engine α) (refuses : Nat → Bool) : Painting α := paint refuses engine.scene

end RegionDrawing.Engine
