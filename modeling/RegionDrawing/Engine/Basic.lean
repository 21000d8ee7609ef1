import RegionDrawing.Session.Events
import RegionDrawing.Store

/-! # The engine

The engine joins a session to the store: what a session asks for is carried out on the elements of
the current asset. All changes come with the moment at which they happen.
-/
namespace RegionDrawing

structure Engine (α : Type) where
  session : Session α
  store : Store α
  asset : String
  /-- Where the media is displayed, in canvas pixels. -/
  frame : Rect α
  zoom : α

namespace Engine

variable {α : Type}

section
variable [Scalar α]

def ofRegistry (registry : Registry α) (settings : Settings α) : Engine α where
  session := { registry, settings }
  store := {}
  asset := ""
  frame := Rect.zero
  zoom := 1

def ofSettings (settings : Settings α) : Engine α :=
  ofRegistry (Registry.builtIn settings) settings

end

def elements (engine : Engine α) : List (Element α) := engine.store.elements engine.asset

def element? (engine : Engine α) (id : ElementId) : Option (Element α) :=
  engine.store.get? engine.asset id

/-- The extent of an element as its drawer paints it. -/
def bounds? (engine : Engine α) (id : ElementId) : Option (Rect α) := do
  let element ← engine.element? id
  let drawer ← engine.session.registry.drawerFor? element.kind
  some (drawer.bounds element)

/-- Switches to another asset, abandoning what goes on. -/
def setAsset (engine : Engine α) (asset : String) : Engine α :=
  if engine.asset = asset then engine
  else { engine with session := engine.session.reset, asset }

def setFrame (engine : Engine α) (frame : Rect α) : Engine α := { engine with frame }

def setZoom (engine : Engine α) (zoom : α) : Engine α := { engine with zoom }

def setMode (engine : Engine α) (mode : Mode) : Engine α × Bool :=
  let (session, entered) := engine.session.setMode mode
  ({ engine with session }, entered)

/-- Carries one action out. Actions that only concern the display change nothing. -/
def perform (engine : Engine α) (moment : Moment) : Action α → Engine α
  | .elementCommitted draft =>
    { engine with store := (engine.store.insert moment engine.asset draft).1 }
  | .elementUpdated id shape =>
    { engine with store := (engine.store.updateShape moment engine.asset id shape).1 }
  | .elementRemoved id =>
    { engine with
      store := (engine.store.remove engine.asset id).1
      session := engine.session.forget id }
  | _ => engine

/-- The engine behind an event that the session has taken, with its actions carried out. -/
def performAll (engine : Engine α) (moment : Moment) (taken : Session α × List (Action α)) :
    Engine α × List (Action α) :=
  let (session, actions) := taken
  (actions.foldl (fun engine action => engine.perform moment action) { engine with session },
    actions)

variable [Scalar α]

def pointerDown (engine : Engine α) (moment : Moment) (event : PointerEvent α) :
    Engine α × List (Action α) :=
  engine.performAll moment (engine.session.pointerDown event engine.elements)

def pointerMove (engine : Engine α) (moment : Moment) (event : PointerEvent α) :
    Engine α × List (Action α) :=
  engine.performAll moment (engine.session.pointerMove event engine.elements)

def pointerUp (engine : Engine α) (moment : Moment) (event : PointerEvent α) :
    Engine α × List (Action α) :=
  engine.performAll moment (engine.session.pointerUp event engine.elements)

def doubleClick (engine : Engine α) (moment : Moment) (event : PointerEvent α) :
    Engine α × List (Action α) :=
  engine.performAll moment (engine.session.doubleClick event engine.elements)

/-- A key that asks nothing of the session may be the shortcut of a drawer in select mode. -/
def shortcut (engine : Engine α) (key : Key) : Engine α × List (Action α) :=
  if engine.session.mode = .select && !engine.session.state.isDrawing then
    match key.char? with
    | none => (engine, [])
    | some c =>
      let (session, entered) := engine.session.selectByShortcut c
      if entered then ({ engine with session }, [.setCursor session.cursor]) else (engine, [])
  else (engine, [])

def keyDown (engine : Engine α) (moment : Moment) (key : Key) : Engine α × List (Action α) :=
  let (session, actions) := engine.session.keyDown key
  if actions.isEmpty then { engine with session }.shortcut key
  else engine.performAll moment (session, actions)

/-- Edits the geometry of an element through its drawer. An edit whose result could not be
committed is refused. -/
def transform (engine : Engine α) (moment : Moment) (id : ElementId) (t : Transform α) :
    Engine α × Option (Action α) :=
  let edited := do
    let element ← engine.element? id
    let drawer ← engine.session.registry.drawerFor? element.kind
    let shape := drawer.transformed element t
    if shape.isValid then some shape else none
  match edited with
  | none => (engine, none)
  | some shape =>
    ({ engine with store := (engine.store.updateShape moment engine.asset id shape).1 },
      some (.elementUpdated id shape))

omit [Scalar α] in
def patch (engine : Engine α) (moment : Moment) (id : ElementId) (patch : Patch α) :
    Engine α × Bool :=
  let (store, found) := engine.store.patch moment engine.asset id patch
  ({ engine with store }, found)

omit [Scalar α] in
def remove (engine : Engine α) (id : ElementId) : Engine α × Bool :=
  let (store, removed) := engine.store.remove engine.asset id
  ({ engine with store, session := engine.session.forget id }, removed.isSome)

omit [Scalar α] in
def clear (engine : Engine α) : Engine α × Nat :=
  let (store, count) := engine.store.clear engine.asset
  ({ engine with store, session := engine.session.reset }, count)

end Engine

namespace Engine

variable {α : Type} [WrittenScalar α]

def exportText (engine : Engine α) : String := engine.store.exportText engine.asset

/-- Replaces the elements of the current asset by those of a document. What goes on is abandoned
only behind a document that has been taken over. -/
def importText (engine : Engine α) (text : String) : Engine α × Except ElementError Nat :=
  let (store, imported) := engine.store.importText engine.asset text
  let engine := { engine with store }
  match imported with
  | .error fault => (engine, .error fault)
  | .ok count => ({ engine with session := engine.session.reset }, .ok count)

end Engine

end RegionDrawing
