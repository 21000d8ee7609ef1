import RegionDrawing.Session.State

/-! # Sessions and events

How a session takes pointer and key events. Each handler gives the session behind the event and
the actions that the event asks for.
-/
namespace RegionDrawing.Session

variable {α : Type} [Scalar α]

def publish (session : Session α) (outcome : Outcome α) : Session α × List (Action α) :=
  let cursor := match outcome.cursor with
    | some cursor => [.setCursor cursor]
    | none => []
  if outcome.preview != session.preview then
    ({ session with preview := outcome.preview },
      cursor ++ [.previewChanged outcome.preview, .renderNeeded])
  else (session, cursor)

def discard (session : Session α) : Session α × List (Action α) :=
  ({ session with state := .idle, preview := none },
    if session.preview.isSome then [.previewChanged none, .renderNeeded] else [])

/-- Ends a gesture with its shape, if there is one that may be stored. -/
def commit (session : Session α) (outcome : Outcome α) : Session α × List (Action α) :=
  match outcome.shape.filter Shape.isValid with
  | some shape =>
    ({ session with state := .committed, preview := none },
      [.elementCommitted { shape }, .previewChanged none, .renderNeeded])
  | none => session.discard

/-- The uppermost element that a point picks; later elements lie above earlier ones. Elements
without a drawer cannot be picked. -/
def hit (session : Session α) (p : Point α) (elements : List (Element α)) : Option ElementId :=
  let picked (element : Element α) : Bool :=
    match session.registry.drawerFor? element.kind with
    | some drawer => drawer.hits element p session.settings.hitTolerance
    | none => false
  (elements.reverse.find? picked).map (·.id)

def selectAt (session : Session α) (p : Point α) (elements : List (Element α)) :
    Session α × List (Action α) :=
  let hit := session.hit p elements
  if hit = session.selected then (session, [])
  else ({ session with selected := hit }, [.selectionChanged hit, .renderNeeded])

def hoverAt (session : Session α) (p : Point α) (elements : List (Element α)) :
    Session α × List (Action α) :=
  let hit := session.hit p elements
  if hit = session.hovered then (session, [])
  else ({ session with hovered := hit }, [.hoverChanged hit, .renderNeeded])

/-- The editor for the element that a point picks, if it has vertices to edit. -/
def editorAt? (session : Session α) (p : Point α) (elements : List (Element α)) :
    Option (VertexEditor α) := do
  let id ← session.hit p elements
  let element ← elements.find? fun element => element.id = id
  VertexEditor.begin? element session.settings.vertexReach

def beginVertexEdit (session : Session α) (p : Point α) (elements : List (Element α)) :
    Session α × List (Action α) :=
  match session.editorAt? p elements with
  | none => (session, [])
  | some editor =>
    let id := editor.id
    let selection := if session.selected = some id then [] else [.selectionChanged (some id)]
    ({ session with state := .editing editor, selected := some id },
      selection ++ [.vertexEditStarted id, .renderNeeded])

def endVertexEdit (session : Session α) (editor : VertexEditor α) :
    Session α × List (Action α) :=
  ({ session with state := .idle }, [.vertexEditEnded editor.id, .renderNeeded])

/-- A press in a drawing mode begins a drag or adds a point. -/
def drawStart (session : Session α) (id : String) (event : PointerEvent α)
    (elements : List (Element α)) : Session α × List (Action α) :=
  match session.registry.get? id with
  | none => (session, [])
  | some drawer =>
    match drawer.gesture with
    | .drag =>
      let start := event.point
      let outcome := drawer.start { event, elements, start := some start }
      { session with state := .dragging start }.publish outcome
    | .multiClick =>
      let points := session.state.points
      let outcome := drawer.start { event, elements, points }
      { session with state := .collecting (outcome.points.getD points) }.publish outcome

/-- A press off the media is ignored. -/
def pointerDown (session : Session α) (event : PointerEvent α) (elements : List (Element α)) :
    Session α × List (Action α) :=
  if event.within then
    match session.state with
    | .editing editor =>
      let (editor, held) := editor.press event.point
      if held.isSome then ({ session with state := .editing editor }, [.renderNeeded])
      else session.endVertexEdit editor
    | _ =>
      match session.mode with
      | .select => session.selectAt event.point elements
      | .draw id => session.drawStart id event elements
  else (session, [])

def pointerMove (session : Session α) (event : PointerEvent α) (elements : List (Element α)) :
    Session α × List (Action α) :=
  match session.state with
  | .editing editor =>
    match editor.drag event.point with
    | (editor, some shape) =>
      ({ session with state := .editing editor },
        [.elementUpdated editor.id shape, .renderNeeded])
    | (_, none) => (session, [])
  | .dragging start =>
    match session.activeDrawer? with
    | some drawer => session.publish (drawer.move { event, elements, start := some start })
    | none => (session, [])
  | .collecting points =>
    match session.activeDrawer? with
    | some drawer => session.publish (drawer.move { event, elements, points })
    | none => (session, [])
  | .idle | .cancelled | .committed =>
    if session.mode = .select then session.hoverAt event.point elements else (session, [])

def pointerUp (session : Session α) (event : PointerEvent α) (elements : List (Element α)) :
    Session α × List (Action α) :=
  match session.state with
  | .editing editor => ({ session with state := .editing editor.release }, [])
  | .dragging start =>
    match session.activeDrawer? with
    | some drawer =>
      let outcome := drawer.finish { event, elements, start := some start }
      if outcome.complete then session.commit outcome else session.discard
    | none => session.discard
  | .collecting points =>
    match session.activeDrawer? with
    | some drawer =>
      let outcome := drawer.finish { event, elements, points }
      if outcome.complete then session.commit outcome else session.publish outcome
    | none => session.discard
  | .idle | .cancelled | .committed => (session, [])

/-- A double click ends the collection of points once they make a shape, or begins to edit the
vertices of an element. -/
def doubleClick (session : Session α) (event : PointerEvent α) (elements : List (Element α)) :
    Session α × List (Action α) :=
  match session.state with
  | .collecting points =>
    match session.activeDrawer? with
    | some drawer =>
      let outcome := drawer.complete { event, elements, points }
      if outcome.complete then session.commit outcome else (session, [])
    | none => session.discard
  | .idle | .cancelled | .committed =>
    if session.mode = .select && event.within then
      session.beginVertexEdit event.point elements
    else (session, [])
  | .dragging _ | .editing _ => (session, [])

/-- Escape ends, in this order: vertex editing, a drawing gesture, the selection. -/
def escape (session : Session α) : Session α × List (Action α) :=
  match session.state with
  | .editing editor => session.endVertexEdit editor
  | .dragging _ | .collecting _ =>
    ({ session.abandonGesture with state := .cancelled }, [.previewChanged none, .renderNeeded])
  | .idle | .cancelled | .committed =>
    if session.selected.isSome then
      ({ session with selected := none }, [.selectionChanged none, .renderNeeded])
    else (session, [])

def deleteSelected (session : Session α) : Session α × List (Action α) :=
  match session.selected with
  | some id =>
    ({ session with
        selected := none
        hovered := if session.hovered = some id then none else session.hovered },
      [.elementRemoved id, .selectionChanged none, .renderNeeded])
  | none => (session, [])

def keyDown (session : Session α) (key : Key) : Session α × List (Action α) :=
  if key.isEscape then session.escape
  else if key.isDelete && session.mode = .select && session.state.editor?.isNone then
    session.deleteSelected
  else (session, [])

end RegionDrawing.Session
