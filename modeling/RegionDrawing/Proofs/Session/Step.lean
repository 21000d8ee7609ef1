import RegionDrawing.Proofs.Engine.Calls

/-! # The steps of a session

`Step` is a table of all that a session can make of an event: when a row applies, what the session
is behind it and which actions it asks for. `step_take` says that the table is complete, so what
events preserve or report needs one case for each row and no look at the handlers.
-/
namespace RegionDrawing

variable {α : Type}

namespace GestureState

/-- Whether nothing goes on: no drawing gesture and no vertex editing. -/
def isResting : GestureState α → Bool
  | idle | cancelled | committed => true
  | dragging _ | collecting _ | editing _ => false

def start? : GestureState α → Option (Point α)
  | dragging start => some start
  | _ => none

def context (state : GestureState α) (event : PointerEvent α) (elements : List (Element α)) :
    DrawingContext α :=
  { event, elements, start := state.start?, points := state.points }

theorem isResting_iff {state : GestureState α} :
    state.isResting ↔ state.isDrawing = false ∧ state.editor? = none := by
  cases state <;> simp [isResting, isDrawing, editor?]

theorem cases_of_isResting {state : GestureState α} (h : state.isResting) :
    state = .idle ∨ state = .cancelled ∨ state = .committed := by
  cases state with
  | idle => exact .inl rfl
  | cancelled => exact .inr (.inl rfl)
  | committed => exact .inr (.inr rfl)
  | dragging | collecting | editing => cases h

theorem editor?_of_isDrawing {state : GestureState α} (h : state.isDrawing) :
    state.editor? = none := by
  cases state with
  | editing editor => cases h
  | _ => rfl

end GestureState

namespace Session

def edited? (session : Session α) : Option ElementId := session.state.editor?.map (·.id)

theorem edited?_eq_none {session : Session α} (h : session.state.editor? = none) :
    session.edited? = none := by
  rw [edited?, h]
  rfl

theorem edited?_eq_some {session : Session α} {editor : VertexEditor α}
    (h : session.state = .editing editor) : session.edited? = some editor.id := by
  rw [edited?, h]
  rfl

theorem activeDrawer?_eq_some_iff {session : Session α} {drawer : Drawer α} :
    session.activeDrawer? = some drawer ↔
      ∃ id, session.mode = .draw id ∧ session.registry.get? id = some drawer := by
  unfold activeDrawer?
  cases session.mode <;> simp

variable [Scalar α]

/-- What a session over a list of elements makes of an event. -/
inductive Step (session : Session α) (elements : List (Element α)) :
    Input α → Session α × List (Action α) → Prop where
  | ignored {input : Input α} : Step session elements input (session, [])
  /-- A press begins a drag. -/
  | pressed {event : PointerEvent α} {id : String} {drawer : Drawer α} (hwithin : event.within)
      (hediting : session.state.editor? = none) (hmode : session.mode = .draw id)
      (hdrawer : session.registry.get? id = some drawer) (hgesture : drawer.gesture = .drag) :
      Step session elements (.down event)
        ({ session with state := .dragging event.point }.publish
          (drawer.start { event, elements, start := some event.point }))
  /-- A press adds a point, the first one to none. -/
  | clicked {event : PointerEvent α} {id : String} {drawer : Drawer α} {outcome : Outcome α}
      (hwithin : event.within) (hediting : session.state.editor? = none)
      (hmode : session.mode = .draw id) (hdrawer : session.registry.get? id = some drawer)
      (hgesture : drawer.gesture = .multiClick)
      (houtcome : outcome = drawer.start { event, elements, points := session.state.points }) :
      Step session elements (.down event)
        ({ session with state := .collecting (outcome.points.getD session.state.points) }.publish
          outcome)
  | moved {event : PointerEvent α} {drawer : Drawer α} (hdrawing : session.state.isDrawing)
      (hdrawer : session.activeDrawer? = some drawer) :
      Step session elements (.move event)
        (session.publish (drawer.move (session.state.context event elements)))
  /-- A release leaves the points as they are. -/
  | lifted {event : PointerEvent α} {drawer : Drawer α} {points : List (Point α)}
      (hstate : session.state = .collecting points) (hdrawer : session.activeDrawer? = some drawer) :
      Step session elements (.up event)
        (session.publish (drawer.finish (session.state.context event elements)))
  | committed {input : Input α} {event : PointerEvent α} {drawer : Drawer α}
      {outcome : Outcome α} {shape : Shape α} (hdrawing : session.state.isDrawing)
      (hdrawer : session.activeDrawer? = some drawer)
      (houtcome : outcome = drawer.finish (session.state.context event elements) ∨
        outcome = drawer.complete (session.state.context event elements))
      (hshape : outcome.shape = some shape) (hvalid : shape.isValid) :
      Step session elements input
        ({ session with state := .committed, preview := none },
          [.elementCommitted { shape }, .previewChanged none, .renderNeeded])
  | discarded {input : Input α} (hdrawing : session.state.isDrawing) :
      Step session elements input session.discard
  | cancelled {key : Key} (hdrawing : session.state.isDrawing) :
      Step session elements (.key key)
        ({ session.abandonGesture with state := .cancelled }, [.previewChanged none, .renderNeeded])
  | selected {event : PointerEvent α} (hediting : session.state.editor? = none)
      (hmode : session.mode = .select) {hit : Option ElementId}
      (hhit : session.hit event.point elements = hit) (hchange : hit ≠ session.selected) :
      Step session elements (.down event)
        ({ session with selected := hit }, [.selectionChanged hit, .renderNeeded])
  | deselected {key : Key} (hresting : session.state.isResting)
      (hselected : session.selected.isSome) :
      Step session elements (.key key)
        ({ session with selected := none }, [.selectionChanged none, .renderNeeded])
  | hovered {event : PointerEvent α} (hresting : session.state.isResting)
      (hmode : session.mode = .select) {hit : Option ElementId}
      (hhit : session.hit event.point elements = hit) (hchange : hit ≠ session.hovered) :
      Step session elements (.move event)
        ({ session with hovered := hit }, [.hoverChanged hit, .renderNeeded])
  /-- Vertex editing begins on an element, which is also selected. -/
  | editBegun {event : PointerEvent α} {editor : VertexEditor α}
      (hresting : session.state.isResting) (hmode : session.mode = .select)
      (heditor : session.editorAt? event.point elements = some editor) :
      Step session elements (.doubleClick event)
        ({ session with state := .editing editor, selected := some editor.id },
          (if session.selected = some editor.id then [] else [.selectionChanged (some editor.id)]) ++
            [.vertexEditStarted editor.id, .renderNeeded])
  | gripped {event : PointerEvent α} {editor : VertexEditor α} {position : Nat}
      (hstate : session.state = .editing editor)
      (hheld : Polyline.nearestVertex? editor.points event.point editor.reach = some position) :
      Step session elements (.down event)
        ({ session with state := .editing { editor with held := some position } }, [.renderNeeded])
  | dragged {event : PointerEvent α} {editor : VertexEditor α} {position : Nat}
      (hstate : session.state = .editing editor) (hheld : editor.held = some position) :
      Step session elements (.move event)
        ({ session with
            state := .editing
              { editor with shape := VertexEditor.moved editor.shape position event.point } },
          [.elementUpdated editor.id (VertexEditor.moved editor.shape position event.point),
            .renderNeeded])
  | released {event : PointerEvent α} {editor : VertexEditor α}
      (hstate : session.state = .editing editor) :
      Step session elements (.up event) ({ session with state := .editing editor.release }, [])
  | editEnded {input : Input α} {editor : VertexEditor α}
      (hstate : session.state = .editing editor) :
      Step session elements input
        ({ session with state := .idle }, [.vertexEditEnded editor.id, .renderNeeded])
  | deleted {key : Key} {id : ElementId} (hmode : session.mode = .select)
      (hediting : session.state.editor? = none) (hselected : session.selected = some id) :
      Step session elements (.key key)
        ({ session with
            selected := none
            hovered := if session.hovered = some id then none else session.hovered },
          [.elementRemoved id, .selectionChanged none, .renderNeeded])

/-- Of a session that publishes an outcome only the preview changes, if it does. -/
theorem publish_fst (session : Session α) (outcome : Outcome α) :
    (session.publish outcome).1 =
      { session with
        preview :=
          if outcome.preview != session.preview then outcome.preview else session.preview } := by
  unfold publish
  dsimp only
  split <;> rfl

variable {session : Session α} {elements : List (Element α)} {input : Input α}

theorem step_selectAt {event : PointerEvent α} (hediting : session.state.editor? = none)
    (hmode : session.mode = .select) :
    Step session elements (.down event) (session.selectAt event.point elements) := by
  unfold selectAt
  dsimp only
  split
  · exact .ignored
  · next hchange => exact .selected hediting hmode rfl hchange

theorem step_drawStart {event : PointerEvent α} {id : String} (hwithin : event.within)
    (hediting : session.state.editor? = none) (hmode : session.mode = .draw id) :
    Step session elements (.down event) (session.drawStart id event elements) := by
  unfold drawStart
  cases hdrawer : session.registry.get? id with
  | none => exact .ignored
  | some drawer =>
    dsimp only
    cases hgesture : drawer.gesture with
    | drag => exact .pressed hwithin hediting hmode hdrawer hgesture
    | multiClick => exact .clicked hwithin hediting hmode hdrawer hgesture rfl

theorem step_pointerDown (event : PointerEvent α) :
    Step session elements (.down event) (session.pointerDown event elements) := by
  unfold pointerDown
  split
  · next hwithin =>
    split
    · next editor hstate =>
      dsimp only [VertexEditor.press]
      cases hheld : Polyline.nearestVertex? editor.points event.point editor.reach with
      | none =>
        have hstep : Step session elements (.down event) (session.endVertexEdit editor) :=
          .editEnded hstate
        exact hstep
      | some position => exact .gripped hstate hheld
    · next hother =>
      have hediting : session.state.editor? = none := by
        cases hstate : session.state with
        | editing editor => exact absurd hstate (hother editor)
        | _ => rfl
      cases hmode : session.mode with
      | select => exact step_selectAt hediting hmode
      | draw id => exact step_drawStart hwithin hediting hmode
  · exact .ignored

theorem step_hoverAt {event : PointerEvent α} (hresting : session.state.isResting)
    (hmode : session.mode = .select) :
    Step session elements (.move event) (session.hoverAt event.point elements) := by
  unfold hoverAt
  dsimp only
  split
  · exact .ignored
  · next hchange => exact .hovered hresting hmode rfl hchange

theorem step_pointerMove (event : PointerEvent α) :
    Step session elements (.move event) (session.pointerMove event elements) := by
  unfold pointerMove
  cases hstate : session.state with
  | editing editor =>
    cases hheld : editor.held with
    | none => simpa only [VertexEditor.drag, hheld] using .ignored
    | some position =>
      have hstep : Step session elements (.move event) _ := .dragged hstate hheld
      simpa only [VertexEditor.drag, hheld] using hstep
  | dragging start =>
    cases hdrawer : session.activeDrawer? with
    | none => exact .ignored
    | some drawer =>
      have hstep : Step session elements (.move event) _ := .moved (by rw [hstate]; rfl) hdrawer
      rwa [hstate] at hstep
  | collecting points =>
    cases hdrawer : session.activeDrawer? with
    | none => exact .ignored
    | some drawer =>
      have hstep : Step session elements (.move event) _ := .moved (by rw [hstate]; rfl) hdrawer
      rwa [hstate] at hstep
  | idle | cancelled | committed =>
    dsimp only
    split
    · next hmode => exact step_hoverAt (by rw [hstate]; rfl) hmode
    · exact .ignored

theorem step_commit {event : PointerEvent α} {drawer : Drawer α} {outcome : Outcome α}
    (hdrawing : session.state.isDrawing) (hdrawer : session.activeDrawer? = some drawer)
    (houtcome : outcome = drawer.finish (session.state.context event elements) ∨
      outcome = drawer.complete (session.state.context event elements)) :
    Step session elements input (session.commit outcome) := by
  unfold commit
  cases hshape : outcome.shape.filter Shape.isValid with
  | none => exact .discarded hdrawing
  | some shape =>
    obtain ⟨hsome, hvalid⟩ := Option.filter_eq_some_iff.mp hshape
    exact .committed hdrawing hdrawer houtcome hsome hvalid

theorem step_pointerUp (event : PointerEvent α) :
    Step session elements (.up event) (session.pointerUp event elements) := by
  unfold pointerUp
  cases hstate : session.state with
  | editing editor => exact .released hstate
  | dragging start =>
    have hdrawing : session.state.isDrawing := by rw [hstate]; rfl
    cases hdrawer : session.activeDrawer? with
    | none => exact .discarded hdrawing
    | some drawer =>
      dsimp only
      split
      · exact step_commit hdrawing hdrawer (.inl (by rw [hstate]; rfl))
      · exact .discarded hdrawing
  | collecting points =>
    have hdrawing : session.state.isDrawing := by rw [hstate]; rfl
    cases hdrawer : session.activeDrawer? with
    | none => exact .discarded hdrawing
    | some drawer =>
      dsimp only
      split
      · exact step_commit hdrawing hdrawer (.inl (by rw [hstate]; rfl))
      · have hstep : Step session elements (.up event) _ := .lifted hstate hdrawer
        rwa [hstate] at hstep
  | idle | cancelled | committed => exact .ignored

theorem step_beginVertexEdit {event : PointerEvent α} (hresting : session.state.isResting)
    (hmode : session.mode = .select) :
    Step session elements (.doubleClick event) (session.beginVertexEdit event.point elements) := by
  unfold beginVertexEdit
  cases heditor : session.editorAt? event.point elements with
  | none => exact .ignored
  | some editor => exact .editBegun hresting hmode heditor

theorem step_doubleClick (event : PointerEvent α) :
    Step session elements (.doubleClick event) (session.doubleClick event elements) := by
  unfold doubleClick
  cases hstate : session.state with
  | collecting points =>
    have hdrawing : session.state.isDrawing := by rw [hstate]; rfl
    cases hdrawer : session.activeDrawer? with
    | none => exact .discarded hdrawing
    | some drawer =>
      dsimp only
      split
      · exact step_commit hdrawing hdrawer (.inr (by rw [hstate]; rfl))
      · exact .ignored
  | idle | cancelled | committed =>
    dsimp only
    split
    · next h =>
      simp only [Bool.and_eq_true, decide_eq_true_eq] at h
      exact step_beginVertexEdit (by rw [hstate]; rfl) h.1
    · exact .ignored
  | dragging _ | editing _ => exact .ignored

theorem step_escape (key : Key) : Step session elements (.key key) session.escape := by
  have hdeselect (hresting : session.state.isResting) : Step session elements (.key key)
      (if session.selected.isSome then
        ({ session with selected := none }, [.selectionChanged none, .renderNeeded])
      else (session, [])) := by
    split
    · next hselected => exact .deselected hresting hselected
    · exact .ignored
  unfold escape
  split
  · next hstate => exact .editEnded hstate
  · next hstate => exact .cancelled (by rw [hstate]; rfl)
  · next hstate => exact .cancelled (by rw [hstate]; rfl)
  all_goals
    next hstate => exact hdeselect (by rw [hstate]; rfl)

theorem step_keyDown (key : Key) :
    Step session elements (.key key) (session.keyDown key) := by
  unfold keyDown
  split
  · exact step_escape key
  · split
    · next h =>
      simp only [Bool.and_eq_true, decide_eq_true_eq, Option.isNone_iff_eq_none] at h
      unfold deleteSelected
      cases hselected : session.selected with
      | none => exact .ignored
      | some id => exact .deleted h.1.2 h.2 hselected
    · exact .ignored

/-- The table is complete. -/
theorem step_take (session : Session α) (elements : List (Element α)) (input : Input α) :
    Step session elements input (session.take elements input) := by
  cases input with
  | down event => exact step_pointerDown event
  | move event => exact step_pointerMove event
  | up event => exact step_pointerUp event
  | doubleClick event => exact step_doubleClick event
  | key key => exact step_keyDown key

theorem Step.kept {taken : Session α × List (Action α)} (h : session.Step elements input taken) :
    taken.1.mode = session.mode ∧ taken.1.registry = session.registry ∧
      taken.1.settings = session.settings := by
  cases h with
  | pressed | clicked | moved | lifted =>
    rw [publish_fst]
    exact ⟨rfl, rfl, rfl⟩
  | _ => exact ⟨rfl, rfl, rfl⟩

end Session

end RegionDrawing
