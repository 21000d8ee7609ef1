import RegionDrawing.Proofs.Session.Step

/-! # Sessions at rest

A session that has cancelled or committed a gesture is as good as an idle one. In whichever of the
three states two sessions rest, they take the next event in the same way, and behind it they are
alike again.
-/
namespace RegionDrawing.Session

variable {α : Type}

/-- Whether two sessions are the same, but for the state that each of them may rest in. -/
inductive AlikeAtRest : Session α → Session α → Prop where
  | same (session : Session α) : AlikeAtRest session session
  | resting (session : Session α) {state : GestureState α} (hsession : session.state.isResting)
      (hstate : state.isResting) : AlikeAtRest session { session with state }

/-- Whether sessions are alike and ask for the same actions. -/
structure TakenAlike (taken other : Session α × List (Action α)) : Prop where
  sessions : taken.1.AlikeAtRest other.1
  actions : taken.2 = other.2

theorem TakenAlike.same (taken : Session α × List (Action α)) : TakenAlike taken taken :=
  ⟨.same taken.1, rfl⟩

section
variable {session : Session α} (h : session.state.isResting)

include h

theorem editor?_of_isResting : session.state.editor? = none :=
  (GestureState.isResting_iff.mp h).2

theorem points_of_isResting : session.state.points = [] := by
  obtain hstate | hstate | hstate := GestureState.cases_of_isResting h <;> rw [hstate] <;> rfl

theorem abandonGesture_of_isResting :
    session.abandonGesture = { session with preview := none } := by
  have hdrawing : session.state.isDrawing = false := (GestureState.isResting_iff.mp h).1
  simp only [abandonGesture, hdrawing]
  rfl

theorem escape_of_isResting : session.escape =
    if session.selected.isSome then
      ({ session with selected := none }, [.selectionChanged none, .renderNeeded])
    else (session, []) := by
  unfold escape
  obtain hstate | hstate | hstate := GestureState.cases_of_isResting h <;> simp only [hstate]

variable [Scalar α] (event : PointerEvent α) (elements : List (Element α))

theorem pointerDown_of_isResting : session.pointerDown event elements =
    if event.within then
      match session.mode with
      | .select => session.selectAt event.point elements
      | .draw id => session.drawStart id event elements
    else (session, []) := by
  unfold pointerDown
  obtain hstate | hstate | hstate := GestureState.cases_of_isResting h <;>
    cases session.mode <;> simp only [hstate]

theorem pointerMove_of_isResting : session.pointerMove event elements =
    if session.mode = .select then session.hoverAt event.point elements else (session, []) := by
  unfold pointerMove
  obtain hstate | hstate | hstate := GestureState.cases_of_isResting h <;> simp only [hstate]

theorem pointerUp_of_isResting : session.pointerUp event elements = (session, []) := by
  unfold pointerUp
  obtain hstate | hstate | hstate := GestureState.cases_of_isResting h <;> simp only [hstate]

theorem doubleClick_of_isResting : session.doubleClick event elements =
    if session.mode = .select && event.within then session.beginVertexEdit event.point elements
    else (session, []) := by
  unfold doubleClick
  obtain hstate | hstate | hstate := GestureState.cases_of_isResting h <;> simp only [hstate]

end

section
variable {session : Session α} {state : GestureState α} (h : session.state.isResting)
  (hstate : state.isResting)

include h hstate

theorem takenAlike_ignored : TakenAlike (session, []) ({ session with state }, []) :=
  ⟨.resting session h hstate, rfl⟩

theorem takenAlike_escape : TakenAlike session.escape { session with state }.escape := by
  have hother : { session with state }.state.isResting := hstate
  rw [escape_of_isResting h, escape_of_isResting hother]
  split
  · exact ⟨.resting _ h hstate, rfl⟩
  · exact takenAlike_ignored h hstate

theorem takenAlike_deleteSelected :
    TakenAlike session.deleteSelected { session with state }.deleteSelected := by
  dsimp only [deleteSelected]
  split
  · exact ⟨.resting _ h hstate, rfl⟩
  · exact takenAlike_ignored h hstate

theorem takenAlike_keyDown (key : Key) :
    TakenAlike (session.keyDown key) ({ session with state }.keyDown key) := by
  have hother : { session with state }.state.isResting := hstate
  simp only [keyDown, editor?_of_isResting h, editor?_of_isResting hother]
  split
  · exact takenAlike_escape h hstate
  · split
    · exact takenAlike_deleteSelected h hstate
    · exact takenAlike_ignored h hstate

variable (elements : List (Element α))

theorem takenAlike_selectAt (p : Point α) :
    TakenAlike (session.selectAt p elements) ({ session with state }.selectAt p elements) := by
  change TakenAlike _ (if session.hit p elements = session.selected then _ else _)
  dsimp only [selectAt]
  split
  · exact takenAlike_ignored h hstate
  · exact ⟨.resting _ h hstate, rfl⟩

theorem takenAlike_hoverAt (p : Point α) :
    TakenAlike (session.hoverAt p elements) ({ session with state }.hoverAt p elements) := by
  change TakenAlike _ (if session.hit p elements = session.hovered then _ else _)
  dsimp only [hoverAt]
  split
  · exact takenAlike_ignored h hstate
  · exact ⟨.resting _ h hstate, rfl⟩

theorem takenAlike_beginVertexEdit (p : Point α) :
    TakenAlike (session.beginVertexEdit p elements)
      ({ session with state }.beginVertexEdit p elements) := by
  have heditor : { session with state }.editorAt? p elements = session.editorAt? p elements := rfl
  unfold beginVertexEdit
  rw [heditor]
  split
  · exact takenAlike_ignored h hstate
  · exact .same _

variable [Scalar α]

theorem takenAlike_drawStart (name : String) (event : PointerEvent α) :
    TakenAlike (session.drawStart name event elements)
      ({ session with state }.drawStart name event elements) := by
  have hother : { session with state }.state.isResting := hstate
  have hget : { session with state }.registry.get? name = session.registry.get? name := rfl
  unfold drawStart
  rw [hget, points_of_isResting h, points_of_isResting hother]
  cases session.registry.get? name with
  | none => exact takenAlike_ignored h hstate
  | some drawer => cases drawer.gesture <;> exact .same _

theorem takenAlike_pointerDown (event : PointerEvent α) :
    TakenAlike (session.pointerDown event elements)
      ({ session with state }.pointerDown event elements) := by
  have hother : { session with state }.state.isResting := hstate
  rw [pointerDown_of_isResting h, pointerDown_of_isResting hother]
  split
  · dsimp only
    split
    · exact takenAlike_selectAt h hstate elements _
    · exact takenAlike_drawStart h hstate elements _ event
  · exact takenAlike_ignored h hstate

theorem takenAlike_pointerMove (event : PointerEvent α) :
    TakenAlike (session.pointerMove event elements)
      ({ session with state }.pointerMove event elements) := by
  have hother : { session with state }.state.isResting := hstate
  rw [pointerMove_of_isResting h, pointerMove_of_isResting hother]
  dsimp only
  split
  · exact takenAlike_hoverAt h hstate elements _
  · exact takenAlike_ignored h hstate

theorem takenAlike_pointerUp (event : PointerEvent α) :
    TakenAlike (session.pointerUp event elements)
      ({ session with state }.pointerUp event elements) := by
  have hother : { session with state }.state.isResting := hstate
  rw [pointerUp_of_isResting h, pointerUp_of_isResting hother]
  exact takenAlike_ignored h hstate

theorem takenAlike_doubleClick (event : PointerEvent α) :
    TakenAlike (session.doubleClick event elements)
      ({ session with state }.doubleClick event elements) := by
  have hother : { session with state }.state.isResting := hstate
  rw [doubleClick_of_isResting h, doubleClick_of_isResting hother]
  dsimp only
  split
  · exact takenAlike_beginVertexEdit h hstate elements _
  · exact takenAlike_ignored h hstate

end

namespace AlikeAtRest

variable {session other : Session α} (h : session.AlikeAtRest other)

include h

theorem isDrawing_eq : session.state.isDrawing = other.state.isDrawing := by
  cases h with
  | same => rfl
  | resting h hstate =>
    exact (GestureState.isResting_iff.mp h).1.trans (GestureState.isResting_iff.mp hstate).1.symm

theorem editor?_eq : session.state.editor? = other.state.editor? := by
  cases h with
  | same => rfl
  | resting h hstate =>
    exact (GestureState.isResting_iff.mp h).2.trans (GestureState.isResting_iff.mp hstate).2.symm

theorem eq_with_state : other = { session with state := other.state } := by
  cases h <;> rfl

theorem take [Scalar α] (elements : List (Element α)) (input : Input α) :
    TakenAlike (session.take elements input) (other.take elements input) := by
  cases h with
  | same => exact .same _
  | resting h hstate =>
    cases input with
    | down event => exact takenAlike_pointerDown h hstate elements event
    | move event => exact takenAlike_pointerMove h hstate elements event
    | up event => exact takenAlike_pointerUp h hstate elements event
    | doubleClick event => exact takenAlike_doubleClick h hstate elements event
    | key key => exact takenAlike_keyDown h hstate key

theorem forget (id : ElementId) : (session.forget id).AlikeAtRest (other.forget id) := by
  cases h with
  | same => exact .same _
  | resting h hstate =>
    simp only [Session.forget, editor?_of_isResting h, (GestureState.isResting_iff.mp hstate).2]
    exact .resting _ h hstate

theorem changeRegistry (registry : Registry α) :
    { session with registry }.AlikeAtRest { other with registry } := by
  cases h with
  | same => exact .same _
  | resting h hstate => exact .resting { session with registry } h hstate

theorem reset : session.reset = other.reset := by
  cases h with
  | same => rfl
  | @resting state h hstate =>
    have hother : { session with state }.state.isResting := hstate
    unfold Session.reset
    rw [abandonGesture_of_isResting h, abandonGesture_of_isResting hother]

theorem setMode (mode : Mode) :
    (session.setMode mode).1.AlikeAtRest (other.setMode mode).1 ∧
      (session.setMode mode).2 = (other.setMode mode).2 := by
  cases h with
  | same => exact ⟨.same _, rfl⟩
  | @resting state h hstate =>
    have hother : { session with state }.state.isResting := hstate
    have hadmits : { session with state }.admits mode = session.admits mode := rfl
    unfold Session.setMode
    rw [abandonGesture_of_isResting h, abandonGesture_of_isResting hother, hadmits]
    split
    · exact ⟨.same _, rfl⟩
    · exact ⟨.resting _ h hstate, rfl⟩

end AlikeAtRest

end RegionDrawing.Session
