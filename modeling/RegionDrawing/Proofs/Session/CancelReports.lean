import RegionDrawing.Proofs.Engine.Calls

/-! # Sessions but for their reports

A session counts how many abandoned gestures it has reported to drawers. Nothing that it does
depends on that number: a session that has reported more goes on in the same way.
-/
namespace RegionDrawing.Session

variable {α : Type}

/-- The session with a number of reports made before. -/
def counted (reports : Nat) (session : Session α) : Session α :=
  { session with cancelReports := reports + session.cancelReports }

section
variable (reports : Nat) (session : Session α)

@[simp] theorem state_counted : (session.counted reports).state = session.state := rfl

@[simp] theorem selected_counted : (session.counted reports).selected = session.selected := rfl

@[simp] theorem mode_counted : (session.counted reports).mode = session.mode := rfl

@[simp] theorem activeDrawer?_counted :
    (session.counted reports).activeDrawer? = session.activeDrawer? := rfl

theorem abandonGesture_counted :
    (session.counted reports).abandonGesture = session.abandonGesture.counted reports := by
  simp only [counted, abandonGesture, Nat.add_assoc]
  rfl

theorem setMode_counted (mode : Mode) :
    (session.counted reports).setMode mode =
      (session.setMode mode).map (counted reports) id := by
  unfold setMode
  rw [abandonGesture_counted]
  change (if session.admits mode then _ else _) = _
  split <;> rfl

theorem reset_counted : (session.counted reports).reset = session.reset.counted reports := by
  unfold reset
  rw [abandonGesture_counted]
  rfl

theorem discard_counted :
    (session.counted reports).discard = session.discard.map (counted reports) id := rfl

theorem deleteSelected_counted :
    (session.counted reports).deleteSelected =
      session.deleteSelected.map (counted reports) id := by
  dsimp only [deleteSelected, counted]
  split <;> rfl

theorem escape_counted :
    (session.counted reports).escape = session.escape.map (counted reports) id := by
  simp only [escape, abandonGesture_counted, state_counted, selected_counted]
  cases session.state with
  | editing | dragging | collecting => rfl
  | idle | cancelled | committed =>
    dsimp only
    rw [apply_ite (Prod.map (counted reports) id)]
    rfl

theorem keyDown_counted (key : Key) :
    (session.counted reports).keyDown key =
      (session.keyDown key).map (counted reports) id := by
  unfold keyDown
  rw [escape_counted, deleteSelected_counted]
  change (if key.isEscape then _ else if key.isDelete && session.mode = .select &&
    session.state.editor?.isNone then _ else _) = _
  split
  · rfl
  · split <;> rfl

variable (elements : List (Element α))

theorem selectAt_counted (p : Point α) :
    (session.counted reports).selectAt p elements =
      (session.selectAt p elements).map (counted reports) id := by
  change (if session.hit p elements = session.selected then _ else _) = _
  dsimp only [selectAt]
  split <;> rfl

theorem hoverAt_counted (p : Point α) :
    (session.counted reports).hoverAt p elements =
      (session.hoverAt p elements).map (counted reports) id := by
  change (if session.hit p elements = session.hovered then _ else _) = _
  dsimp only [hoverAt]
  split <;> rfl

theorem beginVertexEdit_counted (p : Point α) :
    (session.counted reports).beginVertexEdit p elements =
      (session.beginVertexEdit p elements).map (counted reports) id := by
  have heditor : (session.counted reports).editorAt? p elements = session.editorAt? p elements :=
    rfl
  unfold beginVertexEdit
  rw [heditor]
  split <;> rfl

variable [Scalar α]

theorem publish_counted (outcome : Outcome α) :
    (session.counted reports).publish outcome =
      (session.publish outcome).map (counted reports) id := by
  dsimp only [publish, counted]
  split <;> rfl

theorem commit_counted (outcome : Outcome α) :
    (session.counted reports).commit outcome =
      (session.commit outcome).map (counted reports) id := by
  unfold commit
  split <;> rfl

theorem drawStart_counted (name : String) (event : PointerEvent α) :
    (session.counted reports).drawStart name event elements =
      (session.drawStart name event elements).map (counted reports) id := by
  have hget : (session.counted reports).registry.get? name = session.registry.get? name := rfl
  unfold drawStart
  rw [hget]
  cases session.registry.get? name with
  | none => rfl
  | some drawer =>
    cases hgesture : drawer.gesture with
    | drag =>
      simp only [hgesture]
      exact publish_counted reports { session with state := _ } _
    | multiClick =>
      simp only [hgesture]
      exact publish_counted reports { session with state := _ } _

theorem pointerDown_counted (event : PointerEvent α) :
    (session.counted reports).pointerDown event elements =
      (session.pointerDown event elements).map (counted reports) id := by
  simp only [pointerDown, state_counted, mode_counted, selectAt_counted, drawStart_counted]
  split
  · cases session.state with
    | editing editor =>
      dsimp only
      split <;> rfl
    | idle | dragging | collecting | cancelled | committed =>
      dsimp only
      split <;> rfl
  · rfl

theorem pointerMove_counted (event : PointerEvent α) :
    (session.counted reports).pointerMove event elements =
      (session.pointerMove event elements).map (counted reports) id := by
  simp only [pointerMove, state_counted, mode_counted, activeDrawer?_counted, publish_counted,
    hoverAt_counted]
  cases session.state with
  | editing editor =>
    dsimp only
    split <;> rfl
  | dragging | collecting =>
    dsimp only
    split <;> rfl
  | idle | cancelled | committed =>
    dsimp only
    rw [apply_ite (Prod.map (counted reports) id)]
    rfl

theorem pointerUp_counted (event : PointerEvent α) :
    (session.counted reports).pointerUp event elements =
      (session.pointerUp event elements).map (counted reports) id := by
  simp only [pointerUp, state_counted, activeDrawer?_counted, publish_counted, commit_counted,
    discard_counted]
  cases session.state with
  | dragging | collecting =>
    dsimp only
    split
    · rw [apply_ite (Prod.map (counted reports) id)]
    · rfl
  | idle | editing | cancelled | committed => rfl

theorem doubleClick_counted (event : PointerEvent α) :
    (session.counted reports).doubleClick event elements =
      (session.doubleClick event elements).map (counted reports) id := by
  simp only [doubleClick, state_counted, mode_counted, activeDrawer?_counted, commit_counted,
    discard_counted, beginVertexEdit_counted]
  cases session.state with
  | collecting =>
    dsimp only
    split
    · rw [apply_ite (Prod.map (counted reports) id)]
      rfl
    · rfl
  | idle | cancelled | committed =>
    dsimp only
    rw [apply_ite (Prod.map (counted reports) id)]
    rfl
  | dragging | editing => rfl

theorem take_counted (input : Input α) :
    (session.counted reports).take elements input =
      (session.take elements input).map (counted reports) id := by
  cases input with
  | down event => exact pointerDown_counted reports session elements event
  | move event => exact pointerMove_counted reports session elements event
  | up event => exact pointerUp_counted reports session elements event
  | doubleClick event => exact doubleClick_counted reports session elements event
  | key key => exact keyDown_counted reports session key

end

end RegionDrawing.Session
