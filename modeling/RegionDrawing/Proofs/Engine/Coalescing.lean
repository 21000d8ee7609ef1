import RegionDrawing.Proofs.Binary64.Order
import RegionDrawing.Proofs.Element.Comparison
import RegionDrawing.Proofs.Engine.VertexEdit

/-! # Pointer moves that are left out

A host may leave out all but the last of several moves of the pointer. Whatever a move sets, be it
the vertex that is held, the preview or the hover, the next one sets anew, from what no move
changes. Only the time of the last change of an element under vertex edit tells when it was moved,
and a preview that compares as equal to the new one stays.
-/
namespace RegionDrawing

variable {α : Type}

/-- An element without the time of its last change, if its vertices are being edited. -/
def Element.undated (edited? : Option ElementId) (element : Element α) : Element α :=
  if edited? = some element.id then { element with updatedAt := 0 } else element

namespace Store

theorem undated_editElement (shape : Shape α) (now other : Timestamp) (id : ElementId)
    (elements : List (Element α)) :
    (editElement id (reshaped shape now) elements).map (Element.undated (some id)) =
      (editElement id (reshaped shape other) elements).map (Element.undated (some id)) := by
  induction elements with
  | nil => rfl
  | cons e rest ih =>
    by_cases hid : e.id = id
    · simp [editElement, hid, Element.undated, reshaped]
    · simp [editElement, hid, ih]

theorem undated_updateShape (store : Store α) (moment other : Moment) (asset : String)
    (id : ElementId) (shape : Shape α) (name : String) :
    ((store.updateShape moment asset id shape).1.elements name).map (Element.undated (some id)) =
      ((store.updateShape other asset id shape).1.elements name).map
        (Element.undated (some id)) := by
  rcases store.updateShape_cases moment asset id shape with
    ⟨element, hget, hkind, heq⟩ | ⟨hnone, heq⟩
  · rcases store.updateShape_cases other asset id shape with ⟨_, _, _, heq'⟩ | ⟨hnone, _⟩
    · rw [heq, heq', elements_setElements, elements_setElements]
      split
      · exact undated_editElement shape _ _ id _
      · rfl
    · exact absurd hkind (hnone element hget)
  · rcases store.updateShape_cases other asset id shape with ⟨element, hget, hkind, _⟩ | ⟨_, heq'⟩
    · exact absurd hkind (hnone element hget)
    · rw [heq, heq']

theorem updateShape_updateShape (store : Store α) (moment other : Moment) (asset : String)
    (id : ElementId) {shape further : Shape α} (hkind : shape.kind = further.kind)
    (name : String) :
    ((store.updateShape moment asset id shape).1.updateShape other asset id further).1.elements
        name = (store.updateShape other asset id further).1.elements name := by
  rcases store.updateShape_cases moment asset id shape with ⟨element, hget, hold, heq⟩ | ⟨_, heq⟩
  · have hstored := get?_updateShape hget hold moment
    rcases store.updateShape_cases other asset id further with ⟨_, _, _, hdirect⟩ | ⟨hnone, _⟩
    · rcases (store.updateShape moment asset id shape).1.updateShape_cases other asset id further
        with ⟨_, _, _, hagain⟩ | ⟨hnone, _⟩
      · rw [hagain, hdirect, heq]
        simp only [elements_setElements, if_true]
        split
        · exact editElement_editElement (id_reshaped shape moment.now) (fun _ => rfl) _
        · rfl
      · exact absurd hkind (hnone _ hstored)
    · exact absurd (hold.trans hkind) (hnone element hget)
  · rw [heq]

end Store

/-- Whether two previews are the same or compare as equal. -/
def AlikePreviews [Scalar α] (preview other : Option (Preview α)) : Prop :=
  preview = other ∨ preview == other

/-- Whether two sessions are the same, previews compared by their numbers. -/
structure Session.Alike [Scalar α] (session other : Session α) : Prop where
  registry : session.registry = other.registry
  settings : session.settings = other.settings
  mode : session.mode = other.mode
  state : session.state = other.state
  preview : AlikePreviews session.preview other.preview
  selected : session.selected = other.selected
  hovered : session.hovered = other.hovered
  cancelReports : session.cancelReports = other.cancelReports

/-- Whether two engines are the same, previews compared by their numbers and the time of the last
change of an element under vertex edit left aside. -/
structure Engine.Alike [Scalar α] (engine other : Engine α) : Prop where
  session : engine.session.Alike other.session
  asset : engine.asset = other.asset
  frame : engine.frame = other.frame
  zoom : engine.zoom = other.zoom
  elements : ∀ asset,
    (engine.store.elements asset).map (Element.undated engine.session.edited?) =
      (other.store.elements asset).map (Element.undated other.session.edited?)

section
variable [Scalar α]

theorem AlikePreviews.trans [PartialEquivBEq α] {p q r : Option (Preview α)}
    (hpq : AlikePreviews p q) (hqr : AlikePreviews q r) : AlikePreviews p r := by
  rcases hpq with rfl | hpq
  · exact hqr
  · rcases hqr with rfl | hqr
    · exact .inr hpq
    · exact .inr (BEq.trans hpq hqr)

/-- What is shown once a preview was published does not depend on what was shown before. -/
theorem alikePreviews_published [PartialEquivBEq α] (p q preview : Option (Preview α)) :
    AlikePreviews (if preview != p then preview else p) (if preview != q then preview else q) := by
  have hshown : ∀ old : Option (Preview α),
      (if preview != old then preview else old) = preview ∨
        preview == (if preview != old then preview else old) := by
    intro old
    split
    · exact .inl rfl
    · next hsame => exact .inr (by simpa [bne] using hsame)
  rcases hshown p with hp | hp
  · rw [hp]
    rcases hshown q with hq | hq
    · exact .inl hq.symm
    · exact .inr hq
  · rcases hshown q with hq | hq
    · rw [hq]
      exact .inr (BEq.symm hp)
    · exact .inr (BEq.trans (BEq.symm hp) hq)

namespace Session

theorem Alike.refl (session : Session α) : session.Alike session :=
  ⟨rfl, rfl, rfl, rfl, .inl rfl, rfl, rfl, rfl⟩

theorem Alike.trans [PartialEquivBEq α] {s t u : Session α} (hst : s.Alike t) (htu : t.Alike u) :
    s.Alike u :=
  ⟨hst.registry.trans htu.registry, hst.settings.trans htu.settings, hst.mode.trans htu.mode,
    hst.state.trans htu.state, hst.preview.trans htu.preview, hst.selected.trans htu.selected,
    hst.hovered.trans htu.hovered, hst.cancelReports.trans htu.cancelReports⟩

variable (session : Session α) (elements : List (Element α))

omit [Scalar α] in
theorem hoverAt_fst (p : Point α) :
    (session.hoverAt p elements).1 = { session with hovered := session.hit p elements } := by
  unfold hoverAt
  dsimp only
  split
  · next h => rw [h]
  · rfl

variable {session}

theorem pointerMove_of_drawing {drawer : Drawer α} (hdrawing : session.state.isDrawing)
    (hdrawer : session.activeDrawer? = some drawer) (event : PointerEvent α) :
    session.pointerMove event elements =
      session.publish (drawer.move (session.state.context event elements)) := by
  unfold pointerMove
  cases hstate : session.state with
  | dragging start => simp only [hdrawer]; rfl
  | collecting points => simp only [hdrawer]; rfl
  | idle | editing | cancelled | committed =>
    rw [hstate] at hdrawing
    cases hdrawing

theorem pointerMove_of_resting (hresting : session.state.isResting) (hmode : session.mode = .select)
    (event : PointerEvent α) :
    session.pointerMove event elements = session.hoverAt event.point elements := by
  unfold pointerMove
  rcases GestureState.cases_of_isResting hresting with hstate | hstate | hstate <;>
    simp only [hstate, hmode, if_true]

/-- Whether a move drags a vertex. -/
def DragsVertex (session : Session α) : Prop :=
  ∃ editor position, session.state = .editing editor ∧ editor.held = some position

theorem pointerMove_cases (hvertex : ¬ session.DragsVertex) :
    (∃ drawer, session.state.isDrawing ∧ session.activeDrawer? = some drawer) ∨
    (session.state.isResting ∧ session.mode = .select) ∨
    ∀ event, session.pointerMove event elements = (session, []) := by
  cases hstate : session.state with
  | dragging start =>
    cases hdrawer : session.activeDrawer? with
    | some drawer => exact .inl ⟨drawer, rfl, rfl⟩
    | none => exact .inr (.inr fun event => by simp only [pointerMove, hstate, hdrawer])
  | collecting points =>
    cases hdrawer : session.activeDrawer? with
    | some drawer => exact .inl ⟨drawer, rfl, rfl⟩
    | none => exact .inr (.inr fun event => by simp only [pointerMove, hstate, hdrawer])
  | editing editor =>
    right; right
    intro event
    cases hheld : editor.held with
    | none => simp only [pointerMove, hstate, VertexEditor.drag, hheld]
    | some position => exact absurd ⟨editor, position, hstate, hheld⟩ hvertex
  | idle | cancelled | committed =>
    by_cases hmode : session.mode = .select
    · exact .inr (.inl ⟨rfl, hmode⟩)
    · exact .inr (.inr fun event => by simp only [pointerMove, hstate, hmode, if_false])

theorem forDisplay_pointerMove (hvertex : ¬ session.DragsVertex) (event : PointerEvent α) :
    ForDisplay (session.pointerMove event elements).2 := by
  rcases session.pointerMove_cases elements hvertex with
    ⟨drawer, hdrawing, hdrawer⟩ | ⟨hresting, hmode⟩ | hnothing
  · rw [pointerMove_of_drawing elements hdrawing hdrawer]
    exact forDisplay_publish _ _
  · rw [pointerMove_of_resting elements hresting hmode]
    unfold hoverAt
    dsimp only
    split <;> simp [Action.forDisplay]
  · rw [hnothing]
    exact forDisplay_nil

/-- Of two moves outside of vertex drags only the second one counts. -/
theorem pointerMove_pointerMove [PartialEquivBEq α] (hvertex : ¬ session.DragsVertex)
    (first last : PointerEvent α) :
    ((session.pointerMove first elements).1.pointerMove last elements).1.Alike
      (session.pointerMove last elements).1 := by
  rcases session.pointerMove_cases elements hvertex with
    ⟨drawer, hdrawing, hdrawer⟩ | ⟨hresting, hmode⟩ | hnothing
  · obtain ⟨preview, hfirst⟩ : ∃ preview,
        (session.pointerMove first elements).1 = { session with preview } := by
      rw [pointerMove_of_drawing elements hdrawing hdrawer, publish_fst]
      exact ⟨_, rfl⟩
    have hdrawing' : { session with preview }.state.isDrawing := hdrawing
    rw [hfirst, pointerMove_of_drawing elements hdrawing' hdrawer,
      pointerMove_of_drawing elements hdrawing hdrawer, publish_fst, publish_fst]
    exact ⟨rfl, rfl, rfl, rfl, alikePreviews_published _ _ _, rfl, rfl, rfl⟩
  · obtain ⟨hovered, hfirst⟩ : ∃ hovered,
        (session.pointerMove first elements).1 = { session with hovered } := by
      rw [pointerMove_of_resting elements hresting hmode, hoverAt_fst]
      exact ⟨_, rfl⟩
    have hresting' : { session with hovered }.state.isResting := hresting
    rw [hfirst, pointerMove_of_resting elements hresting' hmode,
      pointerMove_of_resting elements hresting hmode, hoverAt_fst, hoverAt_fst]
    exact .refl _
  · rw [hnothing, hnothing]
    exact .refl _

theorem dragsVertex_pointerMove (hvertex : ¬ session.DragsVertex) (event : PointerEvent α) :
    ¬ (session.pointerMove event elements).1.DragsVertex := by
  rcases session.pointerMove_cases elements hvertex with
    ⟨drawer, hdrawing, hdrawer⟩ | ⟨hresting, hmode⟩ | hnothing
  · rw [pointerMove_of_drawing elements hdrawing hdrawer, publish_fst]
    exact hvertex
  · rw [pointerMove_of_resting elements hresting hmode, hoverAt_fst]
    exact hvertex
  · rw [hnothing]
    exact hvertex

end Session

end

theorem VertexEditor.moved_moved [Scalar α] (shape : Shape α) (position : Nat) (p q : Point α) :
    moved (moved shape position p) position q = moved shape position q := by
  cases shape with
  | rect | box => rfl
  | polygon | path => simp only [moved, Polyline.moveVertex, List.set_set]

namespace Engine

variable [Scalar α] {engine : Engine α}

theorem take_move_of_not_dragsVertex (hvertex : ¬ engine.session.DragsVertex) (moment : Moment)
    (event : PointerEvent α) :
    (engine.take moment (.move event)).1 =
      { engine with session := (engine.session.pointerMove event engine.elements).1 } := by
  have hactions := Session.forDisplay_pointerMove engine.elements hvertex event
  exact congrArg Prod.fst (engine.performAll_forDisplay moment _ hactions)

theorem take_move_of_held {editor : VertexEditor α} {position : Nat}
    (hstate : engine.session.state = .editing editor) (hheld : editor.held = some position)
    (moment : Moment) (event : PointerEvent α) :
    let shape := VertexEditor.moved editor.shape position event.point
    (engine.take moment (.move event)).1 =
      { engine with
        session := { engine.session with state := .editing { editor with shape } }
        store := (engine.store.updateShape moment engine.asset editor.id shape).1 } := by
  simp only [take, pointerMove, Session.pointerMove, hstate, VertexEditor.drag, hheld,
    performAll_elementUpdated]

theorem Alike.trans [PartialEquivBEq α] {e f g : Engine α} (hef : e.Alike f) (hfg : f.Alike g) :
    e.Alike g :=
  ⟨hef.session.trans hfg.session, hef.asset.trans hfg.asset, hef.frame.trans hfg.frame,
    hef.zoom.trans hfg.zoom, fun asset => (hef.elements asset).trans (hfg.elements asset)⟩

/-- When a move comes matters only for the time of the last change. -/
theorem alike_take_move (engine : Engine α) (moment other : Moment) (event : PointerEvent α) :
    (engine.take moment (.move event)).1.Alike (engine.take other (.move event)).1 := by
  by_cases hvertex : engine.session.DragsVertex
  · obtain ⟨editor, position, hstate, hheld⟩ := hvertex
    rw [take_move_of_held hstate hheld, take_move_of_held hstate hheld]
    exact ⟨.refl _, rfl, rfl, rfl, engine.store.undated_updateShape moment other _ _ _⟩
  · rw [take_move_of_not_dragsVertex hvertex, take_move_of_not_dragsVertex hvertex]
    exact ⟨.refl _, rfl, rfl, rfl, fun _ => rfl⟩

theorem alike_take_take_move [PartialEquivBEq α] (engine : Engine α) (moment other : Moment)
    (first last : PointerEvent α) :
    ((engine.take moment (.move first)).1.take other (.move last)).1.Alike
      (engine.take other (.move last)).1 := by
  by_cases hvertex : engine.session.DragsVertex
  · obtain ⟨editor, position, hstate, hheld⟩ := hvertex
    let shape := VertexEditor.moved editor.shape position first.point
    have hkind : shape.kind = (VertexEditor.moved editor.shape position last.point).kind := by
      rw [VertexEditor.kind_moved, VertexEditor.kind_moved]
    have hstate' : (engine.take moment (.move first)).1.session.state =
        .editing { editor with shape } := by
      rw [take_move_of_held hstate hheld]
    rw [take_move_of_held hstate' hheld, take_move_of_held hstate hheld,
      take_move_of_held hstate hheld]
    dsimp only
    rw [VertexEditor.moved_moved]
    refine ⟨.refl _, rfl, rfl, rfl, ?_⟩
    intro asset
    dsimp only
    rw [engine.store.updateShape_updateShape moment other engine.asset editor.id hkind asset]
  · have hsame := Session.dragsVertex_pointerMove engine.elements hvertex first
    rw [take_move_of_not_dragsVertex hvertex, take_move_of_not_dragsVertex hvertex,
      take_move_of_not_dragsVertex hsame]
    have hsession := Session.pointerMove_pointerMove engine.elements hvertex first last
    refine ⟨hsession, rfl, rfl, rfl, ?_⟩
    intro asset
    have hedited := congrArg (fun state => state.editor?.map VertexEditor.id) hsession.state
    exact congrArg (fun edited? => (engine.store.elements asset).map (Element.undated edited?))
      hedited

/-- In any state a move leaves the engine behind it the same, whatever moves of the pointer came
before it: mode, gesture with the editor of vertices, selection and hover, the elements of every
asset but for the time at which an element under vertex edit was last changed, and the preview as
far as its numbers can be told apart. -/
theorem moves_coalesce [PartialEquivBEq α] (engine : Engine α)
    (moves : List (Moment × PointerEvent α)) (moment other : Moment) (event : PointerEvent α) :
    let passed := (engine.takeAll (moves.map fun move => (move.1, .move move.2))).1
    (passed.take moment (.move event)).1.Alike (engine.take other (.move event)).1 := by
  intro passed
  refine Alike.trans ?_ (engine.alike_take_move moment other event)
  induction moves generalizing engine with
  | nil => exact engine.alike_take_move moment moment event
  | cons first rest ih =>
    exact (ih (engine.take first.1 (.move first.2)).1).trans
      (engine.alike_take_take_move first.1 moment first.2 event)

/-- Of three drags of a vertex of a triangle, one of them far off the media, the last one counts. -/
theorem last_drag_counts :
    let engine := (ofSettings Settings.default).run gripTriangle
    let moves : List (Moment × PointerEvent Float) :=
      [(⟨ElementId.nil, 1⟩, pointerAt 0.375 0.875), (⟨ElementId.nil, 2⟩, pointerAt 7 0.5)]
    let last : Input Float := .move (pointerAt 0.25 0.5)
    let passed := (engine.takeAll (moves.map fun move => (move.1, .move move.2))).1
    passed.elements.map (·.shape.points?) = [some [⟨1, 0.5⟩, ⟨0.75, 0.25⟩, ⟨0.5, 0.75⟩]] ∧
      (engine.take ⟨ElementId.nil, 3⟩ last).1.elements.map (·.shape.points?) =
        [some [⟨0.25, 0.5⟩, ⟨0.75, 0.25⟩, ⟨0.5, 0.75⟩]] ∧
      (passed.take ⟨ElementId.nil, 4⟩ last).1.Alike (engine.take ⟨ElementId.nil, 3⟩ last).1 := by
  intro engine moves last passed
  refine ⟨by decide +kernel, by decide +kernel, ?_⟩
  exact engine.moves_coalesce moves ⟨ElementId.nil, 4⟩ ⟨ElementId.nil, 3⟩ (pointerAt 0.25 0.5)

end Engine

end RegionDrawing
