import RegionDrawing.Proofs.Geometry.NearestVertex
import RegionDrawing.Proofs.Session.Step
import RegionDrawing.Proofs.Store.Elements

/-! # What an event means for the stored elements

`Reaction` is the table of steps in less detail: which fields of a session change, to which elements
it refers behind the event, and whether its actions concern the stored elements.
-/
namespace RegionDrawing

variable {α : Type}

/-- Whether an action leaves the stored elements alone. -/
def Action.forDisplay : Action α → Bool
  | .elementCommitted _ | .elementUpdated _ _ | .elementRemoved _ => false
  | _ => true

/-- Whether a list of actions leaves the stored elements alone. -/
def ForDisplay (actions : List (Action α)) : Prop := ∀ action ∈ actions, action.forDisplay

@[simp] theorem forDisplay_nil : ForDisplay ([] : List (Action α)) := by simp [ForDisplay]

@[simp] theorem forDisplay_cons (action : Action α) (actions : List (Action α)) :
    ForDisplay (action :: actions) ↔ action.forDisplay ∧ ForDisplay actions := by
  simp [ForDisplay]

theorem forDisplay_append (actions further : List (Action α)) :
    ForDisplay (actions ++ further) ↔ ForDisplay actions ∧ ForDisplay further :=
  List.forall_mem_append

namespace Session

variable [Scalar α]

/-- What a session over a list of elements can make of an event. -/
inductive Reaction (session : Session α) (elements : List (Element α)) (input : Input α) :
    Session α × List (Action α) → Prop where
  | ignored : Reaction session elements input (session, [])
  /-- A drawing gesture begins, goes on or comes to nothing, or vertex editing ends. -/
  | drawn {state : GestureState α} {preview : Option (Preview α)} {cancelReports : Nat}
      {actions : List (Action α)} (hstate : state.editor? = none) (hactions : ForDisplay actions) :
      Reaction session elements input ({ session with state, preview, cancelReports }, actions)
  | selected {id : Option ElementId} {actions : List (Action α)}
      (hid : ∀ x, id = some x → (Element.withId? elements x).isSome)
      (hactions : ForDisplay actions) :
      Reaction session elements input ({ session with selected := id }, actions)
  | hovered {id : Option ElementId} {actions : List (Action α)}
      (hid : ∀ x, id = some x → (Element.withId? elements x).isSome)
      (hactions : ForDisplay actions) :
      Reaction session elements input ({ session with hovered := id }, actions)
  /-- Vertex editing begins on an element. -/
  | begun {editor : VertexEditor α} {element : Element α} {actions : List (Action α)}
      (hfound : Element.withId? elements editor.id = some element)
      (hbegin : VertexEditor.begin? element session.settings.vertexReach = some editor)
      (hactions : ForDisplay actions) :
      Reaction session elements input
        ({ session with state := .editing editor, selected := some editor.id }, actions)
  /-- A vertex is taken hold of or let go. -/
  | gripped {editor : VertexEditor α} {held : Option Nat} {actions : List (Action α)}
      (hstate : session.state = .editing editor)
      (hheld : ∀ position, held = some position → position < editor.points.length)
      (hactions : ForDisplay actions) :
      Reaction session elements input
        ({ session with state := .editing { editor with held } }, actions)
  | dragged {editor : VertexEditor α} {position : Nat} {event : PointerEvent α}
      (hinput : input = .move event) (hstate : session.state = .editing editor)
      (hheld : editor.held = some position) :
      Reaction session elements input
        ({ session with
            state := .editing
              { editor with shape := VertexEditor.moved editor.shape position event.point } },
          [.elementUpdated editor.id (VertexEditor.moved editor.shape position event.point),
            .renderNeeded])
  | deleted {id : ElementId} (hselected : session.selected = some id)
      (hstate : session.state.editor? = none) :
      Reaction session elements input
        ({ session with
            selected := none
            hovered := if session.hovered = some id then none else session.hovered },
          [.elementRemoved id, .selectionChanged none, .renderNeeded])
  | committed {shape : Shape α} (hvalid : shape.isValid) :
      Reaction session elements input
        ({ session with state := .committed, preview := none },
          [.elementCommitted { shape }, .previewChanged none, .renderNeeded])

variable {session : Session α} {elements : List (Element α)} {input : Input α}

omit [Scalar α] in
theorem withId?_of_hit {p : Point α} {id : ElementId} (h : session.hit p elements = some id) :
    (Element.withId? elements id).isSome := by
  simp only [hit, Option.map_eq_some_iff] at h
  obtain ⟨element, hfind, rfl⟩ := h
  have hmem := List.mem_of_find?_eq_some hfind
  exact Element.withId?_isSome_iff.mpr ⟨element, List.mem_reverse.mp hmem, rfl⟩

theorem forDisplay_publish (session : Session α) (outcome : Outcome α) :
    ForDisplay (session.publish outcome).2 := by
  unfold publish
  cases outcome.cursor <;> dsimp only <;> split <;> simp [Action.forDisplay]

omit [Scalar α] in
theorem forDisplay_discard (session : Session α) : ForDisplay session.discard.2 := by
  unfold discard
  dsimp only
  split <;> simp [Action.forDisplay]

theorem reaction_publish {state : GestureState α} (hstate : state.editor? = none)
    (outcome : Outcome α) :
    Reaction session elements input ({ session with state }.publish outcome) := by
  have hactions := forDisplay_publish { session with state } outcome
  show Reaction session elements input
    (({ session with state }.publish outcome).1, ({ session with state }.publish outcome).2)
  rw [publish_fst]
  exact .drawn hstate hactions

theorem reaction_beginVertexEdit {p : Point α} {editor : VertexEditor α}
    (heditor : session.editorAt? p elements = some editor) :
    Reaction session elements input
      ({ session with state := .editing editor, selected := some editor.id },
        (if session.selected = some editor.id then [] else [.selectionChanged (some editor.id)]) ++
          [.vertexEditStarted editor.id, .renderNeeded]) := by
  simp only [editorAt?, Option.bind_eq_bind, Option.bind_eq_some_iff] at heditor
  obtain ⟨id, _, element, hfind, hbegin⟩ := heditor
  have hid : editor.id = id := by
    have helement : element.id = id := Element.id_of_withId? hfind
    unfold VertexEditor.begin? at hbegin
    split at hbegin <;> cases hbegin <;> exact helement
  refine .begun (hid ▸ hfind) hbegin ?_
  split <;> simp [Action.forDisplay]

theorem Step.reaction {taken : Session α × List (Action α)}
    (h : session.Step elements input taken) : Reaction session elements input taken := by
  cases h with
  | ignored => exact .ignored
  | pressed _ _ _ _ _ => exact reaction_publish rfl _
  | clicked _ _ _ _ _ _ => exact reaction_publish rfl _
  | moved hdrawing _ => exact reaction_publish (GestureState.editor?_of_isDrawing hdrawing) _
  | lifted hstate _ => exact reaction_publish (by rw [hstate]; rfl) _
  | committed _ _ _ _ hvalid => exact .committed hvalid
  | discarded _ => exact .drawn rfl (forDisplay_discard session)
  | cancelled _ => exact .drawn rfl (by simp [Action.forDisplay])
  | selected _ _ hhit _ =>
    exact .selected (fun _ hid => withId?_of_hit (hhit.trans hid)) (by simp [Action.forDisplay])
  | deselected _ _ => exact .selected (fun _ hid => nomatch hid) (by simp [Action.forDisplay])
  | hovered _ _ hhit _ =>
    exact .hovered (fun _ hid => withId?_of_hit (hhit.trans hid)) (by simp [Action.forDisplay])
  | editBegun _ _ heditor => exact reaction_beginVertexEdit heditor
  | gripped hstate hheld =>
    refine .gripped hstate ?_ (by simp [Action.forDisplay])
    rintro _ ⟨⟩
    exact Polyline.nearestVertex?_lt hheld
  | dragged hstate hheld => exact .dragged rfl hstate hheld
  | released hstate => exact .gripped hstate (by simp) (by simp)
  | editEnded _ => exact .drawn rfl (by simp [Action.forDisplay])
  | deleted _ hediting hselected => exact .deleted hselected hediting

theorem reaction_take (session : Session α) (elements : List (Element α)) (input : Input α) :
    Reaction session elements input (session.take elements input) :=
  (step_take session elements input).reaction

/-- The stored elements are concerned when a drawing gesture is finished, when a vertex is dragged
and when an element is deleted. -/
theorem Step.actions_cases {taken : Session α × List (Action α)}
    (h : session.Step elements input taken) :
    ForDisplay taken.2 ∨
    (∃ (event : PointerEvent α) (drawer : Drawer α) (outcome : Outcome α) (shape : Shape α),
      session.state.isDrawing ∧ session.activeDrawer? = some drawer ∧
      (outcome = drawer.finish (session.state.context event elements) ∨
        outcome = drawer.complete (session.state.context event elements)) ∧
      outcome.shape = some shape ∧ shape.isValid ∧
      taken = ({ session with state := .committed, preview := none },
        [.elementCommitted { shape }, .previewChanged none, .renderNeeded])) ∨
    (∃ editor shape, session.state = .editing editor ∧
      taken.2 = [.elementUpdated editor.id shape, .renderNeeded]) ∨
    ∃ id, session.mode = .select ∧
      taken.2 = [.elementRemoved id, .selectionChanged none, .renderNeeded] := by
  cases h with
  | pressed | clicked | moved | lifted => exact .inl (forDisplay_publish _ _)
  | discarded _ => exact .inl (forDisplay_discard session)
  | committed hdrawing hdrawer houtcome hshape hvalid =>
    exact .inr (.inl ⟨_, _, _, _, hdrawing, hdrawer, houtcome, hshape, hvalid, rfl⟩)
  | dragged hstate _ => exact .inr (.inr (.inl ⟨_, _, hstate, rfl⟩))
  | deleted hmode _ _ => exact .inr (.inr (.inr ⟨_, hmode, rfl⟩))
  | editBegun _ _ _ =>
    left
    dsimp only
    split <;> simp [Action.forDisplay]
  | _ => exact .inl (by simp [Action.forDisplay])

theorem Step.of_elementCommitted {taken : Session α × List (Action α)} {draft : Draft α}
    (h : session.Step elements input taken) (hdraft : .elementCommitted draft ∈ taken.2) :
    ∃ (event : PointerEvent α) (drawer : Drawer α) (outcome : Outcome α),
      session.state.isDrawing ∧ session.activeDrawer? = some drawer ∧
      (outcome = drawer.finish (session.state.context event elements) ∨
        outcome = drawer.complete (session.state.context event elements)) ∧
      outcome.shape = some draft.shape ∧ draft.shape.isValid ∧
      taken = ({ session with state := .committed, preview := none },
        [.elementCommitted draft, .previewChanged none, .renderNeeded]) := by
  rcases h.actions_cases with hactions |
    ⟨event, drawer, outcome, shape, hdrawing, hdrawer, houtcome, hshape, hvalid, rfl⟩ |
    ⟨editor, shape, _, hactions⟩ | ⟨id, _, hactions⟩
  · cases hactions _ hdraft
  · simp only [List.mem_cons, Action.elementCommitted.injEq, List.not_mem_nil, or_false,
      reduceCtorEq] at hdraft
    subst hdraft
    exact ⟨event, drawer, outcome, hdrawing, hdrawer, houtcome, hshape, hvalid, rfl⟩
  · simp [hactions] at hdraft
  · simp [hactions] at hdraft

end Session

end RegionDrawing
