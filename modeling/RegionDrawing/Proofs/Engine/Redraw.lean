import RegionDrawing.Binary64.Scalar
import RegionDrawing.HostCanvas
import RegionDrawing.Proofs.Engine.Events

/-! # When a canvas has to be painted again

A host paints again only if an action of an event asks for it. A scene shows the elements of the
asset and, of the session, the selection, the element under the pointer, the preview and the
vertices under edit; an event that changes any of these says so.
-/
namespace RegionDrawing

variable {α : Type}

/-- Whether no action of a list makes a host paint again. -/
def Quiet (actions : List (Action α)) : Prop :=
  ∀ action ∈ actions, HostCanvas.showsChange action = false

theorem Quiet.renderNeeded_not_mem {actions : List (Action α)} (h : Quiet actions) :
    .renderNeeded ∉ actions :=
  fun hmem => Bool.noConfusion (h _ hmem)

theorem Quiet.setCursor_not_mem {actions : List (Action α)} (h : Quiet actions)
    (cursor : String) : .setCursor cursor ∉ actions :=
  fun hmem => Bool.noConfusion (h _ hmem)

namespace Session

/-- Whether a scene shows the same of two sessions. -/
structure LooksLike (session other : Session α) : Prop where
  registry : session.registry = other.registry
  mode : session.mode = other.mode
  preview : session.preview = other.preview
  selected : session.selected = other.selected
  hovered : session.hovered = other.hovered
  vertices : session.state.editor?.map VertexEditor.points =
    other.state.editor?.map VertexEditor.points

theorem LooksLike.refl (session : Session α) : session.LooksLike session :=
  ⟨rfl, rfl, rfl, rfl, rfl, rfl⟩

theorem LooksLike.of_state {session : Session α} {state : GestureState α}
    (hbefore : session.state.editor? = none) (hafter : state.editor? = none) :
    { session with state }.LooksLike session :=
  ⟨rfl, rfl, rfl, rfl, rfl, by rw [hbefore, hafter]⟩

variable [Scalar α] {session : Session α} {elements : List (Element α)} {input : Input α}

theorem publish_of_quiet {outcome : Outcome α} (h : Quiet (session.publish outcome).2) :
    session.publish outcome = (session, []) := by
  unfold publish at h ⊢
  cases hcursor : outcome.cursor with
  | some cursor =>
    rw [hcursor] at h
    dsimp only at h
    refine absurd ?_ (h.setCursor_not_mem cursor)
    split <;> simp
  | none =>
    rw [hcursor] at h
    dsimp only at h ⊢
    split
    · next hchange =>
      rw [if_pos hchange] at h
      exact absurd (by simp) h.renderNeeded_not_mem
    · rfl

omit [Scalar α] in
theorem discard_of_quiet (h : Quiet session.discard.2) :
    session.discard = ({ session with state := .idle }, []) := by
  cases hpreview : session.preview with
  | none => simp [discard, hpreview]
  | some preview =>
    have hshown : .renderNeeded ∈ session.discard.2 := by simp [discard, hpreview]
    exact absurd hshown h.renderNeeded_not_mem

/-- A step without a word to the host shows nothing new and concerns no element. -/
theorem Step.looksLike {taken : Session α × List (Action α)}
    (h : session.Step elements input taken) (hquiet : Quiet taken.2) :
    taken.1.LooksLike session ∧ taken.2 = [] := by
  cases h with
  | ignored => exact ⟨.refl session, rfl⟩
  | pressed _ hediting _ _ _ =>
    rw [publish_of_quiet hquiet]
    exact ⟨.of_state hediting rfl, rfl⟩
  | clicked _ hediting _ _ _ _ =>
    rw [publish_of_quiet hquiet]
    exact ⟨.of_state hediting rfl, rfl⟩
  | moved _ _ | lifted _ _ =>
    rw [publish_of_quiet hquiet]
    exact ⟨.refl session, rfl⟩
  | discarded hdrawing =>
    rw [discard_of_quiet hquiet]
    exact ⟨.of_state (GestureState.editor?_of_isDrawing hdrawing) rfl, rfl⟩
  | released hstate => exact ⟨⟨rfl, rfl, rfl, rfl, rfl, by rw [hstate]; rfl⟩, rfl⟩
  | _ => exact absurd (by simp) hquiet.renderNeeded_not_mem

end Session

namespace Engine

variable [Scalar α] {engine : Engine α}

theorem paintEditor_eq (engine : Engine α) :
    engine.paintEditor =
      match engine.session.state.editor?.map VertexEditor.points with
      | some points => Canvas.handles points Canvas.selectedStroke engine.view
      | none => [] := by
  unfold paintEditor
  cases engine.session.state.editor? <;> rfl

theorem scene_of_looksLike {session : Session α} (h : session.LooksLike engine.session) :
    { engine with session }.scene = engine.scene := by
  have helement : ∀ element,
      { engine with session }.paintElement element = engine.paintElement element := by
    intro element
    simp only [paintElement, elementView, view, h.registry, h.selected, h.hovered]
  have hpreview : { engine with session }.paintPreview = engine.paintPreview := by
    simp only [paintPreview, Session.activeDrawer?, view, h.preview, h.mode, h.registry]
  have heditor : { engine with session }.paintEditor = engine.paintEditor := by
    simp only [paintEditor_eq, view, h.vertices]
  unfold scene
  rw [hpreview, heditor, funext helement]
  rfl

theorem scene_take_of_quiet {moment : Moment} {input : Input α}
    (h : Quiet (engine.take moment input).2) :
    (engine.take moment input).1.scene = engine.scene := by
  rcases engine.take_cases moment input with heq | ⟨mode, _, heq⟩
  · rw [heq] at h ⊢
    obtain ⟨hlooks, hactions⟩ :=
      (Session.step_take engine.session engine.elements input).looksLike h
    have htaken : engine.session.take engine.elements input =
        ((engine.session.take engine.elements input).1, []) := Prod.ext rfl hactions
    rw [htaken]
    exact scene_of_looksLike hlooks
  · rw [heq] at h
    exact absurd List.mem_cons_self (h.setCursor_not_mem _)

/-- In any state, an event without an action that asks for a painting or sets the cursor is answered
by the host's canvas with no painting, and a painting would give what it gave before the event, on
any canvas, also one that refuses some of the commands. -/
theorem render_unchanged (engine : Engine α) (moment : Moment) (input : Input α)
    (hrender : .renderNeeded ∉ (engine.take moment input).2)
    (hcursor : ∀ cursor, .setCursor cursor ∉ (engine.take moment input).2) :
    (HostCanvas.answered (engine.take moment input)).2 = false ∧
      ∀ refuses, (engine.take moment input).1.render refuses = engine.render refuses := by
  have hquiet : Quiet (engine.take moment input).2 := by
    intro action haction
    cases action with
    | renderNeeded => exact absurd haction hrender
    | setCursor cursor => exact absurd haction (hcursor cursor)
    | _ => rfl
  constructor
  · simpa [HostCanvas.answered, Quiet] using hquiet
  · intro refuses
    rw [render, render, scene_take_of_quiet hquiet]

/-- A pointer that stands still behind a click changes nothing that is shown. -/
theorem still_pointer_needs_no_painting :
    let moment : Moment := ⟨ElementId.nil, 0⟩
    let event : PointerEvent Float := .ofPosition ⟨0.25, 0.25⟩ {}
    let engine := (ofSettings Settings.default).run
      [.setFrame ⟨0, 0, 640, 480⟩, .setMode (.draw "polygon"), .input moment (.down event)]
    let taken := engine.take moment (.move event)
    taken.2 = [] ∧ engine.session.preview.isSome ∧ (HostCanvas.answered taken).2 = false ∧
      ∀ refuses, taken.1.render refuses = engine.render refuses := by
  intro moment event engine taken
  have hactions : taken.2 = [] := by decide +kernel
  have hpreview : engine.session.preview.isSome := by decide +kernel
  have hrender : .renderNeeded ∉ taken.2 := by
    rw [hactions]
    exact List.not_mem_nil
  have hcursor : ∀ cursor, .setCursor cursor ∉ taken.2 := by
    rw [hactions]
    exact fun _ => List.not_mem_nil
  exact ⟨hactions, hpreview, engine.render_unchanged moment (.move event) hrender hcursor⟩

end Engine

end RegionDrawing
