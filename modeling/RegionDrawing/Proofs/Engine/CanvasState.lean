import RegionDrawing.Proofs.Drawer.Pairs
import RegionDrawing.Proofs.Engine.Refusal

/-! # The canvas behind a rendering

A rendering that nothing refuses is a sequence of parts: the elements, the handles of an element
under edit, the shape in progress. With built-in drawers every part consists of pairs of its own and
finds and leaves the canvas in the same state.
-/
namespace RegionDrawing

open Canvas

variable {α : Type} [Scalar α]

namespace Registry

variable {registry : Registry α} {kind : ShapeKind} {drawer : Drawer α}

theorem AllBuiltIn.drawerFor? (h : registry.AllBuiltIn)
    (hdrawer : registry.drawerFor? kind = some drawer) : drawer.IsBuiltIn := by
  obtain ⟨r, hr, rfl⟩ := exists_entry_of_drawerFor? hdrawer
  exact h r hr

end Registry

namespace Session

theorem isBuiltIn_activeDrawer? {session : Session α} (h : session.registry.AllBuiltIn)
    {drawer : Drawer α} (hdrawer : session.activeDrawer? = some drawer) : drawer.IsBuiltIn := by
  obtain ⟨id, -, hget⟩ := activeDrawer?_eq_some_iff.mp hdrawer
  exact h.get? hget

end Session

namespace Engine

def parts (engine : Engine α) : List (List (Command α)) :=
  engine.elements.map engine.paintElement ++ [engine.paintEditor, engine.paintPreview]

theorem scene_eq_flatten_parts (engine : Engine α) : engine.scene = engine.parts.flatten := by
  simp [scene, parts, List.flatMap]

variable {engine : Engine α}

theorem wellPaired_paintElement (h : engine.session.registry.AllBuiltIn) (element : Element α) :
    WellPaired (engine.paintElement element) := by
  unfold paintElement
  split
  · next drawer hdrawer =>
    obtain ⟨kind, settings, rfl⟩ := h.drawerFor? hdrawer
    exact wellPaired_builtIn_paint kind settings _ element
  · exact wellPaired_nil

theorem wellPaired_paintEditor (engine : Engine α) : WellPaired engine.paintEditor := by
  unfold paintEditor
  split
  · exact wellPaired_handles _ _ _
  · exact wellPaired_nil

theorem wellPaired_paintPreview (h : engine.session.registry.AllBuiltIn) :
    WellPaired engine.paintPreview := by
  unfold paintPreview
  split
  · next preview drawer _ hdrawer =>
    obtain ⟨kind, settings, rfl⟩ := Session.isBuiltIn_activeDrawer? h hdrawer
    exact wellPaired_builtIn_paintPreview kind settings _ preview
  · exact wellPaired_nil

theorem wellPaired_parts (h : engine.session.registry.AllBuiltIn) :
    ∀ part ∈ engine.parts, WellPaired part := by
  refine List.forall_mem_append.mpr ⟨fun part hpart => ?_, ?_⟩
  · obtain ⟨element, -, rfl⟩ := List.mem_map.mp hpart
    exact wellPaired_paintElement h element
  · simpa using ⟨wellPaired_paintEditor engine, wellPaired_paintPreview h⟩

/-- A rendering with built-in drawers that nothing refuses consists of the parts of the scene. In
each of them and in the whole the pairs of `save` and `restore` are matched, styles and marks stand
inside a pair, a path is painted in the pair that it was begun in, and a line is solid when its pair
is restored; and none of them changes the state of the canvas. -/
theorem rendering_keeps_canvas_state (h : engine.session.registry.AllBuiltIn)
    {refuses : Nat → Bool} (haccepted : (engine.render refuses).refusal = none) :
    let commands := (engine.render refuses).commands
    (∀ painter, engine.session.registry.PaintedBy painter →
      engine.renderOn painter refuses = (engine, ⟨commands, none⟩)) ∧
    commands = engine.parts.flatten ∧
    (∀ part ∈ engine.parts, WellPaired part ∧ ∀ state, CanvasState.afterAll state part = state) ∧
    WellPaired commands ∧ ∀ state, CanvasState.afterAll state commands = state := by
  have hparts := wellPaired_parts h
  have hcommands : (engine.render refuses).commands = engine.parts.flatten := by
    rw [← scene_eq_flatten_parts]
    exact commands_paintFrom haccepted
  have hwhole : WellPaired (engine.render refuses).commands := by
    rw [hcommands, ← List.flatMap_id]
    exact .flatMap hparts
  refine ⟨fun painter hpainted => ?_, hcommands,
    fun part hpart => ⟨hparts part hpart, (hparts part hpart).afterAll⟩, hwhole, hwhole.afterAll⟩
  rw [renderOn_eq hpainted, ← haccepted]

/-- An engine that shows a hidden-line box and a selected polygon with a label, while a rectangle is
dragged over them. -/
def busyScene : Engine Float :=
  let engine := Engine.ofSettings Settings.default
  let box : Shape Float := .box ⟨⟨0.25, 0.25, 0.5, 0.5⟩, ⟨0.5, 0.5⟩, 0.25⟩
  let polygon : Shape Float := .polygon ⟨[⟨0.25, 0.5⟩, ⟨1, 0.25⟩, ⟨1, 1⟩], true⟩
  let labelled : ElementId := ⟨Vector.replicate 32 (Fin.last 15)⟩
  { engine with
    session := { engine.session with
      mode := .draw "rect"
      state := .dragging ⟨0.5, 0.5⟩
      preview := some ⟨.rect ⟨0.5, 0.5, 0.25, 0.25⟩, none⟩
      selected := some labelled }
    store := ⟨[("", [⟨.nil, "", none, none, 1, 1, box⟩,
      ⟨labelled, "yard", none, none, 2, 2, polygon⟩])]⟩ }

/-- A surface that refuses none of the first hundred calls takes all of it. -/
theorem busyScene_keeps_canvas_state :
    let painting := busyScene.render fun index => 100 < index
    (busyScene.session.registry.AllBuiltIn ∧ painting.refusal = none) ∧
      WellPaired painting.commands ∧
      (∀ state, CanvasState.afterAll state painting.commands = state) ∧
      usesDash painting.commands ∧ texts painting.commands = ["yard"] ∧
      busyScene.parts.map strokeCount = [6, 4, 0, 1] := by
  intro painting
  have hbuiltIn : busyScene.session.registry.AllBuiltIn :=
    Registry.allBuiltIn_builtIn Settings.default
  have haccepted : painting.refusal = none := by decide +kernel
  obtain ⟨-, -, -, hpaired, hstate⟩ := rendering_keeps_canvas_state hbuiltIn haccepted
  refine ⟨⟨hbuiltIn, haccepted⟩, hpaired, hstate, ?_⟩
  decide +kernel

end Engine

end RegionDrawing
