import RegionDrawing.Drawer.Painter
import RegionDrawing.Engine.Scene

/-! # Rendering on a surface

How an engine renders its scene on a surface: the elements in their order, the handles of an element
under edit, the shape in progress. The first refusal ends it.
-/
namespace RegionDrawing

open Canvas

variable {α : Type}

/-- What works on an engine and a surface and may end with a refusal. -/
abbrev Rendering (α : Type) := EStateM Refusal (Engine α × Surface α)

def Rendering.onSurface (drawing : Drawing α Unit) : Rendering α Unit := fun (engine, surface) =>
  match drawing surface with
  | .ok _ surface => .ok () (engine, surface)
  | .error refusal surface => .error refusal (engine, surface)

namespace Engine

variable [Scalar α] (engine : Engine α) (painter : Drawer α → Painter α)

/-- The rendering of an element. Without a drawer for its kind it is left out. -/
def renderElement (element : Element α) : Rendering α Unit :=
  match engine.session.registry.drawerFor? element.kind with
  | some drawer => .onSurface ((painter drawer).element element (engine.elementView element))
  | none => pure ()

def renderEditor : Rendering α Unit :=
  match engine.session.state.editor? with
  | some editor => .onSurface (Drawing.handles editor.points selectedStroke engine.view)
  | none => pure ()

def renderPreview : Rendering α Unit :=
  match engine.session.preview, engine.session.activeDrawer? with
  | some preview, some drawer => .onSurface ((painter drawer).preview preview engine.view)
  | _, _ => pure ()

/-- The rendering of a scene, given how drawers paint. -/
def rendering : Rendering α Unit := do
  let (engine, _) ← get
  forM engine.elements (engine.renderElement painter)
  engine.renderEditor
  engine.renderPreview painter

/-- The engine behind a rendering on a fresh surface, and what came of the rendering. -/
def renderOn (refuses : Nat → Bool) : Engine α × Painting α :=
  match (rendering painter).run (engine, { refuses }) with
  | .ok _ (engine, surface) => (engine, ⟨surface.recorded, none⟩)
  | .error refusal (engine, surface) => (engine, ⟨surface.recorded, some refusal⟩)

end Engine

end RegionDrawing
