import RegionDrawing.Binary64.Scalar
import RegionDrawing.Engine.Render
import RegionDrawing.Proofs.Drawer.BuiltIn
import RegionDrawing.Proofs.Drawer.Painter
import RegionDrawing.Proofs.Registry.Ranking
import RegionDrawing.Proofs.Session.Step

/-! # Refusals in the middle of a rendering

A rendering with built-in drawers carries out the commands of the scene one after the other. Where
the surface refuses a call it ends, with the refusal and with the commands before it.
-/
namespace RegionDrawing

open Canvas

variable {α : Type}

namespace Rendering

theorem onSurface_bind (drawing further : Drawing α Unit) :
    onSurface (do drawing; further) = (do onSurface drawing; onSurface further) := by
  funext ⟨engine, surface⟩
  change onSurface (EStateM.bind drawing fun _ => further) (engine, surface) =
    EStateM.bind (onSurface drawing) (fun _ => onSurface further) (engine, surface)
  simp only [onSurface, EStateM.bind]
  cases drawing surface <;> rfl

theorem onSurface_forM {β : Type} (items : List β) (draw : β → Drawing α Unit) :
    onSurface (forM items draw) = forM items fun item => onSurface (draw item) := by
  induction items with
  | nil => rfl
  | cons item items ih => rw [List.forM_cons, List.forM_cons, onSurface_bind, ih]

end Rendering

namespace Registry

variable {registry : Registry α} {painter : Drawer α → Painter α} {drawer : Drawer α}

theorem exists_entry_of_drawerFor? {kind : ShapeKind} (h : registry.drawerFor? kind = some drawer) :
    ∃ r ∈ registry.entries, r.drawer = drawer := by
  rw [drawerFor?_eq, Option.map_eq_some_iff] at h
  obtain ⟨r, hr, hdrawer⟩ := h
  exact ⟨r, registry.perm_all.mem_iff.mp (List.mem_of_find?_eq_some hr), hdrawer⟩

theorem exists_entry_of_get? {id : String} (h : registry.get? id = some drawer) :
    ∃ r ∈ registry.entries, r.drawer = drawer := by
  rw [get?, Option.map_eq_some_iff] at h
  obtain ⟨r, hr, hdrawer⟩ := h
  exact ⟨r, List.mem_of_find?_eq_some hr, hdrawer⟩

variable [Scalar α]

/-- Whether all drawers of a registry are built-in ones and painted as such. -/
def PaintedBy (registry : Registry α) (painter : Drawer α → Painter α) : Prop :=
  ∀ r ∈ registry.entries, ∃ kind settings,
    r.drawer = builtInDrawer kind settings ∧ painter r.drawer = builtInPainter kind settings

/-- Built-in drawers that are equal paint in the same way, whatever settings they come from. -/
theorem AllBuiltIn.exists_paintedBy (h : registry.AllBuiltIn) :
    ∃ painter, registry.PaintedBy painter := by
  refine ⟨fun drawer => ⟨fun element view => callAll (drawer.paint element view),
    fun preview view => callAll (drawer.paintPreview preview view)⟩, fun r hr => ?_⟩
  obtain ⟨kind, settings, hdrawer⟩ := h r hr
  refine ⟨kind, settings, hdrawer, ?_⟩
  simp only [hdrawer, ← builtInPainter_element, ← builtInPainter_preview]

variable (h : registry.PaintedBy painter) (hentry : ∃ r ∈ registry.entries, r.drawer = drawer)

include h hentry

theorem PaintedBy.element (element : Element α) (view : View α) :
    (painter drawer).element element view = callAll (drawer.paint element view) := by
  obtain ⟨r, hr, rfl⟩ := hentry
  obtain ⟨kind, settings, hdrawer, hpainter⟩ := h r hr
  rw [hpainter, hdrawer]
  exact builtInPainter_element kind settings element view

theorem PaintedBy.preview (preview : Preview α) (view : View α) :
    (painter drawer).preview preview view = callAll (drawer.paintPreview preview view) := by
  obtain ⟨r, hr, rfl⟩ := hentry
  obtain ⟨kind, settings, hdrawer, hpainter⟩ := h r hr
  rw [hpainter, hdrawer]
  exact builtInPainter_preview kind settings preview view

end Registry

namespace Engine

section
variable [Scalar α] {engine : Engine α} {painter : Drawer α → Painter α}
  (h : engine.session.registry.PaintedBy painter)

include h

theorem renderElement_eq (element : Element α) :
    engine.renderElement painter element =
      .onSurface (callAll (engine.paintElement element)) := by
  rw [renderElement, paintElement]
  cases hdrawer : engine.session.registry.drawerFor? element.kind with
  | none => rfl
  | some drawer =>
    exact congrArg Rendering.onSurface
      (h.element (Registry.exists_entry_of_drawerFor? hdrawer) element _)

omit h in
theorem renderEditor_eq : engine.renderEditor = .onSurface (callAll engine.paintEditor) := by
  rw [renderEditor, paintEditor]
  cases engine.session.state.editor? with
  | none => rfl
  | some editor =>
    exact congrArg Rendering.onSurface (Drawing.handles_eq engine.view editor.points _)

theorem renderPreview_eq :
    engine.renderPreview painter = .onSurface (callAll engine.paintPreview) := by
  rw [renderPreview, paintPreview]
  cases engine.session.preview with
  | none => rfl
  | some preview =>
    cases hdrawer : engine.session.activeDrawer? with
    | none => rfl
    | some drawer =>
      obtain ⟨_, _, hget⟩ := Session.activeDrawer?_eq_some_iff.mp hdrawer
      exact congrArg Rendering.onSurface
        (h.preview (Registry.exists_entry_of_get? hget) preview _)

theorem run_rendering (surface : Surface α) :
    (rendering painter).run (engine, surface) =
      (Rendering.onSurface (callAll engine.scene)).run (engine, surface) := by
  rw [scene, callAll_append, callAll_append, callAll_flatMap, Rendering.onSurface_bind,
    Rendering.onSurface_bind, Rendering.onSurface_forM, ← renderEditor_eq, ← renderPreview_eq h]
  have helements : (fun element => Rendering.onSurface (callAll (engine.paintElement element))) =
      engine.renderElement painter := funext fun element => (renderElement_eq h element).symm
  rw [helements]
  simp only [bind_assoc]
  rfl

theorem renderOn_eq (refuses : Nat → Bool) :
    engine.renderOn painter refuses = (engine, engine.render refuses) := by
  have hdraw : draw refuses (callAll engine.scene) = engine.render refuses :=
    draw_callAll refuses engine.scene
  rw [renderOn, run_rendering h, ← hdraw, draw]
  simp only [EStateM.run, Rendering.onSurface]
  cases callAll engine.scene { refuses } <;> rfl

end

/-- A rendering with built-in drawers leaves the engine as it is and ends exactly at a call that is
refused, and so does each of the drawers alone, for elements and for previews. -/
theorem rendering_stops_at_refusal [Scalar α] {engine : Engine α}
    (h : engine.session.registry.AllBuiltIn) :
    (∃ painter, engine.session.registry.PaintedBy painter) ∧
      (∀ painter, engine.session.registry.PaintedBy painter →
        (∀ refuses, engine.renderOn painter refuses = (engine, engine.render refuses)) ∧
        StopsAtRefusal fun refuses => (engine.renderOn painter refuses).2) ∧
      ∀ kind (settings : Settings α) view,
        (∀ element, StopsAtRefusal fun refuses =>
          draw refuses ((builtInPainter kind settings).element element view)) ∧
        (∀ preview, StopsAtRefusal fun refuses =>
          draw refuses ((builtInPainter kind settings).preview preview view)) ∧
        ∀ refuses,
          (∀ element, draw refuses ((builtInPainter kind settings).element element view) =
            paint refuses ((builtInDrawer kind settings).paint element view)) ∧
          ∀ preview, draw refuses ((builtInPainter kind settings).preview preview view) =
            paint refuses ((builtInDrawer kind settings).paintPreview preview view) := by
  refine ⟨h.exists_paintedBy, fun painter hpainted => ⟨renderOn_eq hpainted, ?_⟩,
    fun kind settings view => ⟨fun element => ?_, fun preview => ?_, fun refuses =>
      ⟨fun element => ?_, fun preview => ?_⟩⟩⟩
  · simp only [renderOn_eq hpainted]
    exact stopsAtRefusal_paint engine.scene
  · simp only [builtInPainter_element, draw_callAll]
    exact stopsAtRefusal_paint _
  · simp only [builtInPainter_preview, draw_callAll]
    exact stopsAtRefusal_paint _
  · rw [builtInPainter_element, draw_callAll]
  · rw [builtInPainter_preview, draw_callAll]

/-- An engine that shows a box and, selected, a path with a label. -/
def boxAndPath : Engine Float :=
  let engine := Engine.ofSettings Settings.default
  let box : Shape Float := .box ⟨⟨0.25, 0.25, 0.5, 0.5⟩, ⟨0.5, 0.5⟩, 0.25⟩
  let path : Shape Float := .path ⟨[⟨0.25, 0.5⟩, ⟨1, 0.25⟩], false⟩
  let other : ElementId := ⟨Vector.replicate 32 (Fin.last 15)⟩
  { engine with
    session := { engine.session with selected := some other }
    store := ⟨[("",
      [⟨.nil, "", none, none, 1, 1, box⟩, ⟨other, "wall", none, none, 2, 2, path⟩])]⟩ }

/-- The box takes two dashes and the path two handles before its label. -/
theorem boxAndPath_refused :
    let painter (drawer : Drawer Float) := builtInPainter drawer.info.kind Settings.default
    let refused (n : Nat) := (boxAndPath.renderOn painter fun index => index = n).2
    boxAndPath.session.registry.AllBuiltIn ∧
      boxAndPath.session.registry.PaintedBy painter ∧
      (refused 3).refusal = some ⟨.circle, 3⟩ ∧ (refused 4).refusal = some ⟨.text, 4⟩ ∧
      (refused 5).refusal = none ∧ (refused 3).commands.length < (refused 4).commands.length := by
  intro painter refused
  have hpainted : boxAndPath.session.registry.PaintedBy painter := by
    intro r hr
    obtain ⟨kind, _, rfl⟩ := List.mem_map.mp hr
    exact ⟨kind, Settings.default, rfl, by cases kind <;> rfl⟩
  have hbuiltIn : boxAndPath.session.registry.AllBuiltIn :=
    Registry.allBuiltIn_builtIn Settings.default
  obtain ⟨_, hrender, _⟩ := rendering_stops_at_refusal hbuiltIn
  have hrefused : ∀ n, refused n = boxAndPath.render fun index => index = n := fun n =>
    congrArg Prod.snd ((hrender painter hpainted).1 _)
  rw [hrefused, hrefused, hrefused]
  refine ⟨hbuiltIn, hpainted, ?_⟩
  decide +kernel

end Engine

end RegionDrawing
