import RegionDrawing.Registry

/-! # Gestures of built-in drawers

What the four built-in drawers have in common: an open gesture always shows a shape of the drawer's
kind, and a finished one leaves such a shape. The drawers that take several clicks are the polygon
and the path drawer.
-/
namespace RegionDrawing

variable {α : Type} [Scalar α]

def Outcome.Shows (outcome : Outcome α) (kind : ShapeKind) : Prop :=
  ∃ preview, outcome.preview = some preview ∧ preview.kind = kind

/-- Whether a context is one of an open gesture: a drag has a start, and clicks have left points. -/
def DrawingContext.IsOpen (context : DrawingContext α) : Gesture → Prop
  | .drag => context.start.isSome
  | .multiClick => context.points ≠ []

theorem PolylineDrawer.shape_move (kind : OutlineKind) (context : DrawingContext α) :
    (move kind context).shape = none := by
  rw [move]
  split <;> rfl

namespace Drawer

/-- Whether a drawer is one of the four built-in ones, under any settings. -/
def IsBuiltIn (drawer : Drawer α) : Prop := ∃ kind settings, drawer = builtInDrawer kind settings

variable {drawer : Drawer α}

theorem IsBuiltIn.exists_polylineDrawer (h : drawer.IsBuiltIn)
    (hgesture : drawer.gesture = .multiClick) :
    ∃ kind settings, drawer = polylineDrawer kind settings := by
  obtain ⟨kind, settings, rfl⟩ := h
  cases kind with
  | polygon => exact ⟨.polygon, settings, rfl⟩
  | path => exact ⟨.path, settings, rfl⟩
  | rect => cases hgesture
  | box => cases hgesture

theorem IsBuiltIn.shows_start (h : drawer.IsBuiltIn) (context : DrawingContext α) :
    (drawer.start context).Shows drawer.info.kind := by
  obtain ⟨kind, settings, rfl⟩ := h
  cases kind <;> exact ⟨_, rfl, rfl⟩

theorem IsBuiltIn.shows_move (h : drawer.IsBuiltIn) {context : DrawingContext α}
    (hopen : context.IsOpen drawer.gesture) : (drawer.move context).Shows drawer.info.kind := by
  obtain ⟨kind, settings, rfl⟩ := h
  have hlist : ∀ kind : OutlineKind, context.points ≠ [] →
      (PolylineDrawer.move kind context).Shows kind.info.kind := by
    intro kind hpoints
    rw [PolylineDrawer.move, if_neg (by simpa using hpoints)]
    cases kind <;> exact ⟨_, rfl, rfl⟩
  cases kind with
  | rect =>
    obtain ⟨start, hstart⟩ := Option.isSome_iff_exists.mp hopen
    show (RectangleDrawer.move context).Shows .rect
    rw [RectangleDrawer.move, hstart]
    exact ⟨_, rfl, rfl⟩
  | polygon => exact hlist .polygon hopen
  | path => exact hlist .path hopen
  | box =>
    obtain ⟨start, hstart⟩ := Option.isSome_iff_exists.mp hopen
    show (BoxDrawer.move settings context).Shows .box
    rw [BoxDrawer.move, hstart]
    exact ⟨_, rfl, rfl⟩

theorem IsBuiltIn.kind_of_finish (h : drawer.IsBuiltIn) {context : DrawingContext α}
    {shape : Shape α} (hshape : (drawer.finish context).shape = some shape) :
    shape.kind = drawer.info.kind := by
  obtain ⟨kind, settings, rfl⟩ := h
  have hlist : ∀ kind : OutlineKind, (PolylineDrawer.move kind context).shape ≠ some shape := by
    intro kind
    rw [PolylineDrawer.shape_move]
    exact nofun
  cases kind with
  | rect =>
    replace hshape : (RectangleDrawer.finish settings context).shape = some shape := hshape
    unfold RectangleDrawer.finish at hshape
    split at hshape
    · cases hshape
    · dsimp only at hshape
      split at hshape <;> cases hshape
      rfl
  | polygon => exact absurd hshape (hlist .polygon)
  | path => exact absurd hshape (hlist .path)
  | box =>
    replace hshape : (BoxDrawer.finish settings context).shape = some shape := hshape
    unfold BoxDrawer.finish at hshape
    split at hshape
    · cases hshape
    · dsimp only at hshape
      split at hshape <;> cases hshape
      rfl

theorem IsBuiltIn.kind_of_complete (h : drawer.IsBuiltIn) {context : DrawingContext α}
    {shape : Shape α} (hshape : (drawer.complete context).shape = some shape) :
    shape.kind = drawer.info.kind := by
  obtain ⟨kind, settings, rfl⟩ := h
  have hlist : ∀ kind : OutlineKind,
      (PolylineDrawer.complete kind settings context).shape = some shape →
        shape.kind = kind.info.kind := by
    intro kind hcomplete
    unfold PolylineDrawer.complete at hcomplete
    split at hcomplete <;> cases hcomplete
    cases kind <;> rfl
  cases kind with
  | rect => cases hshape
  | polygon => exact hlist .polygon hshape
  | path => exact hlist .path hshape
  | box => cases hshape

theorem IsBuiltIn.transformed (h : drawer.IsBuiltIn) (element : Element α) (t : Transform α) :
    drawer.transformed element t = element.shape.transformed t := by
  obtain ⟨kind, settings, rfl⟩ := h
  cases kind <;> rfl

end Drawer

/-- Whether no drawer of a registry is any but a built-in one. -/
def Registry.AllBuiltIn (registry : Registry α) : Prop :=
  ∀ r ∈ registry.entries, r.drawer.IsBuiltIn

theorem Registry.allBuiltIn_builtIn (settings : Settings α) :
    (Registry.builtIn settings).AllBuiltIn := by
  intro r hr
  obtain ⟨kind, _, rfl⟩ := List.mem_map.mp hr
  exact ⟨kind, settings, rfl⟩

theorem Registry.AllBuiltIn.get? {registry : Registry α} (h : registry.AllBuiltIn) {id : String}
    {drawer : Drawer α} (hdrawer : registry.get? id = some drawer) : drawer.IsBuiltIn := by
  obtain ⟨r, hr, rfl⟩ := Option.map_eq_some_iff.mp hdrawer
  exact h r (List.mem_of_find?_eq_some hr)

end RegionDrawing
