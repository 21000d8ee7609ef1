import RegionDrawing.Binary64.Scalar
import RegionDrawing.Proofs.Element.Bounds
import RegionDrawing.Proofs.Engine.CanvasState
import RegionDrawing.Proofs.Engine.Commits

/-! # Edits of one element

An edit of geometry is stored as a whole or not at all. It is refused if there is nothing to edit,
nothing to edit it with or nothing valid to store, and when it is stored only the geometry and the
time of that element have changed.
-/
namespace RegionDrawing

variable {α : Type} [Scalar α]

namespace Shape

variable (shape : Shape α) (t : Transform α)

theorem kind_transformed : (shape.transformed t).kind = shape.kind := by cases shape <;> rfl

theorem length_transformed :
    (shape.transformed t).points?.map List.length = shape.points?.map List.length := by
  cases shape with
  | rect bounds => rfl
  | polygon outline => exact congrArg some (List.length_map _)
  | path outline => exact congrArg some (List.length_map _)
  | box b => rfl

theorem closed_transformed :
    (shape.transformed t).outline?.map (·.closed) = shape.outline?.map (·.closed) := by
  cases shape <;> rfl

theorem depth_transformed : (shape.transformed t).depth? = shape.depth? := by cases shape <;> rfl

end Shape

namespace Engine

variable {engine : Engine α} {id : ElementId} {t : Transform α} {shape : Shape α}

theorem edited?_eq_some_iff (h : engine.session.registry.AllBuiltIn) :
    engine.edited? id t = some shape ↔
      ∃ element, engine.element? id = some element ∧
        (∃ r ∈ engine.session.registry.entries, r.drawer.info.kind = element.kind) ∧
        element.shape.transformed t = shape ∧ shape.isValid := by
  have hdrawers : ∀ kind, (∃ r ∈ engine.session.registry.entries, r.drawer.info.kind = kind) ↔
      ∃ drawer, engine.session.registry.drawerFor? kind = some drawer := by
    intro kind
    rw [← Option.ne_none_iff_exists', ne_eq, Registry.drawerFor?_eq_none_iff]
    simp only [ne_eq, not_forall, not_not, exists_prop]
  simp only [edited?, Option.bind_eq_bind, Option.bind_eq_some_iff]
  constructor
  · rintro ⟨element, helement, drawer, hdrawer, hshape⟩
    rw [(h.drawerFor? hdrawer).transformed] at hshape
    split at hshape
    · next hvalid =>
      cases hshape
      exact ⟨element, helement, (hdrawers _).mpr ⟨drawer, hdrawer⟩, rfl, hvalid⟩
    · cases hshape
  · rintro ⟨element, helement, hentry, rfl, hvalid⟩
    obtain ⟨drawer, hdrawer⟩ := (hdrawers _).mp hentry
    refine ⟨element, helement, drawer, hdrawer, ?_⟩
    rw [(h.drawerFor? hdrawer).transformed, if_pos hvalid]

theorem edited?_eq_none_iff (h : engine.session.registry.AllBuiltIn) :
    engine.edited? id t = none ↔
      engine.element? id = none ∨ ∃ element, engine.element? id = some element ∧
        ((∀ r ∈ engine.session.registry.entries, r.drawer.info.kind ≠ element.kind) ∨
          (element.shape.transformed t).isValid = false) := by
  rw [Option.eq_none_iff_forall_ne_some]
  simp only [ne_eq, edited?_eq_some_iff h]
  cases engine.element? id with
  | none => simp
  | some element =>
    simp only [Option.some.injEq, exists_eq_left', reduceCtorEq, false_or, not_and,
      Bool.not_eq_true]
    grind

theorem action_transform (moment : Moment) :
    (engine.transform moment id t).2 = (engine.edited? id t).map (.elementUpdated id) := by
  rw [transform_eq]
  cases engine.edited? id t <;> rfl

theorem transform_of_edited? (h : engine.edited? id t = some shape) (moment : Moment) :
    (engine.transform moment id t).1 =
      { engine with store := (engine.store.updateShape moment engine.asset id shape).1 } := by
  rw [transform_eq, h]

/-- An edit gives an action or changes nothing, and which of both can be told beforehand. The action
names the element and its new geometry, which is valid. That geometry and the time of the edit are
all that is new about the element, all other elements stand where they stood, of this asset and of
others, and the session is the same. -/
theorem transform_changes_one_shape (h : engine.session.registry.AllBuiltIn) (moment : Moment)
    (id : ElementId) (t : Transform α) :
    let after := (engine.transform moment id t).1
    ((engine.transform moment id t).2 = none ↔
      engine.element? id = none ∨ ∃ element, engine.element? id = some element ∧
        ((∀ r ∈ engine.session.registry.entries, r.drawer.info.kind ≠ element.kind) ∨
          (element.shape.transformed t).isValid = false)) ∧
    ((engine.transform moment id t).2 = none → after = engine) ∧
    ∀ action, (engine.transform moment id t).2 = some action →
      ∃ before element behind, engine.elements = before ++ element :: behind ∧
        (∀ other ∈ before, other.id ≠ id) ∧ engine.element? id = some element ∧
        let shape := element.shape.transformed t
        action = .elementUpdated id shape ∧ shape.isValid ∧
          shape.kind = element.kind ∧
          shape.points?.map List.length = element.shape.points?.map List.length ∧
          shape.outline?.map (·.closed) = element.shape.outline?.map (·.closed) ∧
          shape.depth? = element.shape.depth? ∧
          after.elements = before ++ { element with shape, updatedAt := moment.now } :: behind ∧
          after.element? id = some { element with shape, updatedAt := moment.now } ∧
          (∀ asset, asset ≠ engine.asset →
            after.store.elements asset = engine.store.elements asset) ∧
          after = { engine with store := after.store } := by
  intro after
  refine ⟨?_, ?_, ?_⟩
  · rw [action_transform, Option.map_eq_none_iff, edited?_eq_none_iff h]
  · rw [action_transform, Option.map_eq_none_iff]
    intro hnone
    simp only [after, transform_eq, hnone]
  intro action haction
  rw [action_transform, Option.map_eq_some_iff] at haction
  obtain ⟨shape, hedited, rfl⟩ := haction
  have hafter : after = _ := transform_of_edited? hedited moment
  obtain ⟨element, helement, _, rfl, hvalid⟩ := (edited?_eq_some_iff h).mp hedited
  have hkind := element.shape.kind_transformed t
  have hstored := Store.get?_updateShape helement hkind.symm moment
  obtain ⟨⟨before, behind, helements, hbefore, hbehind⟩, hothers⟩ :=
    Store.exists_elements_updateShape helement hkind.symm moment
  refine ⟨before, element, behind, helements, hbefore, helement, rfl, hvalid, hkind,
    element.shape.length_transformed t, element.shape.closed_transformed t,
    element.shape.depth_transformed t, ?_⟩
  rw [hafter]
  exact ⟨hbehind, hstored, hothers, rfl⟩

def solidBox : Element Float :=
  ⟨.nil, "yard", none, none, 1, 1, .box ⟨⟨0.25, 0.25, 0.25, 0.5⟩, ⟨0.5, 0.5⟩, 0.25⟩⟩

def boxScene : Engine Float := { ofSettings Settings.default with store := ⟨[("", [solidBox])]⟩ }

/-- A box is turned over and widened, and its depth stays; moved to infinity it is refused. -/
theorem turned_box_keeps_depth :
    let moment : Moment := ⟨.nil, 7⟩
    let turning : Transform Float := { scaling := some ⟨-2, 1, ⟨0.5, 0.5⟩⟩ }
    boxScene.session.registry.AllBuiltIn ∧
      (boxScene.transform moment .nil turning).1.element? .nil =
        some { solidBox with
          shape := .box ⟨⟨0.5, 0.25, 0.5, 0.5⟩, ⟨0.5, 0.5⟩, 0.25⟩
          updatedAt := 7 } ∧
      (boxScene.transform moment .nil { displacement := some ⟨1 / 0, 0⟩ }).1 = boxScene := by
  intro moment turning
  have hbuiltIn : boxScene.session.registry.AllBuiltIn :=
    Registry.allBuiltIn_builtIn Settings.default
  refine ⟨hbuiltIn, ?_, ?_⟩
  · obtain ⟨-, -, hstored⟩ := transform_changes_one_shape hbuiltIn moment .nil turning
    obtain ⟨action, haction⟩ : ∃ action, (boxScene.transform moment .nil turning).2 = some action :=
      Option.isSome_iff_exists.mp (by decide +kernel)
    obtain ⟨_, element, _, _, _, helement, _, _, _, _, _, _, _, hafter, _⟩ := hstored action haction
    obtain rfl : solidBox = element := Option.some.inj helement
    rw [hafter]
    decide +kernel
  · obtain ⟨hrefused, hkept, -⟩ :=
      transform_changes_one_shape hbuiltIn moment .nil { displacement := some ⟨1 / 0, 0⟩ }
    exact hkept (hrefused.mpr (.inr ⟨solidBox, rfl, .inr (by decide +kernel)⟩))

end Engine

end RegionDrawing
