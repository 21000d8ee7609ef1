import Mathlib
import RegionDrawing.Drawer.BuiltIn
import RegionDrawing.Proofs.Element.Bounds
import RegionDrawing.Proofs.Geometry.Translation

/-! # Moved elements

An element that is moved takes along where it is picked and what its drawer gives as its bounds:
both are computed from distances and proportions between points, never from where these are.
-/
namespace RegionDrawing

def Transform.translation {α : Type} (dx dy : α) : Transform α := { displacement := some ⟨dx, dy⟩ }

variable {α : Type} [FieldScalar α] (settings : Settings α)

/-- An element behind an edit by the drawer for its kind. -/
def Element.edited (element : Element α) (t : Transform α) : Element α :=
  { element with shape := (builtInDrawer element.kind settings).transformed element t }

theorem Element.shape_edited (element : Element α) (t : Transform α) :
    (element.edited settings t).shape = element.shape.transformed t := by
  unfold Element.edited
  cases element.kind <;> rfl

theorem Element.kind_edited (element : Element α) (t : Transform α) :
    (element.edited settings t).kind = element.kind := by
  rw [kind, shape_edited, kind]
  cases element.shape <;> rfl

variable {element moved : Element α} {dx dy : α}

theorem RectangleDrawer.hits_translated
    (hmoved : moved.shape = element.shape.transformed (.translation dx dy)) (p : Point α)
    (tolerance : α) :
    hits moved (p.translated dx dy) tolerance = hits element p tolerance := by
  unfold hits
  rw [hmoved]
  cases element.shape with
  | rect bounds => exact bounds.contains_translated dx dy p
  | polygon | path | box => rfl

theorem PolylineDrawer.hits_translated
    (hmoved : moved.shape = element.shape.transformed (.translation dx dy)) (p : Point α)
    (tolerance : α) :
    hits moved (p.translated dx dy) tolerance = hits element p tolerance := by
  unfold hits
  rw [hmoved]
  cases element.shape with
  | polygon outline =>
    exact congrArg₂ (· || ·) (Polyline.near_translated dx dy outline.points _ p tolerance)
      (congrArg (outline.closed && ·) (Polyline.interiorContains_translated dx dy outline.points p))
  | path outline => exact Polyline.near_translated dx dy outline.points _ p tolerance
  | rect | box => rfl

theorem BoxDrawer.hits_translated
    (hmoved : moved.shape = element.shape.transformed (.translation dx dy)) (p : Point α)
    (tolerance : α) :
    hits settings moved (p.translated dx dy) tolerance = hits settings element p tolerance := by
  unfold hits
  rw [hmoved]
  cases element.shape with
  | box b =>
    show ((b.front.translated dx dy).expanded _).contains _ = _
    rw [Rect.expanded_translated, Rect.contains_translated]
  | rect | polygon | path => rfl

variable [ExactScalar α]

theorem Shape.bounds_translated {shape : Shape α} (h : shape.isValid) (dx dy : α) :
    (shape.transformed (.translation dx dy)).bounds = shape.bounds.translated dx dy :=
  shape.bounds_transformed (.translation dx dy) h rfl

theorem PolylineDrawer.bounds_translated (hvalid : element.shape.isValid)
    (hmoved : moved.shape = element.shape.transformed (.translation dx dy)) :
    bounds settings moved = (bounds settings element).translated dx dy := by
  unfold bounds
  rw [hmoved]
  cases hshape : element.shape with
  | path outline =>
    rw [hshape] at hvalid
    have hsamples : Spline.sample outline.points outline.closed settings.splineTension
        settings.splineSamples ≠ [] := by
      obtain ⟨p, hp⟩ := List.exists_mem_of_ne_nil _ (Shape.controlPoints_ne_nil hvalid)
      exact List.ne_nil_of_mem (Spline.mem_sample hp _ _)
    show Rect.enclosing (Spline.sample (outline.points.map _) _ _ _) = _
    rw [← Rect.enclosing_translated dx dy hsamples,
      ← Spline.sample_map (Point.isAxial_translated dx dy).isAffine]
    rfl
  | rect | polygon | box =>
    rw [hshape] at hvalid
    exact Shape.bounds_translated hvalid dx dy

/-- An element that is moved is hit where it was hit before, moved by as much, and so are its
bounds, those of the sampled curve for a path and those of all eight corners for a box. -/
theorem moved_element_keeps_hits_and_bounds (hvalid : element.shape.isValid) (dx dy : α) :
    let drawer := builtInDrawer element.kind settings
    let moved := element.edited settings (.translation dx dy)
    moved.kind = element.kind ∧
    (∀ p tolerance,
      drawer.hits moved (p.translated dx dy) tolerance = drawer.hits element p tolerance) ∧
    drawer.bounds moved = (drawer.bounds element).translated dx dy ∧
    (∀ outline, element.shape = .path outline →
      drawer.bounds moved =
        (Rect.enclosing (Spline.sample outline.points outline.closed settings.splineTension
          settings.splineSamples)).translated dx dy) ∧
    ∀ b, element.shape = .box b →
      drawer.bounds moved =
        (Rect.enclosing (b.front.corners ++ b.backCorners)).translated dx dy := by
  intro drawer moved
  have hmoved : moved.shape = element.shape.transformed (.translation dx dy) :=
    element.shape_edited settings _
  have hhits : ∀ p tolerance,
      drawer.hits moved (p.translated dx dy) tolerance = drawer.hits element p tolerance := by
    intro p tolerance
    unfold drawer
    cases element.kind with
    | rect => exact RectangleDrawer.hits_translated hmoved p tolerance
    | polygon | path => exact PolylineDrawer.hits_translated hmoved p tolerance
    | box => exact BoxDrawer.hits_translated settings hmoved p tolerance
  have hbounds : drawer.bounds moved = (drawer.bounds element).translated dx dy := by
    have hshape : moved.shape.bounds = element.shape.bounds.translated dx dy := by
      rw [hmoved, Shape.bounds_translated hvalid]
    unfold drawer
    cases element.kind with
    | rect | box => exact hshape
    | polygon | path => exact PolylineDrawer.bounds_translated settings hvalid hmoved
  refine ⟨element.kind_edited settings _, hhits, hbounds, ?_, ?_⟩
  · intro outline hpath
    have hkind : element.kind = .path := congrArg Shape.kind hpath
    rw [hbounds]
    unfold drawer
    rw [hkind]
    show (PolylineDrawer.bounds settings element).translated dx dy = _
    rw [PolylineDrawer.bounds, hpath]
  · intro b hbox
    have hkind : element.kind = .box := congrArg Shape.kind hbox
    rw [hbounds]
    unfold drawer
    rw [hkind]
    show element.shape.bounds.translated dx dy = _
    rw [hbox]
    rfl

/-- A box left of the middle, picked without a margin. -/
noncomputable def leftBoxElement : Element ℝ where
  id := ElementId.nil
  label := "Box"
  note := none
  style := none
  createdAt := 0
  updatedAt := 0
  shape := .box ⟨⟨1 / 8, 1 / 4, 1 / 4, 1 / 2⟩, ⟨3 / 4, 1 / 2⟩, 1 / 2⟩

/-- The box is picked on its edge, and on the same edge half the media further to the right. -/
theorem leftBox_picked_behind_move :
    let settings : Settings ℝ := { Settings.default with boxHitMargin := 0 }
    let drawer := builtInDrawer leftBoxElement.kind settings
    let moved := leftBoxElement.edited settings (.translation (1 / 2) 0)
    leftBoxElement.shape.isValid ∧ drawer.hits leftBoxElement ⟨1 / 8, 1 / 4⟩ 0 ∧
      drawer.hits moved ⟨5 / 8, 1 / 4⟩ 0 ∧
      drawer.bounds moved = (drawer.bounds leftBoxElement).translated (1 / 2) 0 := by
  intro settings drawer moved
  have hvalid : leftBoxElement.shape.isValid := by
    apply PerspectiveBox.isProper_iff.mpr
    rw [Rect.isProper_iff]
    norm_num
  have hhit : drawer.hits leftBoxElement ⟨1 / 8, 1 / 4⟩ 0 := by
    apply Rect.contains_iff.mpr
    norm_num [settings, Rect.expanded, Rect.right, Rect.bottom]
  obtain ⟨_, hhits, hbounds, _⟩ :=
    moved_element_keeps_hits_and_bounds settings hvalid (1 / 2) 0
  have hmoved := hhits ⟨1 / 8, 1 / 4⟩ 0
  norm_num [Point.translated] at hmoved
  exact ⟨hvalid, hhit, hmoved.trans hhit, hbounds⟩

end RegionDrawing
