import RegionDrawing.Proofs.Geometry.OnMedia
import RegionDrawing.Proofs.Session.Drag

/-! # What built-in drawers make lies on the media

A gesture whose start and points lie on the media leaves a shape that lies there, with sides above
the least size where the shape is dragged. Moving a vertex to a point of the media keeps that.
-/
namespace RegionDrawing

variable {α : Type} [FieldScalar α]

/-- Whether a shape lies on the media: rectangles and fronts of boxes with sides above a size,
point lists with all their points, and boxes with all their corners. -/
def Shape.OnMedia (size : α) : Shape α → Prop
  | .rect bounds => bounds.OnMedia size
  | .polygon outline | .path outline => ∀ p ∈ outline.points, p.inMedia
  | .box b => b.front.OnMedia size ∧ ∀ p ∈ b.front.corners ++ b.backCorners, p.inMedia

theorem VertexEditor.onMedia_moved {size : α} {shape : Shape α} (h : shape.OnMedia size)
    (position : Nat) {p : Point α} (hp : p.clamped.inMedia) :
    (moved shape position p).OnMedia size := by
  have hlist : ∀ outline : Outline α, (∀ q ∈ outline.points, q.inMedia) →
      ∀ q ∈ Polyline.moveVertex outline.points position p, q.inMedia := by
    intro outline hpoints q hq
    rcases List.mem_or_eq_of_mem_set hq with hq | rfl
    · exact hpoints q hq
    · exact hp
  cases shape with
  | polygon outline => exact hlist outline h
  | path outline => exact hlist outline h
  | rect bounds => exact h
  | box b => exact h

theorem Settings.box_of_fault?_eq_none {settings : Settings α} (h : settings.fault? = none) :
    0 ≤ settings.minSize ∧ Scalar.inUnit settings.boxDepth ∧ settings.boxVanishing.inMedia := by
  rw [fault?_eq_none_iff] at h
  simp only [checks, List.forall_mem_cons] at h
  obtain ⟨hsize, _, _, _, _, _, hdepth, hx, hy, _⟩ := h
  refine ⟨?_, hdepth, ?_⟩
  · exact of_decide_eq_true (Bool.and_eq_true_iff.mp hsize).2
  · exact Bool.and_eq_true_iff.mpr ⟨hx, hy⟩

theorem Settings.fault?_default [ExactScalar α] : (default : Settings α).fault? = none := by
  rw [fault?_eq_none_iff]
  simp only [checks, default, Check.distance, Check.fraction, List.forall_mem_cons,
    Scalar.inUnit_iff, ExactScalar.isFinite_eq, Bool.true_and, OfScientific.ofScientific,
    ExactScalar.decimal_eq]
  norm_num

/-- Whether what a drawer gets to see of a gesture lies on the media. -/
structure DrawingContext.OnMedia (context : DrawingContext α) : Prop where
  start : ∀ start, context.start = some start → start.inMedia
  points : ∀ p ∈ context.points, p.inMedia

variable {settings : Settings α} {context : DrawingContext α} {shape : Shape α}

theorem DragKind.onMedia_shape (kind : DragKind) (hsettings : settings.fault? = none)
    {bounds : Rect α} (hbounds : bounds.OnMedia settings.minSize) :
    (kind.shape settings bounds).OnMedia settings.minSize := by
  obtain ⟨hsize, hdepth, hvanishing⟩ := Settings.box_of_fault?_eq_none hsettings
  cases kind with
  | rect => exact hbounds
  | box =>
    exact ⟨hbounds, PerspectiveBox.inMedia_of_mem_corners
      (fun _ hp => hbounds.inMedia_of_mem_corners hsize hp) hvanishing hdepth⟩

theorem PolylineDrawer.onMedia_complete (kind : OutlineKind) (hcontext : context.OnMedia)
    (hshape : (PolylineDrawer.complete kind settings context).shape = some shape) (size : α) :
    shape.OnMedia size := by
  unfold PolylineDrawer.complete at hshape
  split at hshape
  · cases hshape
  · cases hshape
    cases kind <;> exact hcontext.points

variable [ExactScalar α]

theorem DragKind.onMedia_finish (kind : DragKind) (hsettings : settings.fault? = none)
    (hcontext : context.OnMedia)
    (hshape : ((kind.drawer settings).finish context).shape = some shape) :
    shape.OnMedia settings.minSize := by
  cases hstart : context.start with
  | none =>
    rw [kind.finish_drawer_of_none settings hstart] at hshape
    cases hshape
  | some start =>
    rw [kind.finish_drawer settings hstart] at hshape
    split at hshape
    · next hsize =>
      cases hshape
      exact kind.onMedia_shape hsettings (Rect.onMedia_dragged (hcontext.start start hstart)
        (Point.clamped_inMedia _) hsize)
    · cases hshape

/-- Whatever ends a gesture that lies on the media, the shape that it leaves lies there too. -/
theorem builtInDrawer_onMedia (kind : ShapeKind) (hsettings : settings.fault? = none)
    (hcontext : context.OnMedia) {outcome : Outcome α}
    (houtcome : outcome = (builtInDrawer kind settings).finish context ∨
      outcome = (builtInDrawer kind settings).complete context)
    (hshape : outcome.shape = some shape) : shape.OnMedia settings.minSize := by
  rcases houtcome with rfl | rfl
  · cases kind with
    | rect => exact DragKind.rect.onMedia_finish hsettings hcontext hshape
    | box => exact DragKind.box.onMedia_finish hsettings hcontext hshape
    | polygon => exact nomatch (PolylineDrawer.shape_move .polygon context).symm.trans hshape
    | path => exact nomatch (PolylineDrawer.shape_move .path context).symm.trans hshape
  · cases kind with
    | rect | box => cases hshape
    | polygon => exact PolylineDrawer.onMedia_complete .polygon hcontext hshape _
    | path => exact PolylineDrawer.onMedia_complete .path hcontext hshape _

end RegionDrawing
