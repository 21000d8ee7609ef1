import RegionDrawing.Proofs.Engine.References
import RegionDrawing.Proofs.Geometry.Media
import RegionDrawing.Proofs.Store.Import
import RegionDrawing.Proofs.Store.Validity

/-! # Stored geometry

Geometry enters a store by a finished gesture, a drag of a vertex, an edit and a document. All of
them look at the geometry except the drag, which moves the vertex to the nearest point of the media
and therefore stores invalid geometry if, and only if, the pointer has an undefined coordinate.
-/
namespace RegionDrawing

variable {α : Type} [Scalar α]

section
variable [LawfulScalar α]

omit [LawfulScalar α] in
theorem Point.all_isFinite_set {points : List (Point α)} (h : points.all Point.isFinite)
    {position : Nat} (hposition : position < points.length) (p : Point α) :
    (points.set position p).all Point.isFinite = p.isFinite := by
  rw [Bool.eq_iff_iff, List.all_eq_true]
  constructor
  · intro hall
    exact hall p (List.mem_set hposition p)
  · intro hp q hq
    rw [List.all_eq_true] at h
    rcases List.mem_or_eq_of_mem_set hq with hq | rfl
    · exact h q hq
    · exact hp

theorem VertexEditor.isValid_moved {shape : Shape α} (h : shape.isValid) {position : Nat}
    (hposition : position < (shape.points?.getD []).length) (p : Point α) :
    (moved shape position p).isValid = (!Scalar.isUndefined p.x && !Scalar.isUndefined p.y) := by
  have hlist : ∀ outline : Outline α, position < outline.points.length →
      (2 ≤ outline.points.length && outline.points.all Point.isFinite) →
      (2 ≤ (Polyline.moveVertex outline.points position p).length &&
        (Polyline.moveVertex outline.points position p).all Point.isFinite) =
        (!Scalar.isUndefined p.x && !Scalar.isUndefined p.y) := by
    intro outline hlt hvalid
    simp only [Bool.and_eq_true, decide_eq_true_eq] at hvalid
    simp only [Polyline.moveVertex, List.length_set, hvalid.1, Point.all_isFinite_set hvalid.2 hlt,
      Point.isFinite_clamped, Point.isDefined, decide_true, Bool.true_and]
  cases shape with
  | polygon outline => exact hlist outline hposition h
  | path outline => exact hlist outline hposition h
  | rect bounds => cases hposition
  | box b => cases hposition

omit [LawfulScalar α] in
theorem VertexEditor.length_points_moved (shape : Shape α) (position : Nat) (p : Point α) :
    ((moved shape position p).points?.getD []).length = (shape.points?.getD []).length := by
  cases shape with
  | polygon outline => exact List.length_set
  | path outline => exact List.length_set
  | rect bounds => rfl
  | box b => rfl

theorem PointerEvent.isUndefined_point (event : PointerEvent α) :
    Scalar.isUndefined event.point.x = Scalar.isUndefined event.position.x ∧
      Scalar.isUndefined event.point.y = Scalar.isUndefined event.position.y :=
  ⟨Scalar.isUndefined_clampUnit _, Scalar.isUndefined_clampUnit _⟩

end

/-- A vertex editor has valid geometry and holds one of its vertices, if any. -/
def Session.EditsValid (session : Session α) : Prop :=
  ∀ editor, session.state = .editing editor → editor.shape.isValid ∧
    ∀ position, editor.held = some position → position < editor.points.length

namespace Session.EditsValid

variable {session : Session α}

theorem of_not_editing (h : session.state.editor? = none) : session.EditsValid := by
  intro editor hstate
  rw [hstate] at h
  cases h

theorem setMode (h : session.EditsValid) (mode : Mode) : (session.setMode mode).1.EditsValid := by
  unfold Session.setMode
  split
  · exact of_not_editing rfl
  · exact h

theorem forget (h : session.EditsValid) (id : ElementId) : (session.forget id).EditsValid :=
  fun editor hforget => h editor (Session.editing_of_forget hforget).1

theorem reaction {elements : List (Element α)} {input : Input α}
    {taken : Session α × List (Action α)} (h : session.EditsValid)
    (hvalid : ∀ element ∈ elements, element.shape.isValid) (hactions : ForDisplay taken.2)
    (htaken : session.Reaction elements input taken) : taken.1.EditsValid := by
  cases htaken with
  | ignored => exact h
  | drawn hstate _ => exact of_not_editing hstate
  | selected _ _ => exact h
  | hovered _ _ => exact h
  | @begun editor element _ hfound hbegin _ =>
    intro editor' hstate
    cases hstate
    have hshape := hvalid element (Element.mem_of_withId? hfound)
    unfold VertexEditor.begin? at hbegin
    split at hbegin <;> cases hbegin <;> exact ⟨hshape, fun _ h => nomatch h⟩
  | gripped hstate hheld _ =>
    intro editor' hs
    cases hs
    exact ⟨(h _ hstate).1, hheld⟩
  | dragged _ _ _ => simp [Action.forDisplay] at hactions
  | deleted _ _ => simp [Action.forDisplay] at hactions
  | committed _ => simp [Action.forDisplay] at hactions

end Session.EditsValid

namespace Engine

def StoreValid (engine : Engine α) : Prop := engine.store.Valid

/-- Whether a call moves a vertex to a place with an undefined coordinate. -/
def DragsUndefined (engine : Engine α) : Call α → Prop
  | .input _ (.move event) => ∃ editor position,
    engine.session.state = .editing editor ∧ editor.held = some position ∧
      (Scalar.isUndefined event.position.x ∨ Scalar.isUndefined event.position.y)
  | _ => False

/-- What keeps the stored geometry valid: the references of the session and the geometry in its
editor. -/
structure Sound (engine : Engine α) : Prop where
  resolves : engine.Resolves
  store : engine.StoreValid
  edits : engine.session.EditsValid

theorem sound_ofSettings (settings : Settings α) : (ofSettings settings).Sound where
  resolves := resolves_ofSettings settings
  store := fun _ _ hmem => nomatch hmem
  edits := fun _ h => nomatch h

variable {engine : Engine α}

theorem Sound.performAll [LawfulScalar α] (h : engine.Sound) (moment : Moment) {input : Input α}
    (hinput : ¬ engine.DragsUndefined (.input moment input))
    {taken : Session α × List (Action α)}
    (htaken : engine.session.Reaction engine.elements input taken) :
    (engine.performAll moment taken).1.Sound := by
  have hresolves := h.resolves.performAll moment htaken
  have hstore := h.store.eachShape
  rcases engine.performAll_cases moment htaken with
    ⟨hactions, heq⟩ | ⟨editor, position, event, hmove, hstate, hheld, rfl, heq⟩ |
    ⟨id, _, hstate, _, heq⟩ | ⟨draft, hvalid, hstate, _, heq⟩
  all_goals rw [heq] at hresolves ⊢
  · exact ⟨hresolves, h.store, h.edits.reaction (h.store _) hactions htaken⟩
  · obtain ⟨hvalid, hposition⟩ := h.edits editor hstate
    have hmoved : (VertexEditor.moved editor.shape position event.point).isValid := by
      rw [VertexEditor.isValid_moved hvalid (hposition position hheld),
        event.isUndefined_point.1, event.isUndefined_point.2]
      subst hmove
      refine Bool.not_eq_false _ ▸ fun hfalse => hinput ⟨editor, position, hstate, hheld, ?_⟩
      cases hx : Scalar.isUndefined event.position.x <;> simp_all
    refine ⟨hresolves, hstore.updateShape moment _ _ hmoved, ?_⟩
    intro editor' hs
    cases hs
    refine ⟨hmoved, fun other hother => ?_⟩
    rw [VertexEditor.points, VertexEditor.length_points_moved]
    exact hposition other hother
  · have hedits : taken.1.EditsValid := fun editor hs => h.edits editor (hstate.symm.trans hs)
    exact ⟨hresolves, hstore.remove _ id, hedits.forget id⟩
  · refine ⟨hresolves, hstore.insert moment _ hvalid, Session.EditsValid.of_not_editing ?_⟩
    rw [hstate]
    rfl

theorem Sound.take [LawfulScalar α] (h : engine.Sound) (moment : Moment) {input : Input α}
    (hinput : ¬ engine.DragsUndefined (.input moment input)) :
    (engine.take moment input).1.Sound := by
  rcases engine.take_cases moment input with heq | ⟨mode, _, heq⟩
  · rw [heq]
    exact h.performAll moment hinput (Session.reaction_take _ _ _)
  · rw [heq]
    exact ⟨Session.RefersTo.setMode h.resolves mode, h.store, h.edits.setMode mode⟩

/-- Every call keeps an engine sound, except a drag to a place with an undefined coordinate. -/
theorem Sound.after {α : Type} [WrittenScalar α] [LawfulScalar α] {engine : Engine α}
    (h : engine.Sound) {call : Call α} (hcall : ¬ engine.DragsUndefined call) :
    (engine.after call).Sound := by
  have hresolves := h.resolves.after call
  have hstore := h.store.eachShape
  cases call with
  | input moment input => exact h.take moment hcall
  | setAsset asset =>
    rcases engine.after_setAsset_cases asset with heq | heq
    · rw [heq]
      exact h
    · rw [heq] at hresolves ⊢
      exact ⟨hresolves, h.store, Session.EditsValid.of_not_editing rfl⟩
  | setFrame frame => exact ⟨hresolves, h.store, h.edits⟩
  | setZoom zoom => exact ⟨hresolves, h.store, h.edits⟩
  | setMode mode => exact ⟨hresolves, h.store, h.edits.setMode mode⟩
  | transform moment id t =>
    rcases engine.after_transform_cases moment id t with ⟨shape, hedited, heq⟩ | ⟨_, heq⟩
    · rw [heq] at hresolves ⊢
      exact ⟨hresolves, hstore.updateShape moment _ id (isValid_of_edited? hedited), h.edits⟩
    · rw [heq]
      exact h
  | patch moment id patch => exact ⟨hresolves, hstore.patch moment _ id patch, h.edits⟩
  | remove id => exact ⟨hresolves, hstore.remove _ id, h.edits.forget id⟩
  | importText text =>
    rcases engine.after_importText_cases text with ⟨elements, hread, heq⟩ | heq
    · rw [heq] at hresolves ⊢
      exact ⟨hresolves, hstore.setElements _ (Store.readElements_eq_ok_iff.mp hread).2.1,
        Session.EditsValid.of_not_editing rfl⟩
    · rw [heq]
      exact h
  | clear => exact ⟨hresolves, hstore.clear _, Session.EditsValid.of_not_editing rfl⟩
  | changeRegistry registry => exact ⟨hresolves, h.store, h.edits⟩

/-- A drag to a place with an undefined coordinate stores invalid geometry. -/
theorem Sound.not_storeValid_after {α : Type} [WrittenScalar α] [LawfulScalar α]
    {engine : Engine α} (h : engine.Sound) {call : Call α} (hcall : engine.DragsUndefined call) :
    ¬ (engine.after call).StoreValid := by
  unfold DragsUndefined at hcall
  split at hcall
  · next moment event =>
    obtain ⟨editor, position, hstate, hheld, hundefined⟩ := hcall
    obtain ⟨hvalid, hposition⟩ := h.edits editor hstate
    obtain ⟨element, helement, hkind, _⟩ := h.resolves.editing editor hstate
    rw [engine.after_drag moment event hstate hheld]
    intro hafter
    have hstored := Store.get?_updateShape helement
      (hkind.trans (VertexEditor.kind_moved editor.shape position event.point).symm) moment
    have hmoved := hafter _ _ (Element.mem_of_withId? hstored)
    simp only [Store.reshaped, VertexEditor.isValid_moved hvalid (hposition position hheld),
      event.isUndefined_point, Bool.and_eq_true, Bool.not_eq_true'] at hmoved
    rcases hundefined with hx | hy
    · exact absurd hx (by simp [hmoved.1])
    · exact absurd hy (by simp [hmoved.2])
  · exact hcall.elim

end Engine

end RegionDrawing
