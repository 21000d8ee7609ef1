import RegionDrawing.Binary64.Scalar
import RegionDrawing.Proofs.Engine.References

/-! # Vertex editing and the stored geometry

A vertex editor has its own copy of the geometry and every drag stores the whole copy. The copy is
the stored geometry as long as no edit of the element itself changes that, and only so long: an
edit between two drags is undone by the second one.
-/
namespace RegionDrawing

variable {α : Type}

/-- A vertex editor has the geometry that is stored for its element. -/
def Session.InSync (session : Session α) (elements : List (Element α)) : Prop :=
  ∀ editor, session.state = .editing editor →
    ∃ element, Element.withId? elements editor.id = some element ∧ element.shape = editor.shape

namespace Session.InSync

variable {session : Session α} {elements : List (Element α)}

theorem of_not_editing (elements : List (Element α)) (h : session.state.editor? = none) :
    session.InSync elements := by
  intro editor hstate
  rw [hstate] at h
  cases h

theorem of_kept {elements' : List (Element α)} (h : session.InSync elements)
    (hkept : ∀ id element, Element.withId? elements id = some element →
      ∃ element', Element.withId? elements' id = some element' ∧ element'.shape = element.shape) :
    session.InSync elements' := by
  intro editor hstate
  obtain ⟨element, helement, hshape⟩ := h editor hstate
  obtain ⟨element', helement', hshape'⟩ := hkept editor.id element helement
  exact ⟨element', helement', hshape'.trans hshape⟩

theorem forget {elements' : List (Element α)} (h : session.InSync elements) (id : ElementId)
    (hkept : ∀ other, other ≠ id →
      Element.withId? elements' other = Element.withId? elements other) :
    (session.forget id).InSync elements' := by
  intro editor hforget
  obtain ⟨hstate, hid⟩ := Session.editing_of_forget hforget
  rw [hkept editor.id hid]
  exact h editor hstate

theorem setMode (h : session.InSync elements) (mode : Mode) :
    (session.setMode mode).1.InSync elements := by
  unfold Session.setMode
  split
  · exact of_not_editing elements rfl
  · exact h

theorem reaction [Scalar α] {input : Input α} {taken : Session α × List (Action α)}
    (h : session.InSync elements) (hactions : ForDisplay taken.2)
    (htaken : session.Reaction elements input taken) : taken.1.InSync elements := by
  cases htaken with
  | ignored => exact h
  | drawn hstate _ => exact of_not_editing _ hstate
  | selected _ _ => exact h
  | hovered _ _ => exact h
  | @begun editor element _ hfound hbegin _ =>
    intro editor' hstate
    cases hstate
    refine ⟨element, hfound, ?_⟩
    unfold VertexEditor.begin? at hbegin
    split at hbegin <;> cases hbegin <;> rfl
  | gripped hstate _ _ =>
    intro editor' hs
    cases hs
    obtain ⟨element, helement, hshape⟩ := h _ hstate
    exact ⟨element, helement, hshape⟩
  | dragged _ _ _ => simp [Action.forDisplay] at hactions
  | deleted _ _ => simp [Action.forDisplay] at hactions
  | committed _ => simp [Action.forDisplay] at hactions

variable {store : Store α} {asset : String}

theorem patch (h : session.InSync (store.elements asset)) (moment : Moment) (id : ElementId)
    (patch : Patch α) :
    session.InSync ((store.patch moment asset id patch).1.elements asset) := by
  rcases store.patch_cases moment asset id patch with heq | heq
  · rw [heq, Store.elements_setElements_self]
    apply h.of_kept
    intro other element helement
    rw [Store.withId?_editElement (Store.id_repatched patch moment.now), helement]
    refine ⟨_, rfl, ?_⟩
    split <;> rfl
  · rw [heq]
    exact h

theorem remove (h : session.InSync (store.elements asset)) (id : ElementId) :
    (session.forget id).InSync ((store.remove asset id).1.elements asset) := by
  rcases store.remove_cases asset id with ⟨_, _, heq⟩ | ⟨_, heq⟩
  · rw [heq, Store.elements_setElements_self]
    exact h.forget id fun other hne => Store.withId?_eraseP hne _
  · rw [heq]
    exact h.forget id fun _ _ => rfl

end Session.InSync

namespace Engine

def EditorInSync (engine : Engine α) : Prop := engine.session.InSync engine.elements

/-- Whether a call edits the element whose vertices are being edited and changes its geometry. -/
def OverwritesEdited [Scalar α] (engine : Engine α) : Call α → Prop
  | .transform _ id t => ∃ editor element shape,
    engine.session.state = .editing editor ∧ editor.id = id ∧
      engine.element? id = some element ∧ engine.edited? id t = some shape ∧
      shape.kind = element.kind ∧ shape ≠ element.shape
  | _ => False

variable {engine : Engine α}

theorem EditorInSync.drag [Scalar α] (h : engine.EditorInSync) (moment : Moment)
    {editor : VertexEditor α} (hstate : engine.session.state = .editing editor) (position : Nat)
    (p : Point α) : ∃ element, engine.element? editor.id = some element ∧
      element.shape = editor.shape ∧
      (engine.store.updateShape moment engine.asset editor.id
          (VertexEditor.moved editor.shape position p)).1.get? engine.asset editor.id =
        some (Store.reshaped (VertexEditor.moved element.shape position p) moment.now element) := by
  obtain ⟨element, helement, hshape⟩ := h editor hstate
  refine ⟨element, helement, hshape, ?_⟩
  rw [hshape]
  refine Store.get?_updateShape helement ?_ moment
  rw [VertexEditor.kind_moved, ← hshape]
  rfl

theorem EditorInSync.performAll [Scalar α] (h : engine.EditorInSync) (moment : Moment)
    {input : Input α} {taken : Session α × List (Action α)}
    (htaken : engine.session.Reaction engine.elements input taken) :
    (engine.performAll moment taken).1.EditorInSync := by
  rcases engine.performAll_cases moment htaken with
    ⟨hactions, heq⟩ | ⟨editor, position, event, _, hstate, _, rfl, heq⟩ |
    ⟨id, _, hstate, _, heq⟩ | ⟨draft, _, hstate, _, heq⟩
  all_goals rw [heq]
  · exact Session.InSync.reaction h hactions htaken
  · obtain ⟨element, _, hshape, hstored⟩ := h.drag moment hstate position event.point
    intro editor' hs
    cases hs
    exact ⟨_, hstored, by rw [Store.reshaped, hshape]⟩
  · have hsync : taken.1.InSync engine.elements :=
      fun editor hs => h editor (hstate.symm.trans hs)
    exact hsync.remove id
  · apply Session.InSync.of_not_editing _
    rw [hstate]
    rfl

theorem EditorInSync.take [Scalar α] (h : engine.EditorInSync) (moment : Moment)
    (input : Input α) : (engine.take moment input).1.EditorInSync := by
  rcases engine.take_cases moment input with heq | ⟨mode, _, heq⟩
  · rw [heq]
    exact h.performAll moment (Session.reaction_take _ _ _)
  · rw [heq]
    exact Session.InSync.setMode h mode

theorem EditorInSync.transform [Scalar α] (h : engine.EditorInSync) (moment : Moment)
    {id : ElementId} {t : Transform α} {shape : Shape α}
    (hcall : ¬ engine.OverwritesEdited (.transform moment id t))
    (hedited : engine.edited? id t = some shape) :
    { engine with
      store := (engine.store.updateShape moment engine.asset id shape).1 }.EditorInSync := by
  intro editor hstate
  obtain ⟨element, helement, hshape⟩ := h editor hstate
  by_cases hid : editor.id = id
  · subst hid
    by_cases hkind : element.kind = shape.kind
    · have hsame : shape = element.shape := by
        apply Classical.byContradiction
        intro hne
        exact hcall ⟨editor, element, shape, hstate, rfl, helement, hedited, hkind.symm, hne⟩
      exact ⟨_, Store.get?_updateShape helement hkind moment, hsame.trans hshape⟩
    · rcases engine.store.updateShape_cases moment engine.asset editor.id shape with
        ⟨stored, hstored, hkind', _⟩ | ⟨_, heq⟩
      · rw [Store.get?_eq_withId?] at hstored
        exact absurd (Option.some.inj (hstored.symm.trans helement) ▸ hkind') hkind
      · rw [heq]
        exact ⟨element, helement, hshape⟩
  · exact ⟨element, (Store.get?_updateShape_of_ne hid _ _ _ _).trans helement, hshape⟩

/-- Every call keeps the copies equal, except an edit of the geometry that is being edited. -/
theorem EditorInSync.after [WrittenScalar α] (h : engine.EditorInSync) {call : Call α}
    (hcall : ¬ engine.OverwritesEdited call) : (engine.after call).EditorInSync := by
  cases call with
  | input moment input => exact h.take moment input
  | setAsset asset =>
    rcases engine.after_setAsset_cases asset with heq | heq
    · rw [heq]
      exact h
    · rw [heq]
      exact Session.InSync.of_not_editing _ rfl
  | setFrame frame => exact h
  | setZoom zoom => exact h
  | setMode mode => exact Session.InSync.setMode h mode
  | transform moment id t =>
    rcases engine.after_transform_cases moment id t with ⟨shape, hedited, heq⟩ | ⟨_, heq⟩
    · rw [heq]
      exact h.transform moment hcall hedited
    · rw [heq]
      exact h
  | patch moment id patch => exact Session.InSync.patch h moment id patch
  | remove id => exact Session.InSync.remove h id
  | importText text =>
    rcases engine.after_importText_cases text with ⟨elements, _, heq⟩ | heq
    · rw [heq]
      exact Session.InSync.of_not_editing _ rfl
    · rw [heq]
      exact h
  | clear => exact Session.InSync.of_not_editing _ rfl
  | changeRegistry registry => exact h

/-- An edit that changes the geometry under the editor leaves the old geometry with the editor. -/
theorem EditorInSync.not_after [WrittenScalar α] (h : engine.EditorInSync) {call : Call α}
    (hcall : engine.OverwritesEdited call) : ¬ (engine.after call).EditorInSync := by
  cases call with
  | transform moment id t =>
    obtain ⟨editor, element, shape, hstate, rfl, helement, hedited, hkind, hne⟩ := hcall
    rcases engine.after_transform_cases moment editor.id t with ⟨shape', hedited', heq⟩ | ⟨hnone, _⟩
    · cases hedited.symm.trans hedited'
      have hstored := Store.get?_updateShape helement hkind.symm moment
      intro hafter
      rw [heq] at hafter
      obtain ⟨element', helement', hshape'⟩ := hafter editor hstate
      obtain ⟨element'', helement'', hshape''⟩ := h editor hstate
      cases hstored.symm.trans helement'
      cases helement.symm.trans helement''
      exact hne (hshape'.trans hshape''.symm)
    · cases hedited.symm.trans hnone
  | _ => cases hcall

/-- The editor's copy is the stored geometry throughout a run exactly if no edit of the run changes
the geometry that is being edited. Behind such a run a drag moves one vertex of what is stored. -/
theorem editorInSync_throughout_iff [WrittenScalar α] (settings : Settings α)
    (calls : List (Call α)) :
    ((ofSettings settings).Throughout EditorInSync calls ↔
      (ofSettings settings).EachCall (fun engine call => ¬ engine.OverwritesEdited call) calls) ∧
    ((ofSettings settings).EachCall (fun engine call => ¬ engine.OverwritesEdited call) calls →
      let engine := (ofSettings settings).run calls
      ∀ moment event editor position, engine.session.state = .editing editor →
        editor.held = some position →
        ∃ element, engine.element? editor.id = some element ∧
          (engine.after (.input moment (.move event))).element? editor.id =
            some { element with
              shape := VertexEditor.moved element.shape position event.point
              updatedAt := moment.now }) := by
  have hstart : (ofSettings settings).EditorInSync := Session.InSync.of_not_editing _ rfl
  refine ⟨throughout_iff_eachCall (fun _ h => h) (fun _ _ h hcall => h.after hcall)
    (fun _ _ h hcall => h.not_after (Classical.not_not.mp hcall)) hstart calls, ?_⟩
  intro hcalls engine moment event editor position hstate hheld
  have h : engine.EditorInSync :=
    run_invariant_of_eachCall (fun _ _ h hcall => h.after hcall) hstart hcalls
  obtain ⟨element, helement, _, hstored⟩ := h.drag moment hstate position event.point
  refine ⟨element, helement, ?_⟩
  rw [after_drag engine moment event hstate hheld]
  exact hstored

/-- A press, move or double click at a point of the media. -/
def pointerAt (x y : Float) : PointerEvent Float := ⟨⟨x, y⟩, true, {}⟩

/-- Draws a triangle and takes hold of its first vertex. -/
def gripTriangle : List (Call Float) :=
  let moment : Moment := ⟨ElementId.nil, 0⟩
  [.setMode (.draw "polygon"),
    .input moment (.down (pointerAt 0.25 0.25)),
    .input moment (.down (pointerAt 0.75 0.25)),
    .input moment (.down (pointerAt 0.5 0.75)),
    .input moment (.doubleClick (pointerAt 0.5 0.75)),
    .setMode .select,
    .input moment (.doubleClick (pointerAt 0.25 0.25)),
    .input moment (.down (pointerAt 0.25 0.25))]

/-- The vertex that is held moves alone. -/
theorem drag_moves_held_vertex :
    let engine := (ofSettings Settings.default).run gripTriangle
    let event : PointerEvent Float := pointerAt 0.25 0.5
    ∃ element, engine.element? ElementId.nil = some element ∧
      (engine.after (.input ⟨ElementId.nil, 1⟩ (.move event))).element? ElementId.nil =
        some { element with
          shape := VertexEditor.moved element.shape 0 event.point
          updatedAt := 1 } := by
  have hcalls : (ofSettings (Settings.default : Settings Float)).EachCall
      (fun engine call => ¬ engine.OverwritesEdited call) gripTriangle :=
    ⟨id, id, id, id, id, id, id, id, trivial⟩
  let editor : VertexEditor Float :=
    ⟨ElementId.nil, .polygon ⟨[⟨0.25, 0.25⟩, ⟨0.75, 0.25⟩, ⟨0.5, 0.75⟩], false⟩, 0.03, some 0⟩
  exact (editorInSync_throughout_iff Settings.default gripTriangle).2 hcalls ⟨ElementId.nil, 1⟩
    (pointerAt 0.25 0.5) editor 0 (by decide +kernel) rfl

/-- Moves the triangle up by an eighth while its vertices are edited. -/
def shiftGripped : Call Float :=
  .transform ⟨ElementId.nil, 0⟩ ElementId.nil ⟨some ⟨0, -0.125⟩, none, none⟩

/-- The geometry that is stored is not the one that the editor has, and the next drag of one vertex
brings the others back to where they were. -/
theorem drag_undoes_shift :
    let engine := (ofSettings Settings.default).run (gripTriangle ++ [shiftGripped])
    let dragged := engine.after (.input ⟨ElementId.nil, 0⟩ (.move (pointerAt 0.25 0.5)))
    (∃ editor element, engine.session.state = .editing editor ∧
      engine.element? editor.id = some element ∧ element.shape ≠ editor.shape) ∧
    engine.elements.map (·.shape.points?) =
      [some [⟨0.25, 0.125⟩, ⟨0.75, 0.125⟩, ⟨0.5, 0.625⟩]] ∧
    dragged.elements.map (·.shape.points?) =
      [some [⟨0.25, 0.5⟩, ⟨0.75, 0.25⟩, ⟨0.5, 0.75⟩]] := by
  refine ⟨⟨⟨ElementId.nil, .polygon ⟨[⟨0.25, 0.25⟩, ⟨0.75, 0.25⟩, ⟨0.5, 0.75⟩], false⟩, 0.03,
    some 0⟩, ⟨ElementId.nil, "Polygon 1", none, none, 0, 0,
      .polygon ⟨[⟨0.25, 0.125⟩, ⟨0.75, 0.125⟩, ⟨0.5, 0.625⟩], false⟩⟩, ?_, ?_, ?_⟩, ?_, ?_⟩
  all_goals decide +kernel

end Engine

end RegionDrawing
