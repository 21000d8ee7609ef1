import RegionDrawing.Proofs.Drawer.OnMedia
import RegionDrawing.Proofs.Engine.Commits
import RegionDrawing.Proofs.Engine.References
import RegionDrawing.Proofs.Engine.Writes
import RegionDrawing.Proofs.Scalar.Real

/-! # What is drawn lies on the media

In exact arithmetic everything that gestures of built-in drawers and dragged vertices put into a
store lies on the media. The pointer may be anywhere: what counts is the nearest point of the media.
-/
namespace RegionDrawing

variable {α : Type}

/-- Whether a call brings no geometry but that of gestures and leaves the drawers as they are. -/
def Call.ByHand : Call α → Prop
  | .transform _ _ _ | .importText _ | .changeRegistry _ => False
  | _ => True

theorem Registry.get?_builtIn [Scalar α] {settings : Settings α} {id : String} {drawer : Drawer α}
    (h : (Registry.builtIn settings).get? id = some drawer) :
    ∃ kind, drawer = builtInDrawer kind settings := by
  obtain ⟨r, hr, rfl⟩ := Option.map_eq_some_iff.mp h
  obtain ⟨kind, _, rfl⟩ := List.mem_map.mp (List.mem_of_find?_eq_some hr)
  exact ⟨kind, rfl⟩

theorem GestureState.OnMedia.context [FieldScalar α] {state : GestureState α} (h : state.OnMedia)
    (event : PointerEvent α) (elements : List (Element α)) :
    (state.context event elements).OnMedia := by
  cases state with
  | dragging start =>
    refine ⟨?_, nofun⟩
    rintro _ ⟨⟩
    exact h
  | collecting points => exact ⟨nofun, h.2.1⟩
  | idle | editing | cancelled | committed => exact ⟨nofun, nofun⟩

variable [WrittenFieldScalar α]

theorem Input.isDefined_eq_true [ExactScalar α] (input : Input α) : input.isDefined := by
  cases input with
  | key key => rfl
  | down event | move event | up event | doubleClick event => exact event.position.isDefined_eq_true

namespace Session

/-- All that a session with built-in drawers holds of a gesture or an edited shape lies on the
media. -/
structure OnMedia (session : Session α) (settings : Settings α) : Prop where
  registry : session.registry = Registry.builtIn settings
  gesture : session.BuiltInGesture
  editing : ∀ editor, session.state = .editing editor → editor.shape.OnMedia settings.minSize

namespace OnMedia

variable {session : Session α} {settings : Settings α}

theorem reset (h : session.OnMedia settings) : session.reset.OnMedia settings :=
  ⟨h.registry, .of_not_drawing h.gesture.builtIn rfl, nofun⟩

theorem forget (h : session.OnMedia settings) (id : ElementId) :
    (session.forget id).OnMedia settings :=
  ⟨h.registry, h.gesture.forget id, fun editor hstate =>
    h.editing editor (editing_of_forget hstate).1⟩

theorem setMode (h : session.OnMedia settings) (mode : Mode) :
    (session.setMode mode).1.OnMedia settings := by
  refine ⟨?_, h.gesture.setMode mode, fun editor hstate => ?_⟩
  · unfold Session.setMode
    split <;> exact h.registry
  · rcases session.state_setMode_cases mode with heq | heq
    · exact h.editing editor (heq.symm.trans hstate)
    · rw [heq] at hstate
      cases hstate

variable [ExactScalar α]

theorem take (h : session.OnMedia settings) {elements : List (Element α)}
    (helements : ∀ element ∈ elements, element.shape.OnMedia settings.minSize)
    (input : Input α) : (session.take elements input).1.OnMedia settings := by
  have hstep := step_take session elements input
  refine ⟨hstep.kept.2.1.trans h.registry, h.gesture.step input.isDefined_eq_true hstep, ?_⟩
  have htaken := hstep.reaction
  generalize session.take elements input = taken at htaken
  intro editor hstate
  cases htaken with
  | ignored | selected | hovered | deleted => exact h.editing editor hstate
  | drawn hclosed _ =>
    dsimp only at hstate
    rw [hstate] at hclosed
    cases hclosed
  | begun hfound hbegin _ =>
    cases hstate
    have hshape := helements _ (Element.mem_of_withId? hfound)
    unfold VertexEditor.begin? at hbegin
    split at hbegin <;> cases hbegin <;> exact hshape
  | gripped hediting _ _ =>
    cases hstate
    have hshape := h.editing _ hediting
    exact hshape
  | dragged _ hediting _ =>
    cases hstate
    exact VertexEditor.onMedia_moved (h.editing _ hediting) _ (Point.clamped_inMedia _)
  | committed _ => cases hstate

theorem elementCommitted (h : session.OnMedia settings) (hsettings : settings.fault? = none)
    {elements : List (Element α)} {input : Input α} {draft : Draft α}
    (hdraft : .elementCommitted draft ∈ (session.take elements input).2) :
    draft.shape.OnMedia settings.minSize := by
  obtain ⟨event, drawer, outcome, _, hdrawer, houtcome, hshape, _⟩ :=
    (step_take session elements input).of_elementCommitted hdraft
  obtain ⟨_, _, hget⟩ := activeDrawer?_eq_some_iff.mp hdrawer
  rw [h.registry] at hget
  obtain ⟨kind, rfl⟩ := Registry.get?_builtIn hget
  exact builtInDrawer_onMedia kind hsettings (h.gesture.onMedia.context event elements) houtcome
    hshape

end OnMedia

end Session

namespace Engine

structure OnMedia (engine : Engine α) (settings : Settings α) : Prop where
  session : engine.session.OnMedia settings
  store : engine.store.EachShape fun shape => shape.OnMedia settings.minSize

theorem onMedia_ofSettings (settings : Settings α) : (ofSettings settings).OnMedia settings where
  session := ⟨rfl, .of_not_drawing (Registry.allBuiltIn_builtIn settings) rfl, nofun⟩
  store := fun _ _ hmem => nomatch hmem

variable [ExactScalar α] {engine : Engine α} {settings : Settings α} {call : Call α}

theorem OnMedia.sessionAfter (h : engine.OnMedia settings) (hcall : call.ByHand)
    {session : Session α} (hafter : engine.SessionAfter call session) :
    session.OnMedia settings := by
  have htaken := fun input => h.session.take (h.store engine.asset) input
  cases hafter with
  | kept => exact h.session
  | reset => exact h.session.reset
  | forgot id => exact h.session.forget id
  | entered mode => exact h.session.setMode mode
  | registryChanged heq =>
    subst heq
    cases hcall
  | took _ => exact htaken _
  | tookAndForgot _ id => exact (htaken _).forget id

/-- All geometry that comes into the store lies on the media. -/
theorem OnMedia.brings (h : engine.OnMedia settings) (hsettings : settings.fault? = none)
    (hcall : call.ByHand) {write : StoreCall α} (hwrite : engine.Writes call write) :
    Store.Brings (fun shape => shape.OnMedia settings.minSize) write := by
  cases hwrite with
  | committed hdraft => exact h.session.elementCommitted hsettings hdraft
  | dragged hstate _ =>
    exact VertexEditor.onMedia_moved (h.session.editing _ hstate) _ (Point.clamped_inMedia _)
  | deleted | patched | removed | cleared => trivial
  | transformed | imported => cases hcall

theorem OnMedia.after (h : engine.OnMedia settings) (hsettings : settings.fault? = none)
    (hcall : call.ByHand) : (engine.after call).OnMedia settings := by
  refine ⟨h.sessionAfter hcall (engine.sessionAfter call), ?_⟩
  rcases engine.store_after call with heq | ⟨write, hwrite, heq⟩
  · rw [heq]
    exact h.store
  · rw [heq]
    exact h.store.after (h.brings hsettings hcall hwrite)

theorem OnMedia.run (h : engine.OnMedia settings) (hsettings : settings.fault? = none)
    {calls : List (Call α)} (hcalls : ∀ call ∈ calls, call.ByHand) :
    (engine.run calls).OnMedia settings :=
  List.foldlRecOn (motive := fun engine : Engine α => engine.OnMedia settings) calls _ h
    fun _ h call hmem => h.after hsettings (hcalls call hmem)

/-- Whatever is drawn and dragged with built-in drawers under settings without a fault: all stored
geometry lies on the media, with dragged sides above the least size. -/
theorem stored_onMedia (hsettings : settings.fault? = none) {calls : List (Call α)}
    (hcalls : ∀ call ∈ calls, call.ByHand) (asset : String) :
    ∀ element ∈ ((ofSettings settings).run calls).store.elements asset,
      element.shape.OnMedia settings.minSize :=
  ((onMedia_ofSettings settings).run hsettings hcalls).store asset

/-- A square dragged from the media to far off it ends at the near border. -/
theorem square_drag_stored_onMedia :
    let settings : Settings ℝ := Settings.default
    let moment : Moment := ⟨.nil, 0⟩
    let press : PointerEvent ℝ := ⟨⟨3 / 4, 1 / 2⟩, true, {}⟩
    let release : PointerEvent ℝ := ⟨⟨3, 2⟩, false, { shift := true }⟩
    let calls : List (Call ℝ) :=
      [.setMode (.draw "rect"), .input moment (.down press), .input moment (.up release)]
    (settings.fault? = none ∧ ∀ call ∈ calls, call.ByHand) ∧
      ∃ element, ((ofSettings settings).run calls).store.elements "" = [element] ∧
        element.shape = .rect ⟨3 / 4, 1 / 2, 1 / 4, 1 / 4⟩ ∧
        element.shape.OnMedia settings.minSize := by
  intro settings moment press release calls
  have hsettings : settings.fault? = none := Settings.fault?_default
  have hcalls : ∀ call ∈ calls, call.ByHand := by
    simp only [calls, List.forall_mem_cons, List.not_mem_nil, false_imp_iff, implies_true, and_true]
    exact ⟨trivial, trivial, trivial⟩
  have hbounds : Rect.dragged press.point release.point true = ⟨3 / 4, 1 / 2, 1 / 4, 1 / 4⟩ := by
    have hpress : press.point = ⟨3 / 4, 1 / 2⟩ := by
      simp only [press, PointerEvent.point, Point.clamped, Scalar.clampUnit]
      norm_num
    have hrelease : release.point = ⟨1, 1⟩ := by
      simp only [release, PointerEvent.point, Point.clamped, Scalar.clampUnit]
      norm_num
    rw [hpress, hrelease]
    simp only [Rect.dragged, Rect.spanning, if_true, Scalar.least_eq, Scalar.greatest_eq,
      ExactScalar.copySign_eq, ExactScalar.abs_eq]
    norm_num [abs_of_nonneg, abs_of_neg]
  have hsize : (Rect.dragged press.point release.point true).exceeds settings.minSize := by
    have hminSize : settings.minSize = 1 / 100 := by
      simp only [settings, Settings.default, OfScientific.ofScientific, ExactScalar.decimal_eq]
      norm_num
    rw [hbounds, hminSize, Rect.exceeds]
    norm_num
  have hvalid : (Rect.dragged press.point release.point true).isProper := by
    rw [hbounds]
    simp only [Rect.isProper, ExactScalar.isFinite_eq]
    norm_num
  let drawing := (ofSettings settings).after (.setMode (.draw "rect"))
  let held := (drawing.session.take [] (.down press)).1
  have hdrawer : drawing.session.activeDrawer? = some (DragKind.rect.drawer settings) := rfl
  obtain ⟨hdrags, hdisplay⟩ :=
    Session.drags_take_press hdrawer rfl [] (rfl : press.within = true)
  have hdown : drawing.after (.input moment (.down press)) = { drawing with session := held } :=
    congrArg Prod.fst (drawing.performAll_forDisplay moment held hdisplay)
  have hrelease := (hdrags.take_release hdrawer [] release).1 hsize hvalid
  have hup : ({ drawing with session := held } : Engine ℝ).after (.input moment (.up release)) =
      ({ drawing with session := held }.performAll moment (held.take [] (.up release))).1 := rfl
  have hstore : ((ofSettings settings).run calls).store = (({} : Store ℝ).insert moment ""
      { shape := .rect (Rect.dragged press.point release.point true) }).1 := by
    show ((drawing.after (.input moment (.down press))).after
      (.input moment (.up release))).store = _
    rw [hdown, hup, hrelease]
    rfl
  have hmedia := stored_onMedia hsettings hcalls ""
  rw [hstore, hbounds] at hmedia ⊢
  exact ⟨⟨hsettings, hcalls⟩, _, rfl, rfl, hmedia _ List.mem_cons_self⟩

end Engine

end RegionDrawing
