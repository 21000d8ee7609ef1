import RegionDrawing.Proofs.Drawer.Contract

/-! # Completed gestures are stored

While the drawer under an id is a built-in one without a fault, a gesture with it collects finite
points only. So the drawer keeps its contract: when it says that the gesture is complete there is a
shape to store, and the session stores it. What is registered under other ids does not matter.
-/
namespace RegionDrawing

variable {α : Type} [Scalar α]

/-- Whether the drawer under an id, if there is one, is a built-in one under settings without a
fault. -/
def Registry.IsBuiltInAt (registry : Registry α) (id : String) : Prop :=
  ∀ drawer, registry.get? id = some drawer →
    ∃ kind settings, drawer = builtInDrawer kind settings ∧ settings.fault? = none

theorem Registry.isBuiltInAt_builtIn {settings : Settings α} (h : settings.fault? = none)
    (id : String) : (Registry.builtIn settings).IsBuiltInAt id := by
  intro drawer hdrawer
  obtain ⟨r, hr, rfl⟩ := Option.map_eq_some_iff.mp hdrawer
  obtain ⟨kind, _, rfl⟩ := List.mem_map.mp (List.mem_of_find?_eq_some hr)
  exact ⟨kind, settings, rfl, h⟩

/-- Whether a call brings no undefined coordinate and leaves a built-in drawer under an id. -/
def SessionCall.IsBuiltInAt (id : String) : SessionCall α → Prop
  | .input _ given => given.isDefined
  | .changeRegistry registry => registry.IsBuiltInAt id
  | .setMode _ | .selectByShortcut _ | .reset | .forget _ => True

/-- Whether all that a gesture has collected is finite. -/
structure GestureState.IsFinite (state : GestureState α) : Prop where
  start : ∀ start, state.start? = some start → start.isFinite
  points : ∀ p ∈ state.points, p.isFinite

theorem GestureState.IsFinite.context {state : GestureState α} (h : state.IsFinite)
    {event : PointerEvent α} (hevent : event.position.isDefined) (elements : List (Element α)) :
    (state.context event elements).IsFinite :=
  ⟨hevent, h.start, h.points⟩

theorem GestureState.isFinite_of_not_drawing {state : GestureState α}
    (h : state.isDrawing = false) : state.IsFinite := by
  cases state with
  | dragging | collecting => cases h
  | idle | editing | cancelled | committed => exact ⟨nofun, nofun⟩

theorem PointerEvent.isFinite_point [LawfulScalar α] {event : PointerEvent α}
    (h : event.position.isDefined) : event.point.isFinite := by
  rwa [point, Point.isFinite_clamped]

namespace Session

/-- Whether the drawer under an id keeps its contract and a gesture with it has collected finite
points. -/
structure IsFiniteAt (session : Session α) (id : String) : Prop where
  registry : session.registry.IsBuiltInAt id
  gesture : session.mode = .draw id → session.state.IsFinite

namespace IsFiniteAt

variable {session : Session α} {id : String}

theorem of_not_drawing (hregistry : session.registry.IsBuiltInAt id)
    (h : session.state.isDrawing = false) : session.IsFiniteAt id :=
  ⟨hregistry, fun _ => GestureState.isFinite_of_not_drawing h⟩

theorem setMode (h : session.IsFiniteAt id) (mode : Mode) :
    (session.setMode mode).1.IsFiniteAt id := by
  unfold Session.setMode
  split
  · exact of_not_drawing h.registry rfl
  · exact h

theorem selectByShortcut (h : session.IsFiniteAt id) (key : Char) :
    (session.selectByShortcut key).1.IsFiniteAt id := by
  rcases session.selectByShortcut_cases key with heq | ⟨mode, heq⟩
  · rw [heq]
    exact h
  · rw [heq]
    exact h.setMode mode

theorem forget (h : session.IsFiniteAt id) (element : ElementId) :
    (session.forget element).IsFiniteAt id := by
  rcases session.state_forget_cases element with hstate | hstate
  · refine ⟨h.registry, fun hmode => ?_⟩
    rw [hstate]
    exact h.gesture hmode
  · exact of_not_drawing h.registry (by rw [hstate]; rfl)

variable [LawfulScalar α]

theorem step {elements : List (Element α)} {input : Input α}
    {taken : Session α × List (Action α)} (h : session.IsFiniteAt id) (hinput : input.isDefined)
    (hstep : session.Step elements input taken) : taken.1.IsFiniteAt id := by
  cases hstep with
  | pressed =>
    rw [publish_fst]
    refine ⟨h.registry, fun _ => ⟨?_, nofun⟩⟩
    rintro _ ⟨⟩
    exact PointerEvent.isFinite_point hinput
  | clicked _ _ hmode hdrawer hgesture houtcome =>
    rw [publish_fst]
    refine ⟨h.registry, fun hmode' => ⟨nofun, ?_⟩⟩
    obtain rfl := Mode.draw.inj (hmode.symm.trans hmode')
    obtain ⟨kind, settings, hbuiltIn, _⟩ := h.registry _ hdrawer
    obtain ⟨_, _, rfl⟩ := Drawer.IsBuiltIn.exists_polylineDrawer ⟨kind, settings, hbuiltIn⟩ hgesture
    subst houtcome
    intro p hp
    rcases Polyline.mem_append hp with hp | rfl
    · exact (h.gesture hmode).points p hp
    · exact PointerEvent.isFinite_point hinput
  | moved | lifted =>
    rw [publish_fst]
    exact ⟨h.registry, h.gesture⟩
  | ignored | selected | deselected | hovered | deleted => exact ⟨h.registry, h.gesture⟩
  | committed | discarded | cancelled | editBegun | gripped | dragged | released | editEnded =>
    exact of_not_drawing h.registry rfl

theorem after (h : session.IsFiniteAt id) {call : SessionCall α} (hcall : call.IsBuiltInAt id) :
    (session.after call).IsFiniteAt id := by
  cases call with
  | input elements input => exact h.step hcall (step_take session elements input)
  | setMode mode => exact h.setMode mode
  | selectByShortcut key => exact h.selectByShortcut key
  | reset => exact of_not_drawing h.registry rfl
  | forget element => exact h.forget element
  | changeRegistry registry => exact ⟨hcall, h.gesture⟩

theorem run (h : session.IsFiniteAt id) {calls : List (SessionCall α)}
    (hcalls : ∀ call ∈ calls, call.IsBuiltInAt id) : (session.run calls).IsFiniteAt id :=
  run_invariant (I := fun session : Session α => session.IsFiniteAt id)
    (fun _ _ h hcall => h.after hcall) h hcalls

end IsFiniteAt

section
variable {session : Session α} {drawer : Drawer α} {elements : List (Element α)}
  {event : PointerEvent α}

theorem take_up_eq_commit (hdrawing : session.state.isDrawing)
    (hdrawer : session.activeDrawer? = some drawer)
    (h : (drawer.finish (session.state.context event elements)).complete = true) :
    session.take elements (.up event) =
      session.commit (drawer.finish (session.state.context event elements)) := by
  unfold take pointerUp
  cases hstate : session.state with
  | dragging start | collecting points =>
    rw [hstate] at h
    rw [hdrawer]
    exact if_pos h
  | idle | editing | cancelled | committed =>
    rw [hstate] at hdrawing
    cases hdrawing

theorem take_doubleClick_eq_commit {points : List (Point α)}
    (hstate : session.state = .collecting points) (hdrawer : session.activeDrawer? = some drawer)
    (h : (drawer.complete (session.state.context event elements)).complete = true) :
    session.take elements (.doubleClick event) =
      session.commit (drawer.complete (session.state.context event elements)) := by
  unfold take doubleClick
  rw [hstate] at h ⊢
  rw [hdrawer]
  exact if_pos h

/-- Whether the end of a gesture stores the shape of an outcome. -/
def Stores (session : Session α) (outcome : Outcome α)
    (taken : Session α × List (Action α)) : Prop :=
  ∃ shape, outcome.shape = some shape ∧
    taken = ({ session with state := .committed, preview := none },
      [.elementCommitted { shape }, .previewChanged none, .renderNeeded])

theorem stores_commit {outcome : Outcome α} {kind : ShapeKind} {settings : Settings α}
    {context : DrawingContext α} {phase : Phase}
    (hkeeps : outcome.Keeps kind settings context phase) (h : outcome.complete = true) :
    session.Stores outcome (session.commit outcome) := by
  obtain ⟨shape, heq⟩ := Option.isSome_iff_exists.mp (hkeeps.shape_iff.mp h)
  refine ⟨shape, heq, ?_⟩
  rw [commit, heq, Option.filter_some, if_pos (hkeeps.shape shape heq).1]

end

section
variable {session : Session Float} {id : String} {drawer : Drawer Float}
  {elements : List (Element Float)} {event : PointerEvent Float}
  (h : session.IsFiniteAt id) (hmode : session.mode = .draw id)
  (hdrawer : session.activeDrawer? = some drawer) (hevent : event.position.isDefined)
include h hmode hdrawer hevent

theorem exists_keeps (elements : List (Element Float)) : ∃ kind settings, ∀ phase,
    (drawer.outcome phase (session.state.context event elements)).Keeps kind settings
      (session.state.context event elements) phase := by
  obtain ⟨_, hmode', hget⟩ := activeDrawer?_eq_some_iff.mp hdrawer
  obtain rfl := Mode.draw.inj (hmode.symm.trans hmode')
  obtain ⟨kind, settings, rfl, hsettings⟩ := h.registry drawer hget
  exact ⟨_, settings,
    builtInDrawer_keeps hsettings ((h.gesture hmode).context hevent elements) kind⟩

theorem stores_up (hdrawing : session.state.isDrawing)
    (hcomplete : (drawer.finish (session.state.context event elements)).complete = true) :
    session.Stores (drawer.finish (session.state.context event elements))
      (session.take elements (.up event)) := by
  obtain ⟨_, _, hkeeps⟩ := exists_keeps h hmode hdrawer hevent elements
  rw [take_up_eq_commit hdrawing hdrawer hcomplete]
  exact stores_commit (hkeeps .finish) hcomplete

/-- Only a list of points is complete at a double click. -/
theorem stores_doubleClick
    (hcomplete : (drawer.complete (session.state.context event elements)).complete = true) :
    session.Stores (drawer.complete (session.state.context event elements))
      (session.take elements (.doubleClick event)) := by
  obtain ⟨_, _, hkeeps⟩ := exists_keeps h hmode hdrawer hevent elements
  obtain ⟨_, hpoints⟩ := (hkeeps .complete).complete_iff.mp hcomplete
  obtain ⟨points, hstate⟩ : ∃ points, session.state = .collecting points := by
    cases hstate : session.state with
    | collecting points => exact ⟨points, rfl⟩
    | idle | dragging | editing | cancelled | committed =>
      rw [hstate] at hpoints
      simp [GestureState.context, GestureState.points] at hpoints
  rw [take_doubleClick_eq_commit hstate hdrawer hcomplete]
  exact stores_commit (hkeeps .complete) hcomplete

end

/-- Every built-in drawer whose settings have no fault keeps its contract in all phases, wherever a
gesture starts and whatever it has collected, as long as that is finite. So behind any calls since
nothing was drawn, with such a drawer under the id of the mode all the while, an outcome that is
complete is never dropped: the release and the double click store its shape. -/
theorem complete_outcomes_are_stored :
    (∀ (kind : ShapeKind) (settings : Settings Float) (context : DrawingContext Float)
        (phase : Phase), settings.fault? = none → context.IsFinite →
      ((builtInDrawer kind settings).outcome phase context).Keeps
        (builtInDrawer kind settings).info.kind settings context phase) ∧
    ∀ (before : Session Float) (calls : List (SessionCall Float)) (id : String),
      before.state.isDrawing = false → before.registry.IsBuiltInAt id →
      (∀ call ∈ calls, call.IsBuiltInAt id) →
      let session := before.run calls
      session.mode = .draw id → session.state.isDrawing →
      ∀ (drawer : Drawer Float) (elements : List (Element Float)) (event : PointerEvent Float),
        session.activeDrawer? = some drawer → event.position.isDefined →
        let context := session.state.context event elements
        ((drawer.finish context).complete →
          session.Stores (drawer.finish context) (session.take elements (.up event))) ∧
        ((drawer.complete context).complete →
          session.Stores (drawer.complete context)
            (session.take elements (.doubleClick event))) := by
  refine ⟨fun kind _ _ phase hsettings hcontext =>
    builtInDrawer_keeps hsettings hcontext kind phase, ?_⟩
  intro before calls id hbefore hregistry hcalls session hmode hdrawing drawer elements event
    hdrawer hevent context
  have h : session.IsFiniteAt id := (IsFiniteAt.of_not_drawing hregistry hbefore).run hcalls
  exact ⟨stores_up h hmode hdrawer hevent hdrawing, stores_doubleClick h hmode hdrawer hevent⟩

/-- A box dragged as a square from far off the media is complete and can be stored, and a double
click behind two clicks stores a polygon. -/
theorem far_box_and_polygon_stored :
    let settings : Settings Float := Settings.default
    let registry : Registry Float := Registry.builtIn settings
    let far : DrawingContext Float :=
      { event := .ofPosition ⟨0.5, 0.5⟩ { shift := true }, start := some ⟨1e30, -1e30⟩ }
    let box : Outcome Float := (builtInDrawer .box settings).finish far
    let before : Session Float := { registry, settings }
    let session := before.run twoClicks
    let drawer : Drawer Float := builtInDrawer .polygon settings
    let event : PointerEvent Float := .ofPosition ⟨0.75, 0.25⟩ {}
    let polygon : Outcome Float := drawer.complete (session.state.context event [])
    (settings.fault? = none ∧ far.IsFinite ∧ before.state.isDrawing = false ∧
      before.registry.IsBuiltInAt "polygon" ∧
      (∀ call ∈ twoClicks, call.IsBuiltInAt "polygon") ∧ session.mode = .draw "polygon" ∧
      session.state.isDrawing ∧ session.activeDrawer? = some drawer ∧ event.position.isDefined) ∧
    (box.complete ∧ box.Keeps .box settings far .finish) ∧
    polygon.complete ∧ session.Stores polygon (session.take [] (.doubleClick event)) := by
  intro settings registry far box before session drawer event polygon
  have hsettings : settings.fault? = none := by decide +kernel
  have hfar : far.IsFinite := by
    refine ⟨by decide +kernel, fun start hstart => ?_, nofun⟩
    rw [← Option.some.inj hstart]
    decide +kernel
  have hregistry := Registry.isBuiltInAt_builtIn hsettings "polygon"
  have hcalls : ∀ call ∈ twoClicks, call.IsBuiltInAt "polygon" := by
    simp only [twoClicks, List.forall_mem_cons, List.not_mem_nil, false_imp_iff, implies_true,
      and_true]
    refine ⟨trivial, ?_, ?_⟩ <;> show Input.isDefined _ = true <;> decide +kernel
  have hstate : session.state = .collecting [⟨0.25, 0.25⟩, ⟨0.75, 0.25⟩] := by decide +kernel
  have hdrawing : session.state.isDrawing := by rw [hstate]; rfl
  have hmode : session.mode = .draw "polygon" := by decide +kernel
  have hsame : session.registry = registry :=
    (step_take _ _ _).kept.2.1.trans (step_take _ _ _).kept.2.1
  have hdrawer : session.activeDrawer? = some drawer :=
    activeDrawer?_eq_some_iff.mpr ⟨_, hmode, by rw [hsame]; rfl⟩
  have hevent : event.position.isDefined := by decide +kernel
  have hbox : box.complete := by decide +kernel
  have hpolygon : polygon.complete := by
    show (PolylineDrawer.complete .polygon settings (session.state.context event [])).complete
    rw [hstate]
    rfl
  obtain ⟨hkeeps, hstores⟩ := complete_outcomes_are_stored
  obtain ⟨_, hstored⟩ := hstores before twoClicks "polygon" rfl hregistry hcalls hmode hdrawing
    drawer [] event hdrawer hevent
  exact ⟨⟨hsettings, hfar, rfl, hregistry, hcalls, hmode, hdrawing, hdrawer, hevent⟩,
    ⟨hbox, hkeeps .box settings far .finish hsettings hfar⟩, hpolygon, hstored hpolygon⟩

end Session

end RegionDrawing
