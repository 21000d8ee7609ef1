import RegionDrawing.Binary64.Scalar
import RegionDrawing.Proofs.Drawer.BuiltIn
import RegionDrawing.Proofs.Engine.Events
import RegionDrawing.Proofs.Session.Calls

/-! # Finished gestures

An event finishes one gesture at most, and only one that is open. Its shape becomes the last
element of the current asset and nothing else changes there. For the next element another press on
the media has to begin a gesture.
-/
namespace RegionDrawing

variable {α : Type}

/-- The draft that an action leaves to be stored. -/
def Action.draft? : Action α → Option (Draft α)
  | .elementCommitted draft => some draft
  | _ => none

theorem Action.draft?_of_forDisplay {action : Action α} (h : action.forDisplay) :
    action.draft? = none := by
  cases action with
  | elementCommitted draft => cases h
  | _ => rfl

def drafts (actions : List (Action α)) : List (Draft α) := actions.filterMap (·.draft?)

theorem drafts_of_forDisplay {actions : List (Action α)} (h : ForDisplay actions) :
    drafts actions = [] := by
  apply List.filterMap_eq_nil_iff.mpr
  intro action haction
  exact Action.draft?_of_forDisplay (h action haction)

namespace Session

variable [Scalar α] {session : Session α} {elements : List (Element α)} {input : Input α}
  {taken : Session α × List (Action α)}

theorem Step.length_drafts_le (h : session.Step elements input taken) :
    (drafts taken.2).length ≤ 1 := by
  rcases h.actions_cases with hactions | ⟨_, _, _, _, _, _, _, _, _, rfl⟩ |
    ⟨_, _, _, hactions⟩ | ⟨_, _, hactions⟩
  · simp [drafts_of_forDisplay hactions]
  · simp [drafts, Action.draft?]
  · simp [drafts, Action.draft?, hactions]
  · simp [drafts, Action.draft?, hactions]

theorem Step.of_opens (h : session.Step elements input taken)
    (hbefore : session.state.isDrawing = false) (hafter : taken.1.state.isDrawing) :
    ∃ event id, input = .down event ∧ event.within ∧ session.mode = .draw id := by
  cases h with
  | pressed hwithin _ hmode _ _ => exact ⟨_, _, rfl, hwithin, hmode⟩
  | clicked hwithin _ hmode _ _ _ => exact ⟨_, _, rfl, hwithin, hmode⟩
  | moved hdrawing _ =>
    rw [hbefore] at hdrawing
    cases hdrawing
  | lifted hstate _ =>
    rw [hstate] at hbefore
    cases hbefore
  | ignored | selected | deselected | hovered | deleted =>
    rw [show session.state.isDrawing = true from hafter] at hbefore
    cases hbefore
  | _ => cases hafter

end Session

namespace Engine

namespace SessionAfter

variable {engine : Engine α} {call : Call α} {session : Session α}

theorem allBuiltIn [Scalar α] (h : engine.SessionAfter call session)
    (hbuiltIn : engine.session.registry.AllBuiltIn)
    (hcall : ∀ registry, call = .changeRegistry registry → registry.AllBuiltIn) :
    session.registry.AllBuiltIn := by
  have htaken : ∀ input,
      (engine.session.take engine.elements input).1.registry.AllBuiltIn := by
    intro input
    rw [(Session.step_take engine.session engine.elements input).kept.2.1]
    exact hbuiltIn
  cases h with
  | kept | reset | forgot => exact hbuiltIn
  | entered mode =>
    unfold Session.setMode
    split <;> exact hbuiltIn
  | registryChanged heq => exact hcall _ heq
  | took _ => exact htaken _
  | tookAndForgot _ id => exact htaken _

theorem of_opens [Scalar α] (h : engine.SessionAfter call session)
    (hbefore : engine.session.state.isDrawing = false) (hafter : session.state.isDrawing) :
    ∃ moment event id, call = .input moment (.down event) ∧ event.within ∧
      engine.session.mode = .draw id := by
  have hclosed : ∀ {state : GestureState α},
      state = engine.session.state ∨ state = .idle → ¬ state.isDrawing := by
    rintro state (rfl | rfl)
    · simp [hbefore]
    · simp [GestureState.isDrawing]
  have htook : ∀ {moment : Moment} {input : Input α}, call = .input moment input →
      (engine.session.take engine.elements input).1.state.isDrawing →
        ∃ moment event id, call = .input moment (.down event) ∧ event.within ∧
          engine.session.mode = .draw id := by
    intro moment input heq hdrawing
    obtain ⟨event, id, rfl, hwithin, hmode⟩ :=
      (Session.step_take engine.session engine.elements input).of_opens hbefore hdrawing
    exact ⟨moment, event, id, heq, hwithin, hmode⟩
  cases h with
  | kept => exact absurd hafter (hclosed (.inl rfl))
  | reset => exact absurd hafter (hclosed (.inr rfl))
  | forgot id => exact absurd hafter (hclosed (engine.session.state_forget_cases id))
  | entered mode => exact absurd hafter (hclosed (engine.session.state_setMode_cases mode))
  | registryChanged _ => exact absurd hafter (hclosed (.inl rfl))
  | took heq => exact htook heq hafter
  | tookAndForgot heq id =>
    rcases Session.state_forget_cases _ id with hstate | hstate
    · rw [hstate] at hafter
      exact htook heq hafter
    · rw [hstate] at hafter
      cases hafter

end SessionAfter

section
variable [WrittenScalar α] {engine : Engine α} {calls : List (Call α)}

theorem allBuiltIn_run (h : engine.session.registry.AllBuiltIn)
    (hcalls : ∀ registry, .changeRegistry registry ∈ calls → registry.AllBuiltIn) :
    (engine.run calls).session.registry.AllBuiltIn := by
  refine List.foldlRecOn
    (motive := fun engine : Engine α => engine.session.registry.AllBuiltIn) calls _ h ?_
  intro engine h call hmem
  apply (engine.sessionAfter call).allBuiltIn h
  rintro registry rfl
  exact hcalls registry hmem

/-- A gesture that is open behind calls and was not before them has been opened by one of them. -/
theorem exists_press (hbefore : engine.session.state.isDrawing = false)
    (hafter : (engine.run calls).session.state.isDrawing) :
    ∃ earlier moment event later id, calls = earlier ++ .input moment (.down event) :: later ∧
      event.within ∧ (engine.run earlier).session.mode = .draw id := by
  induction calls generalizing engine with
  | nil =>
    rw [show engine.session.state.isDrawing = true from hafter] at hbefore
    cases hbefore
  | cons call calls ih =>
    cases hopen : (engine.after call).session.state.isDrawing with
    | true =>
      obtain ⟨moment, event, id, rfl, hwithin, hmode⟩ :=
        (engine.sessionAfter call).of_opens hbefore hopen
      exact ⟨[], moment, event, calls, id, rfl, hwithin, hmode⟩
    | false =>
      obtain ⟨earlier, moment, event, later, id, rfl, hwithin, hmode⟩ := ih hopen hafter
      exact ⟨call :: earlier, moment, event, later, id, rfl, hwithin, hmode⟩

end

section
variable [Scalar α]

omit [Scalar α] in
@[simp] theorem performAll_elementCommitted (engine : Engine α) (moment : Moment)
    (session : Session α) (draft : Draft α) :
    (engine.performAll moment
        (session, [.elementCommitted draft, .previewChanged none, .renderNeeded])).1 =
      { engine with session, store := (engine.store.insert moment engine.asset draft).1 } := rfl

theorem length_drafts_take_le (engine : Engine α) (moment : Moment) (input : Input α) :
    (drafts (engine.take moment input).2).length ≤ 1 := by
  rcases engine.take_cases moment input with heq | ⟨mode, _, heq⟩
  · rw [heq]
    exact (Session.step_take engine.session engine.elements input).length_drafts_le
  · rw [heq]
    simp [drafts, Action.draft?]

theorem take_of_commit {engine : Engine α} {moment : Moment} {input : Input α} {draft : Draft α}
    (hdraft : .elementCommitted draft ∈ (engine.take moment input).2) :
    engine.session.state.isDrawing ∧ draft.shape.isValid ∧
    (∃ drawer, engine.session.activeDrawer? = some drawer ∧
      (drawer.IsBuiltIn → draft.shape.kind = drawer.info.kind)) ∧
    (engine.take moment input).1 =
      { engine with
        session := { engine.session with state := .committed, preview := none }
        store := (engine.store.insert moment engine.asset draft).1 } := by
  rcases engine.take_cases moment input with heq | ⟨mode, _, heq⟩
  · rw [heq] at hdraft ⊢
    obtain ⟨event, drawer, outcome, hdrawing, hdrawer, houtcome, hshape, hvalid, htaken⟩ :=
      (Session.step_take engine.session engine.elements input).of_elementCommitted hdraft
    refine ⟨hdrawing, hvalid, ⟨drawer, hdrawer, ?_⟩, ?_⟩
    · intro hbuiltIn
      rcases houtcome with rfl | rfl
      · exact hbuiltIn.kind_of_finish hshape
      · exact hbuiltIn.kind_of_complete hshape
    · rw [htaken, performAll_elementCommitted]
  · simp [heq] at hdraft

theorem ids_sublist_of_no_commit {engine : Engine α} {moment : Moment} {input : Input α}
    (hnone : ∀ draft, .elementCommitted draft ∉ (engine.take moment input).2) (asset : String) :
    (((engine.take moment input).1.store.elements asset).map (·.id)).Sublist
      ((engine.store.elements asset).map (·.id)) := by
  rcases engine.take_cases moment input with heq | ⟨mode, _, heq⟩
  · rw [heq] at hnone ⊢
    rcases engine.performAll_cases moment
      (Session.reaction_take engine.session engine.elements input) with ⟨_, hengine⟩ |
      ⟨editor, _, _, _, _, _, _, hengine⟩ | ⟨id, _, _, _, hengine⟩ | ⟨draft, _, _, hactions, _⟩
    · simp only [hengine, List.Sublist.refl]
    · simp only [hengine, Store.ids_updateShape, List.Sublist.refl]
    · rw [hengine]
      exact (engine.store.elements_remove_sublist engine.asset id asset).map _
    · exact absurd (hactions ▸ List.mem_cons_self) (hnone draft)
  · simp only [heq, List.Sublist.refl]

end

/-- In a run with built-in drawers every event leaves one draft at most. If it leaves one, a gesture
was open, the draft is valid and of the kind of the active drawer, it becomes the last element of
the current asset and the gesture is over; before the next draft there is a press on the media in a
drawing mode. An event without a draft adds no element. -/
theorem one_element_per_gesture [WrittenScalar α] (settings : Settings α) (calls : List (Call α))
    (hcalls : ∀ registry, .changeRegistry registry ∈ calls → registry.AllBuiltIn) :
    let engine := (ofSettings settings).run calls
    ∀ moment input,
      let actions := (engine.take moment input).2
      let result := engine.after (.input moment input)
      (drafts actions).length ≤ 1 ∧
      (∀ draft, .elementCommitted draft ∈ actions →
        engine.session.state.isDrawing ∧ draft.shape.isValid ∧
        (∃ drawer, engine.session.activeDrawer? = some drawer ∧
          draft.shape.kind = drawer.info.kind) ∧
        (∃ element : Element α, element.shape = draft.shape ∧
          result.elements = engine.elements ++ [element]) ∧
        (∀ asset, asset ≠ engine.asset →
          result.store.elements asset = engine.store.elements asset) ∧
        result.asset = engine.asset ∧
        result.session.state = .committed ∧ result.session.preview = none ∧
        ∀ middle moment' input' draft',
          .elementCommitted draft' ∈ ((result.run middle).take moment' input').2 →
            ∃ earlier moment'' event later id,
              middle = earlier ++ .input moment'' (.down event) :: later ∧ event.within ∧
                (result.run earlier).session.mode = .draw id) ∧
      ((∀ draft, .elementCommitted draft ∉ actions) → ∀ asset,
        ((result.store.elements asset).map (·.id)).Sublist
          ((engine.store.elements asset).map (·.id))) := by
  intro engine moment input actions result
  have hbuiltIn : engine.session.registry.AllBuiltIn :=
    allBuiltIn_run (Registry.allBuiltIn_builtIn settings) hcalls
  refine ⟨engine.length_drafts_take_le moment input, ?_, ids_sublist_of_no_commit⟩
  intro draft hdraft
  obtain ⟨hdrawing, hvalid, ⟨drawer, hdrawer, hkind⟩, htake⟩ := take_of_commit hdraft
  have hresult : result = _ := htake
  have hdrawerBuiltIn : drawer.IsBuiltIn := by
    obtain ⟨id, _, hget⟩ := Session.activeDrawer?_eq_some_iff.mp hdrawer
    exact hbuiltIn.get? hget
  refine ⟨hdrawing, hvalid, ⟨drawer, hdrawer, hkind hdrawerBuiltIn⟩, ?_, ?_, ?_, ?_, ?_, ?_⟩
  · refine ⟨(engine.store.insert moment engine.asset draft).2, rfl, ?_⟩
    rw [hresult]
    exact (Store.elements_insert _ _ _ _ _).trans (if_pos rfl)
  · intro asset hasset
    rw [hresult]
    exact (Store.elements_insert _ _ _ _ _).trans (if_neg hasset)
  · rw [hresult]
  · rw [hresult]
  · rw [hresult]
  · intro middle moment' input' draft' hdraft'
    have hclosed : result.session.state.isDrawing = false := by
      rw [hresult]
      rfl
    exact exists_press hclosed (take_of_commit hdraft').1

/-- The double click behind two clicks leaves the only element. -/
theorem doubleClick_leaves_polygon :
    let moment : Moment := ⟨ElementId.nil, 0⟩
    let a : Point Float := ⟨0.25, 0.25⟩
    let b : Point Float := ⟨0.75, 0.25⟩
    let calls : List (Call Float) :=
      [.setMode (.draw "polygon"), .input moment (.down (.ofPosition a {})),
        .input moment (.down (.ofPosition b {}))]
    let engine := (ofSettings Settings.default).run calls
    let result := engine.after (.input moment (.doubleClick (.ofPosition b {})))
    (∀ registry, .changeRegistry registry ∈ calls → registry.AllBuiltIn) ∧
    engine.session.state.isDrawing ∧
    (∃ element : Element Float, element.shape = .polygon ⟨[a, b], false⟩ ∧
      result.elements = engine.elements ++ [element]) ∧
    result.session.state = .committed := by
  intro moment a b calls engine result
  have hcalls : ∀ registry, .changeRegistry registry ∈ calls → registry.AllBuiltIn := by
    simp [calls]
  let draft : Draft Float := ⟨.polygon ⟨[a, b], false⟩, none, none⟩
  have hactions : (engine.take moment (.doubleClick (.ofPosition b {}))).2 =
      [.elementCommitted draft, .previewChanged none, .renderNeeded] := by
    decide +kernel
  have hdraft : .elementCommitted draft ∈
      (engine.take moment (.doubleClick (.ofPosition b {}))).2 := by
    rw [hactions]
    exact List.mem_cons_self
  obtain ⟨_, hcommit, _⟩ := one_element_per_gesture Settings.default calls hcalls moment
    (.doubleClick (.ofPosition b {}))
  obtain ⟨hdrawing, _, _, helement, _, _, hstate, _⟩ := hcommit _ hdraft
  exact ⟨hcalls, hdrawing, helement, hstate⟩

end Engine

end RegionDrawing
