import RegionDrawing.Proofs.Engine.Events
import RegionDrawing.Proofs.Session.Calls
import RegionDrawing.Proofs.Session.Step

/-! # What the parts of a session have to do with each other

Mode, gesture, preview and hover are kept apart and changed by many calls. Whatever drawers there
are and whatever becomes of them, drawing gestures stay within drawing modes, vertex editing and
hover within select mode, and a preview goes with a drawing gesture.
-/
namespace RegionDrawing

variable {α : Type}

/-- Whether an action may come out of a mode: drafts come out of drawing modes, changes of stored
elements out of select mode. -/
def Action.SuitsMode (action : Action α) (mode : Mode) : Prop :=
  match action with
  | .elementCommitted _ => ∃ id, mode = .draw id
  | .elementUpdated _ _ | .elementRemoved _ => mode = .select
  | _ => True

theorem Action.suitsMode_of_forDisplay {action : Action α} (h : action.forDisplay) (mode : Mode) :
    action.SuitsMode mode := by
  cases action with
  | elementCommitted | elementUpdated | elementRemoved => cases h
  | _ => trivial

namespace Session

/-- Mode, gesture, preview and hover fit together. -/
structure Coherent (session : Session α) : Prop where
  drawing : session.state.isDrawing → ∃ id, session.mode = .draw id
  editing : session.state.editor?.isSome → session.mode = .select
  preview : session.preview.isSome → session.state.isDrawing
  hovered : session.hovered.isSome → session.mode = .select

namespace Coherent

variable {session : Session α}

/-- A gesture is over: its preview is gone, and no vertices are edited. -/
theorem close {state : GestureState α} (h : session.Coherent) (hstate : state.isResting)
    (cancelReports : Nat) : { session with state, preview := none, cancelReports }.Coherent := by
  obtain ⟨hdrawing, hediting⟩ := GestureState.isResting_iff.mp hstate
  refine ⟨?_, ?_, nofun, h.hovered⟩
  · intro hd
    rw [hdrawing] at hd
    cases hd
  · intro he
    rw [hediting] at he
    cases he

theorem preview_eq_none (h : session.Coherent) (hstate : session.state.isDrawing = false) :
    session.preview = none := by
  cases hpreview : session.preview with
  | none => rfl
  | some preview =>
    have hdrawing := h.preview (by rw [hpreview]; rfl)
    rw [hstate] at hdrawing
    cases hdrawing

theorem editor?_eq_none {id : String} (h : session.Coherent) (hmode : session.mode = .draw id) :
    session.state.editor? = none := by
  rw [Option.eq_none_iff_forall_ne_some]
  intro editor heditor
  have hselect := h.editing (by rw [heditor]; rfl)
  rw [hmode] at hselect
  cases hselect

theorem setMode (h : session.Coherent) (mode : Mode) : (session.setMode mode).1.Coherent := by
  unfold Session.setMode
  split
  · refine ⟨nofun, nofun, nofun, ?_⟩
    intro hhovered
    dsimp only at hhovered ⊢
    split at hhovered
    · assumption
    · cases hhovered
  · exact h

theorem selectByShortcut (h : session.Coherent) (key : Char) :
    (session.selectByShortcut key).1.Coherent := by
  rcases session.selectByShortcut_cases key with heq | ⟨mode, heq⟩
  · rw [heq]
    exact h
  · rw [heq]
    exact h.setMode mode

theorem forget (h : session.Coherent) (id : ElementId) : (session.forget id).Coherent := by
  have hhovered : (session.forget id).hovered.isSome → session.mode = .select := by
    intro hsome
    simp only [Session.forget] at hsome
    split at hsome
    · cases hsome
    · exact h.hovered hsome
  by_cases hediting : session.state.editor?.any (fun editor => editor.id = id)
  · have hstate : (session.forget id).state = .idle := if_pos hediting
    have hpreview : session.preview = none := by
      apply h.preview_eq_none
      cases hs : session.state with
      | dragging | collecting =>
        rw [hs] at hediting
        cases hediting
      | _ => rfl
    refine ⟨?_, ?_, ?_, hhovered⟩
    · rw [hstate]
      intro hdrawing
      cases hdrawing
    · rw [hstate]
      intro hediting
      cases hediting
    · intro hsome
      rw [show (session.forget id).preview = none from hpreview] at hsome
      cases hsome
  · have hstate : (session.forget id).state = session.state := if_neg hediting
    refine ⟨?_, ?_, ?_, hhovered⟩
    · rw [hstate]
      exact h.drawing
    · rw [hstate]
      exact h.editing
    · rw [hstate]
      exact h.preview

theorem edit {editor : VertexEditor α} (h : session.Coherent)
    (hstate : session.state = .editing editor) {state : GestureState α}
    (hdrawing : state.isDrawing = false) : { session with state }.Coherent := by
  have hpreview : session.preview = none := h.preview_eq_none (by rw [hstate]; rfl)
  refine ⟨?_, fun _ => h.editing (by rw [hstate]; rfl), ?_, h.hovered⟩
  · intro hd
    rw [hdrawing] at hd
    cases hd
  · intro hp
    rw [hpreview] at hp
    cases hp

variable [Scalar α] {elements : List (Element α)} {input : Input α}

theorem publish {state : GestureState α} (h : session.Coherent) (hstate : state.isDrawing)
    (hmode : ∃ id, session.mode = .draw id) (outcome : Outcome α) :
    ({ session with state }.publish outcome).1.Coherent := by
  rw [publish_fst]
  refine ⟨fun _ => hmode, ?_, fun _ => hstate, h.hovered⟩
  intro hediting
  rw [GestureState.editor?_of_isDrawing hstate] at hediting
  cases hediting

theorem step {taken : Session α × List (Action α)} (h : session.Coherent)
    (hstep : session.Step elements input taken) : taken.1.Coherent := by
  cases hstep with
  | ignored => exact h
  | pressed _ _ hmode _ _ => exact h.publish rfl ⟨_, hmode⟩ _
  | clicked _ _ hmode _ _ _ => exact h.publish rfl ⟨_, hmode⟩ _
  | moved hdrawing _ => exact h.publish hdrawing (h.drawing hdrawing) _
  | lifted hstate _ =>
    have hdrawing : session.state.isDrawing := by rw [hstate]; rfl
    exact h.publish hdrawing (h.drawing hdrawing) _
  | committed _ _ _ _ _ => exact h.close rfl _
  | discarded _ => exact h.close rfl _
  | cancelled _ => exact h.close rfl _
  | selected _ _ _ _ => exact ⟨h.drawing, h.editing, h.preview, h.hovered⟩
  | deselected _ _ => exact ⟨h.drawing, h.editing, h.preview, h.hovered⟩
  | hovered _ hmode _ _ => exact ⟨h.drawing, h.editing, h.preview, fun _ => hmode⟩
  | editBegun hresting hmode _ =>
    have hpreview := h.preview_eq_none (GestureState.isResting_iff.mp hresting).1
    refine ⟨nofun, fun _ => hmode, ?_, fun _ => hmode⟩
    intro hsome
    rw [show session.preview = none from hpreview] at hsome
    cases hsome
  | gripped hstate _ => exact h.edit hstate rfl
  | dragged hstate _ => exact h.edit hstate rfl
  | released hstate => exact h.edit hstate rfl
  | editEnded hstate => exact h.edit hstate rfl
  | deleted hmode _ _ => exact ⟨h.drawing, h.editing, h.preview, fun _ => hmode⟩

theorem suitsMode {taken : Session α × List (Action α)} (h : session.Coherent)
    (hstep : session.Step elements input taken) {action : Action α} (haction : action ∈ taken.2) :
    action.SuitsMode session.mode := by
  have hdisplay : ∀ {a : Action α}, a.forDisplay → a.SuitsMode session.mode :=
    fun ha => Action.suitsMode_of_forDisplay ha _
  rcases hstep.actions_cases with hactions | ⟨_, _, _, _, hdrawing, _, _, _, _, rfl⟩ |
    ⟨editor, shape, hstate, hactions⟩ | ⟨id, hmode, hactions⟩
  · exact hdisplay (hactions action haction)
  · simp only [List.mem_cons, List.not_mem_nil, or_false] at haction
    rcases haction with rfl | rfl | rfl
    · exact h.drawing hdrawing
    · trivial
    · trivial
  · rw [hactions] at haction
    simp only [List.mem_cons, List.not_mem_nil, or_false] at haction
    rcases haction with rfl | rfl
    · exact h.editing (by rw [hstate]; rfl)
    · trivial
  · rw [hactions] at haction
    simp only [List.mem_cons, List.not_mem_nil, or_false] at haction
    rcases haction with rfl | rfl | rfl
    · exact hmode
    · trivial
    · trivial

theorem after (h : session.Coherent) (call : SessionCall α) : (session.after call).Coherent := by
  cases call with
  | input elements input => exact h.step (step_take session elements input)
  | setMode mode => exact h.setMode mode
  | selectByShortcut key => exact h.selectByShortcut key
  | reset => exact ⟨nofun, nofun, nofun, nofun⟩
  | forget id => exact h.forget id
  | changeRegistry registry => exact ⟨h.drawing, h.editing, h.preview, h.hovered⟩

end Coherent

theorem coherent_run [Scalar α] (registry : Registry α) (settings : Settings α)
    (calls : List (SessionCall α)) :
    (({ registry, settings } : Session α).run calls).Coherent := by
  apply run_invariant (I := Coherent) (Q := fun _ => True)
  · intro session call h _
    exact h.after call
  · exact ⟨nofun, nofun, nofun, nofun⟩
  · exact fun _ _ => trivial

end Session

namespace Engine

theorem SessionAfter.coherent [Scalar α] {engine : Engine α} {call : Call α}
    {session : Session α} (hafter : engine.SessionAfter call session)
    (h : engine.session.Coherent) : session.Coherent := by
  have htaken (input : Input α) : (engine.session.take engine.elements input).1.Coherent :=
    h.step (Session.step_take engine.session engine.elements input)
  cases hafter with
  | kept => exact h
  | reset => exact ⟨nofun, nofun, nofun, nofun⟩
  | forgot id => exact h.forget id
  | entered mode => exact h.setMode mode
  | registryChanged _ => exact ⟨h.drawing, h.editing, h.preview, h.hovered⟩
  | took _ => exact htaken _
  | tookAndForgot _ id => exact (htaken _).forget id

theorem coherent_run [WrittenScalar α] (registry : Registry α) (settings : Settings α)
    (calls : List (Call α)) : ((ofRegistry registry settings).run calls).session.Coherent := by
  apply run_invariant (I := fun engine => engine.session.Coherent)
  · intro engine call h
    exact (engine.sessionAfter call).coherent h
  · exact ⟨nofun, nofun, nofun, nofun⟩

end Engine

end RegionDrawing
