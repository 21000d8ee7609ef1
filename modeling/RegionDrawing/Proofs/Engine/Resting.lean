import RegionDrawing.Binary64.Scalar
import RegionDrawing.Engine.Scene
import RegionDrawing.Proofs.Engine.Events
import RegionDrawing.Proofs.Session.Resting

/-! # Engines at rest

Whether the last gesture of an engine was cancelled or committed, or there was none, makes no
difference to what follows: the same calls get the same answers and the same scenes are shown.
-/
namespace RegionDrawing.Engine

variable {α : Type}

/-- Whether two engines are the same, but for the state that each session may rest in. -/
inductive AlikeAtRest : Engine α → Engine α → Prop where
  | intro (engine : Engine α) {session : Session α} (h : engine.session.AlikeAtRest session) :
      AlikeAtRest engine { engine with session }

namespace AlikeAtRest

theorem same (engine : Engine α) : engine.AlikeAtRest engine := .intro engine (.same engine.session)

variable {engine other : Engine α} (h : engine.AlikeAtRest other)

include h

theorem sessions : engine.session.AlikeAtRest other.session := by
  obtain ⟨h⟩ := h
  exact h

theorem eq_with_session : other = { engine with session := other.session } := by
  obtain ⟨_⟩ := h
  rfl

theorem with_session {session session' : Session α} (hsession : session.AlikeAtRest session') :
    { engine with session }.AlikeAtRest { other with session := session' } := by
  rw [h.eq_with_session]
  exact .intro { engine with session } hsession

theorem elements_eq : engine.elements = other.elements := by
  rw [h.eq_with_session]
  rfl

theorem perform (moment : Moment) (action : Action α) :
    (engine.perform moment action).AlikeAtRest (other.perform moment action) := by
  obtain ⟨h⟩ := h
  cases action with
  | elementCommitted | elementUpdated => exact .intro { engine with store := _ } h
  | elementRemoved id => exact .intro { engine with store := _, session := _ } (h.forget id)
  | _ => exact .intro engine h

theorem performAll (moment : Moment) {taken taken' : Session α × List (Action α)}
    (htaken : Session.TakenAlike taken taken') :
    (engine.performAll moment taken).1.AlikeAtRest (other.performAll moment taken').1 := by
  obtain ⟨session, actions⟩ := taken
  obtain ⟨session', _⟩ := taken'
  obtain ⟨hsession, rfl⟩ := htaken
  have halike := h.with_session hsession
  clear hsession
  simp only [Engine.performAll]
  generalize { engine with session } = e at halike ⊢
  generalize { other with session := session' } = f at halike ⊢
  induction actions generalizing e f with
  | nil => exact halike
  | cons action actions ih => exact ih _ _ (halike.perform moment action)

theorem chooses_iff {key : Key} {drawer : Drawer α} :
    engine.session.Chooses key drawer ↔ other.session.Chooses key drawer := by
  simp only [Session.Chooses, h.sessions.isDrawing_eq]
  rw [h.sessions.eq_with_state]
  rfl

theorem setMode (mode : Mode) :
    (engine.setMode mode).1.AlikeAtRest (other.setMode mode).1 ∧
      (engine.setMode mode).2 = (other.setMode mode).2 := by
  obtain ⟨h⟩ := h
  obtain ⟨hsession, hentered⟩ := h.setMode mode
  exact ⟨.intro { engine with session := _ } hsession, hentered⟩

theorem take [Scalar α] (moment : Moment) (input : Input α) :
    (engine.take moment input).1.AlikeAtRest (other.take moment input).1 ∧
      (engine.take moment input).2 = (other.take moment input).2 := by
  by_cases hkey : ∃ key drawer, input = .key key ∧ engine.session.Chooses key drawer
  · obtain ⟨key, drawer, rfl, hchooses⟩ := hkey
    rw [take_of_chooses hchooses, take_of_chooses (h.chooses_iff.mp hchooses)]
    have hmode := (h.sessions.setMode (.draw drawer.info.id)).1
    refine ⟨?_, ?_⟩
    · exact h.with_session hmode
    · rw [hmode.eq_with_state]
      rfl
  · have hnot : ∀ key drawer, input = .key key → ¬ engine.session.Chooses key drawer :=
      fun key drawer hinput hchooses => hkey ⟨key, drawer, hinput, hchooses⟩
    have hother : ∀ key drawer, input = .key key → ¬ other.session.Chooses key drawer :=
      fun key drawer hinput hchooses => hnot key drawer hinput (h.chooses_iff.mpr hchooses)
    have htaken := h.sessions.take engine.elements input
    rw [take_of_not_chooses hnot, take_of_not_chooses hother, ← h.elements_eq]
    exact ⟨h.performAll moment htaken, htaken.actions⟩

variable [WrittenScalar α]

theorem respond (call : Call α) :
    (engine.after call).AlikeAtRest (other.after call) ∧ engine.reply call = other.reply call := by
  cases call with
  | input moment input =>
    obtain ⟨halike, hactions⟩ := h.take moment input
    exact ⟨halike, congrArg Reply.actions hactions⟩
  | setAsset name =>
    obtain ⟨h⟩ := h
    simp only [Engine.after, Engine.setAsset]
    split
    · exact ⟨.intro engine h, rfl⟩
    · rw [h.reset]
      exact ⟨.same _, rfl⟩
  | setFrame | setZoom =>
    obtain ⟨h⟩ := h
    exact ⟨.intro _ h, rfl⟩
  | setMode mode =>
    obtain ⟨halike, hentered⟩ := h.setMode mode
    exact ⟨halike, congrArg Reply.accepted hentered⟩
  | transform moment id t =>
    have hedited : engine.edited? id t = other.edited? id t := by
      rw [h.eq_with_session, h.sessions.eq_with_state]
      rfl
    obtain ⟨h⟩ := h
    simp only [Engine.after, Engine.reply, transform_eq, hedited]
    split
    · exact ⟨.intro _ h, rfl⟩
    · exact ⟨.intro { engine with store := _ } h, rfl⟩
  | patch moment id patch =>
    obtain ⟨h⟩ := h
    exact ⟨.intro { engine with store := _ } h, rfl⟩
  | remove id =>
    obtain ⟨h⟩ := h
    exact ⟨.intro { engine with store := _, session := _ } (h.forget id), rfl⟩
  | importText text =>
    obtain ⟨h⟩ := h
    simp only [Engine.after, Engine.reply]
    cases hread : (Store.readElements text : Except ElementError (List (Element α))) with
    | error fault =>
      simp only [importText_of_fault _ hread]
      exact ⟨.intro _ h, trivial⟩
    | ok elements =>
      simp only [importText_of_read _ hread, withElements, h.reset]
      exact ⟨.same _, trivial⟩
  | clear =>
    obtain ⟨h⟩ := h
    simp only [Engine.after, Engine.reply, Engine.clear, h.reset]
    exact ⟨.same _, trivial⟩
  | changeRegistry registry =>
    exact ⟨h.with_session (h.sessions.changeRegistry registry), rfl⟩

/-- Engines that are alike give the same answers to all calls and are alike behind them. -/
theorem run (calls : List (Call α)) :
    (engine.run calls).AlikeAtRest (other.run calls) ∧
      engine.replies calls = other.replies calls := by
  induction calls generalizing engine other with
  | nil => exact ⟨h, rfl⟩
  | cons call calls ih =>
    obtain ⟨halike, hreply⟩ := h.respond call
    obtain ⟨hrun, hreplies⟩ := ih halike
    refine ⟨hrun, ?_⟩
    rw [replies, replies, hreply, hreplies]

theorem render_eq (refuses : Nat → Bool) : engine.render refuses = other.render refuses := by
  have hscene : engine.scene = other.scene := by
    unfold scene paintEditor
    rw [h.sessions.editor?_eq, h.eq_with_session, h.sessions.eq_with_state]
    rfl
  rw [render, render, hscene]

end AlikeAtRest

/-- Engines that differ in which of the three states they rest in give the same answers to all
calls. Behind each of the calls they show the same scene and are equal again, but for the states
that both of them may rest in. -/
theorem resting_engines_alike [WrittenScalar α] {engine : Engine α} {state : GestureState α}
    (hengine : engine.session.state.isResting) (hstate : state.isResting)
    (calls : List (Call α)) :
    let other := { engine with session := { engine.session with state } }
    engine.replies calls = other.replies calls ∧
      ∀ steps, steps <+: calls →
        (engine.run steps).AlikeAtRest (other.run steps) ∧
        ∀ refuses, (engine.run steps).render refuses = (other.run steps).render refuses := by
  intro other
  have halike : engine.AlikeAtRest other := .intro engine (.resting engine.session hengine hstate)
  refine ⟨(halike.run calls).2, fun steps _ => ?_⟩
  have hsteps := (halike.run steps).1
  exact ⟨hsteps, hsteps.render_eq⟩

/-- A drag behind a committed gesture leaves a rectangle. It does so behind a cancelled one. -/
theorem resting_engines_drag :
    let engine : Engine Float :=
      let engine := Engine.ofSettings Settings.default
      { engine with session := { engine.session with mode := .draw "rect", state := .committed } }
    let other := { engine with session := { engine.session with state := .cancelled } }
    let calls : List (Call Float) :=
      [.input ⟨.nil, 2⟩ (.down { position := ⟨0.25, 0.25⟩, within := true }),
        .input ⟨.nil, 3⟩ (.up { position := ⟨0.75, 0.5⟩, within := true })]
    (engine.session.state.isResting ∧ (GestureState.cancelled : GestureState Float).isResting) ∧
      engine.replies calls = other.replies calls ∧
      (other.run calls).elements.map (·.kind) = [.rect] := by
  intro engine other calls
  have hengine : engine.session.state.isResting := rfl
  have hstate : (GestureState.cancelled : GestureState Float).isResting := rfl
  obtain ⟨hreplies, hsteps⟩ := resting_engines_alike hengine hstate calls
  have halike := (hsteps calls List.prefix_rfl).1
  refine ⟨⟨hengine, hstate⟩, hreplies, ?_⟩
  rw [← halike.elements_eq]
  decide +kernel

end RegionDrawing.Engine
