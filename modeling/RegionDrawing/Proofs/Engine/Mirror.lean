import RegionDrawing.Binary64.Scalar
import RegionDrawing.Proofs.Session.Coherence

/-! # What a host knows from the actions

A host that shows a preview, a selection or a hover of its own sets it to what the actions announce.
It stays in step with the session as long as every event that changes the one announces the other.
Events do so for the preview and the selection. The hover also ends without a word: with the
element that is deleted, and when a key chooses a drawer.
-/
namespace RegionDrawing

variable {α β : Type}

/-- A part of a session that some actions announce anew. -/
structure Aspect (α β : Type) where
  shown : Session α → β
  announced : Action α → Option β

namespace Aspect

def preview : Aspect α (Option (Preview α)) where
  shown := Session.preview
  announced
    | .previewChanged preview => some preview
    | _ => none

def selection : Aspect α (Option ElementId) where
  shown := Session.selected
  announced
    | .selectionChanged id => some id
    | _ => none

def hover : Aspect α (Option ElementId) where
  shown := Session.hovered
  announced
    | .hoverChanged id => some id
    | _ => none

/-- The value of one who heeds every announcement, in the order of the actions. -/
def follow (aspect : Aspect α β) (value : β) (actions : List (Action α)) : β :=
  actions.foldl (fun value action => (aspect.announced action).getD value) value

/-- A step of a session is told: what its actions announce is shown behind it, and only what they
announce is new. -/
structure Told (aspect : Aspect α β) (session : Session α) (taken : Session α × List (Action α)) :
    Prop where
  announced : ∀ action ∈ taken.2, ∀ value, aspect.announced action = some value →
    aspect.shown taken.1 = value
  silent : (∀ action ∈ taken.2, aspect.announced action = none) →
    aspect.shown taken.1 = aspect.shown session

variable {aspect : Aspect α β} {session : Session α} {taken : Session α × List (Action α)}

/-- If all announcements agree, it is their value that counts, if there is any. -/
theorem follow_cases {actions : List (Action α)} {value : β}
    (h : ∀ action ∈ actions, ∀ other, aspect.announced action = some other → value = other)
    (before : β) :
    (aspect.follow before actions = before ∧
      ∀ action ∈ actions, aspect.announced action = none) ∨
    aspect.follow before actions = value := by
  unfold follow
  induction actions generalizing before with
  | nil => exact .inl ⟨rfl, nofun⟩
  | cons action rest ih =>
    obtain ⟨hfirst, hrest⟩ := List.forall_mem_cons.mp h
    rw [List.foldl_cons]
    cases hannounced : aspect.announced action with
    | none =>
      refine (ih hrest before).imp_left ?_
      rintro ⟨heq, hsilent⟩
      exact ⟨heq, List.forall_mem_cons.mpr ⟨hannounced, hsilent⟩⟩
    | some other =>
      obtain rfl := hfirst other hannounced
      exact .inr ((ih hrest value).elim And.left id)

namespace Told

/-- Who was in step before a step that is told is in step behind it. -/
theorem follow (h : aspect.Told session taken) :
    aspect.follow (aspect.shown session) taken.2 = aspect.shown taken.1 := by
  rcases follow_cases h.announced (aspect.shown session) with ⟨heq, hsilent⟩ | heq
  · rw [heq, h.silent hsilent]
  · exact heq

theorem of_silent (hactions : ∀ action ∈ taken.2, aspect.announced action = none)
    (hshown : aspect.shown taken.1 = aspect.shown session) : aspect.Told session taken := by
  refine ⟨?_, fun _ => hshown⟩
  intro action haction value hvalue
  rw [hactions action haction] at hvalue
  cases hvalue

end Told

end Aspect

namespace Session

variable {session : Session α}

theorem told_discard : Aspect.preview.Told session session.discard ∧
    Aspect.selection.Told session session.discard ∧ Aspect.hover.Told session session.discard := by
  unfold discard
  cases hpreview : session.preview <;> refine ⟨⟨?_, ?_⟩, ⟨?_, ?_⟩, ⟨?_, ?_⟩⟩ <;>
    simp [Aspect.preview, Aspect.selection, Aspect.hover, hpreview]

variable [Scalar α] {elements : List (Element α)} {input : Input α}
  {taken : Session α × List (Action α)}

theorem told_publish (state : GestureState α) (outcome : Outcome α) :
    let taken := { session with state }.publish outcome
    Aspect.preview.Told session taken ∧ Aspect.selection.Told session taken ∧
      Aspect.hover.Told session taken := by
  dsimp only
  unfold publish
  cases outcome.cursor <;> dsimp only <;> split <;> refine ⟨⟨?_, ?_⟩, ⟨?_, ?_⟩, ⟨?_, ?_⟩⟩ <;>
    simp [Aspect.preview, Aspect.selection, Aspect.hover]

theorem Step.preview_told (h : session.Step elements input taken) :
    Aspect.preview.Told session taken := by
  cases h with
  | pressed | clicked => exact (told_publish _ _).1
  | moved | lifted => exact (told_publish session.state _).1
  | discarded _ => exact told_discard.1
  | cancelled _ => constructor <;> simp [Aspect.preview, abandonGesture]
  | editBegun _ _ _ =>
    refine .of_silent ?_ rfl
    dsimp only
    split <;> simp [Aspect.preview]
  | _ => constructor <;> simp [Aspect.preview]

theorem Step.selection_told (h : session.Step elements input taken) :
    Aspect.selection.Told session taken := by
  cases h with
  | pressed | clicked => exact (told_publish _ _).2.1
  | moved | lifted => exact (told_publish session.state _).2.1
  | discarded _ => exact told_discard.2.1
  | cancelled _ => constructor <;> simp [Aspect.selection, abandonGesture]
  | editBegun _ _ _ => split <;> constructor <;> simp_all [Aspect.selection]
  | _ => constructor <;> simp [Aspect.selection]

theorem Step.hover_told (h : session.Step elements input taken)
    (hkept : ∀ id, .elementRemoved id ∈ taken.2 → session.hovered ≠ some id) :
    Aspect.hover.Told session taken := by
  cases h with
  | pressed | clicked => exact (told_publish _ _).2.2
  | moved | lifted => exact (told_publish session.state _).2.2
  | discarded _ => exact told_discard.2.2
  | cancelled _ => constructor <;> simp [Aspect.hover, abandonGesture]
  | editBegun _ _ _ =>
    refine .of_silent ?_ rfl
    dsimp only
    split <;> simp [Aspect.hover]
  | deleted _ _ _ =>
    have hother := hkept _ List.mem_cons_self
    constructor <;> simp [Aspect.hover, hother]
  | _ => constructor <;> simp [Aspect.hover]

def Deletes (session : Session α) (key : Key) (id : ElementId) : Prop :=
  key.isDelete ∧ session.mode = .select ∧ session.state.editor? = none ∧
    session.selected = some id

omit [Scalar α] in
theorem keyDown_of_deletes {key : Key} {id : ElementId} (h : session.Deletes key id) :
    session.keyDown key =
      ({ session with
          selected := none
          hovered := if session.hovered = some id then none else session.hovered },
        [.elementRemoved id, .selectionChanged none, .renderNeeded]) := by
  obtain ⟨hdelete, hmode, hediting, hselected⟩ := h
  have hescape : key.isEscape = false := by
    simp only [Key.isDelete, Bool.or_eq_true, beq_iff_eq] at hdelete
    rcases hdelete with h | h <;> simp [Key.isEscape, h]
  simp [keyDown, hescape, hdelete, hmode, hediting, deleteSelected, hselected]

theorem Step.key_of_elementRemoved {id : ElementId} (h : session.Step elements input taken)
    (hremoved : .elementRemoved id ∈ taken.2) : ∃ key, input = .key key := by
  cases h with
  | deleted _ _ _ => exact ⟨_, rfl⟩
  | pressed | clicked | moved | lifted => cases forDisplay_publish _ _ _ hremoved
  | discarded _ => cases forDisplay_discard session _ hremoved
  | editBegun _ _ _ =>
    dsimp only at hremoved
    split at hremoved <;> simp at hremoved
  | _ => simp at hremoved

omit [Scalar α] in
theorem forDisplay_escape (session : Session α) : ForDisplay session.escape.2 := by
  unfold escape endVertexEdit
  split
  all_goals try split
  all_goals simp [Action.forDisplay]

theorem deletes_of_elementRemoved {id : ElementId}
    (h : .elementRemoved id ∈ (session.take elements input).2) :
    ∃ key, input = .key key ∧ session.Deletes key id := by
  obtain ⟨key, rfl⟩ := (session.step_take elements input).key_of_elementRemoved h
  refine ⟨key, rfl, ?_⟩
  simp only [take, keyDown] at h
  split at h
  · cases session.forDisplay_escape _ h
  · split at h
    · next hdelete =>
      simp only [Bool.and_eq_true, decide_eq_true_eq, Option.isNone_iff_eq_none] at hdelete
      obtain ⟨⟨hdelete, hmode⟩, hediting⟩ := hdelete
      unfold deleteSelected at h
      split at h
      · next id' hselected =>
        obtain rfl : id = id' := by simpa using h
        exact ⟨hdelete, hmode, hediting, hselected⟩
      · cases h
    · cases h

end Session

namespace Engine

variable [Scalar α]

/-- Whether `Q` holds of every event of a list and the state in which it comes. -/
def EachInput (Q : Engine α → Moment → Input α → Prop) (engine : Engine α) :
    List (Moment × Input α) → Prop
  | [] => True
  | (moment, input) :: inputs =>
    Q engine moment input ∧ (engine.take moment input).1.EachInput Q inputs

/-- Whether one who has a value and follows the actions of a list of events has what the session
shows, before the first event and behind every one. -/
def InStep (aspect : Aspect α β) (value : β) (engine : Engine α) : List (Moment × Input α) → Prop
  | [] => value = aspect.shown engine.session
  | (moment, input) :: inputs =>
    value = aspect.shown engine.session ∧
      (engine.take moment input).1.InStep aspect
        (aspect.follow value (engine.take moment input).2) inputs

/-- Whether one who is in step before an event is in step behind it. -/
def Tells (aspect : Aspect α β) (engine : Engine α) (moment : Moment) (input : Input α) : Prop :=
  aspect.follow (aspect.shown engine.session) (engine.take moment input).2 =
    aspect.shown (engine.take moment input).1.session

variable {aspect : Aspect α β} {engine : Engine α}

theorem InStep.start {value : β} {inputs : List (Moment × Input α)}
    (h : engine.InStep aspect value inputs) : value = aspect.shown engine.session := by
  cases inputs with
  | nil => exact h
  | cons first rest => exact h.1

/-- Being in step throughout is being told of every event. -/
theorem inStep_iff_eachInput (inputs : List (Moment × Input α)) :
    engine.InStep aspect (aspect.shown engine.session) inputs ↔
      engine.EachInput (Tells aspect) inputs := by
  induction inputs generalizing engine with
  | nil => exact iff_of_true rfl trivial
  | cons first rest ih =>
    obtain ⟨moment, input⟩ := first
    constructor
    · intro h
      have htold : engine.Tells aspect moment input := h.2.start
      refine ⟨htold, ih.mp ?_⟩
      rw [← htold]
      exact h.2
    · rintro ⟨htold, hrest⟩
      refine ⟨rfl, ?_⟩
      rw [htold]
      exact ih.mpr hrest

theorem eachInput_of_invariant {I : Engine α → Prop} {Q : Engine α → Moment → Input α → Prop}
    (hkeep : ∀ engine moment input, I engine → I (engine.take moment input).1)
    (hevent : ∀ engine moment input, I engine → Q engine moment input) (h : I engine)
    (inputs : List (Moment × Input α)) : engine.EachInput Q inputs := by
  induction inputs generalizing engine with
  | nil => trivial
  | cons first rest ih => exact ⟨hevent _ _ _ h, ih (hkeep _ _ _ h)⟩

theorem eachInput_congr {P Q : Engine α → Moment → Input α → Prop}
    (h : ∀ engine moment input, P engine moment input ↔ Q engine moment input)
    (inputs : List (Moment × Input α)) : engine.EachInput P inputs ↔ engine.EachInput Q inputs := by
  induction inputs generalizing engine with
  | nil => exact Iff.rfl
  | cons first rest ih => exact and_congr (h _ _ _) ih

def report (engine : Engine α) (moment : Moment) (input : Input α) :
    Session α × List (Action α) :=
  ((engine.take moment input).1.session, (engine.take moment input).2)

theorem report_of_chooses {key : Key} {drawer : Drawer α} (h : engine.session.Chooses key drawer)
    (moment : Moment) :
    ∃ cursor, engine.report moment (.key key) =
      ({ engine.session.abandonGesture with
          hovered := none, state := .idle, mode := .draw drawer.info.id },
        [.setCursor cursor]) := by
  unfold report
  rw [take_of_chooses h, h.setMode]
  exact ⟨_, rfl⟩

theorem report_cases (engine : Engine α) (moment : Moment) (input : Input α) :
    (∃ key drawer, input = .key key ∧ engine.session.Chooses key drawer) ∨
      engine.report moment input = engine.session.take engine.elements input := by
  by_cases h : ∃ key drawer, input = .key key ∧ engine.session.Chooses key drawer
  · exact .inl h
  · have hchooses : ∀ key drawer, input = .key key → ¬ engine.session.Chooses key drawer := by
      intro key drawer hinput hchooses
      exact h ⟨key, drawer, hinput, hchooses⟩
    right
    unfold report
    rw [take_of_not_chooses hchooses, session_performAll_take]
    rfl

theorem preview_told_report (h : engine.session.Coherent) (moment : Moment) (input : Input α) :
    Aspect.preview.Told engine.session (engine.report moment input) := by
  rcases engine.report_cases moment input with ⟨key, drawer, rfl, hchooses⟩ | heq
  · obtain ⟨cursor, heq⟩ := report_of_chooses hchooses moment
    rw [heq]
    exact .of_silent (by simp [Aspect.preview]) (h.preview_eq_none hchooses.2.1).symm
  · rw [heq]
    exact (Session.step_take _ _ _).preview_told

theorem selection_told_report (engine : Engine α) (moment : Moment) (input : Input α) :
    Aspect.selection.Told engine.session (engine.report moment input) := by
  rcases engine.report_cases moment input with ⟨key, drawer, rfl, hchooses⟩ | heq
  · obtain ⟨cursor, heq⟩ := report_of_chooses hchooses moment
    rw [heq]
    exact .of_silent (by simp [Aspect.selection]) rfl
  · rw [heq]
    exact (Session.step_take _ _ _).selection_told

/-- Whether an event ends the hover without a word: a key deletes the element under the pointer, or
it chooses a drawer. -/
def HidesHover (engine : Engine α) (input : Input α) : Prop :=
  ∃ key id, input = .key key ∧ engine.session.hovered = some id ∧
    (engine.session.Deletes key id ∨ ∃ drawer, engine.session.Chooses key drawer)

/-- Who follows the hover is in step behind an event unless that ends the hover without a word. -/
theorem tells_hover_iff (engine : Engine α) (moment : Moment) (input : Input α) :
    engine.Tells .hover moment input ↔ ¬ engine.HidesHover input := by
  show Aspect.hover.follow _ (engine.report moment input).2 =
    Aspect.hover.shown (engine.report moment input).1 ↔ _
  rcases engine.report_cases moment input with ⟨key, drawer, rfl, hchooses⟩ | heq
  · obtain ⟨cursor, heq⟩ := report_of_chooses hchooses moment
    rw [heq]
    constructor
    · rintro hnone ⟨_, id, _, hhovered, _⟩
      cases hhovered.symm.trans hnone
    · intro hshown
      show engine.session.hovered = none
      rw [Option.eq_none_iff_forall_ne_some]
      intro id hid
      exact hshown ⟨key, id, rfl, hid, .inr ⟨drawer, hchooses⟩⟩
  · rw [heq]
    constructor
    · rintro htells ⟨key, id, rfl, hhovered, hdeletes | ⟨drawer, hchooses⟩⟩
      · simp [Session.take, Session.keyDown_of_deletes hdeletes, Aspect.hover, Aspect.follow,
          hhovered] at htells
      · obtain ⟨cursor, hchosen⟩ := report_of_chooses hchooses moment
        rw [← heq, hchosen] at htells
        cases hhovered.symm.trans htells
    · intro hshown
      apply Aspect.Told.follow
      apply (Session.step_take _ _ _).hover_told
      intro id hremoved hhovered
      obtain ⟨key, hinput, hdeletes⟩ := Session.deletes_of_elementRemoved hremoved
      exact hshown ⟨key, id, hinput, hhovered, .inl hdeletes⟩

/-- In every state that an engine reaches, a host that has the preview and the selection and follows
the actions of any events keeps having them, and what an event announces of them is what they are
behind it. -/
theorem preview_selection_inStep {α : Type} [WrittenScalar α] (registry : Registry α)
    (settings : Settings α) (calls : List (Call α)) (inputs : List (Moment × Input α)) :
    let engine := (ofRegistry registry settings).run calls
    engine.InStep .preview engine.session.preview inputs ∧
    engine.InStep .selection engine.session.selected inputs ∧
    ∀ moment input,
      (∀ preview, .previewChanged preview ∈ (engine.take moment input).2 →
        (engine.take moment input).1.session.preview = preview) ∧
      ∀ id, .selectionChanged id ∈ (engine.take moment input).2 →
        (engine.take moment input).1.session.selected = id := by
  intro engine
  have hcoherent : engine.session.Coherent := coherent_run registry settings calls
  refine ⟨?_, ?_, ?_⟩
  · refine (inStep_iff_eachInput inputs).mpr ?_
    apply eachInput_of_invariant (I := fun engine => engine.session.Coherent) _ _ hcoherent
    · intro engine moment input h
      exact (engine.sessionAfter_take moment input).coherent h
    · intro engine moment input h
      exact (preview_told_report h moment input).follow
  · refine (inStep_iff_eachInput inputs).mpr ?_
    apply eachInput_of_invariant (I := fun _ => True) (fun _ _ _ h => h) _ trivial
    intro engine moment input _
    exact (engine.selection_told_report moment input).follow
  · intro moment input
    constructor
    · intro preview hpreview
      exact (preview_told_report hcoherent moment input).announced _ hpreview preview rfl
    · intro id hid
      exact (engine.selection_told_report moment input).announced _ hid id rfl

/-- The first click announces the preview that the session has behind it. -/
theorem click_announces_preview :
    let moment : Moment := ⟨ElementId.nil, 0⟩
    let event : PointerEvent Float := .ofPosition ⟨0.25, 0.25⟩ {}
    let preview : Preview Float := ⟨.polygon ⟨[⟨0.25, 0.25⟩], false⟩, some ⟨0.25, 0.25⟩⟩
    let engine := (ofSettings Settings.default).run [.setMode (.draw "polygon")]
    .previewChanged (some preview) ∈ (engine.take moment (.down event)).2 ∧
      (engine.take moment (.down event)).1.session.preview = some preview := by
  intro moment event preview engine
  have hactions : (engine.take moment (.down event)).2 =
      [.setCursor "crosshair", .previewChanged (some preview), .renderNeeded] := by
    decide +kernel
  have hannounced : .previewChanged (some preview) ∈ (engine.take moment (.down event)).2 := by
    rw [hactions]
    exact List.mem_cons_of_mem _ List.mem_cons_self
  obtain ⟨_, _, htells⟩ := preview_selection_inStep
    (Registry.builtIn (Settings.default : Settings Float)) Settings.default
    [.setMode (.draw "polygon")] []
  exact ⟨hannounced, (htells moment (.down event)).1 _ hannounced⟩

/-- A host that has the hover and follows the actions of events keeps having it exactly as long as
no key deletes the element under the pointer or chooses a drawer over an element. -/
theorem hover_inStep_iff (engine : Engine α) (inputs : List (Moment × Input α)) :
    engine.InStep .hover engine.session.hovered inputs ↔
      engine.EachInput (fun engine _ input => ¬ engine.HidesHover input) inputs :=
  (inStep_iff_eachInput inputs).trans (eachInput_congr tells_hover_iff inputs)

/-- A rectangle, over which the pointer comes to rest in select mode. -/
def hoverRectangle : List (Call Float) :=
  let moment : Moment := ⟨ElementId.nil, 0⟩
  [.setMode (.draw "rect"), .input moment (.down (.ofPosition ⟨0.25, 0.25⟩ {})),
    .input moment (.up (.ofPosition ⟨0.75, 0.75⟩ {})), .setMode .select,
    .input moment (.move (.ofPosition ⟨0.5, 0.5⟩ {}))]

/-- The hover ends without a word when a key chooses a drawer, and when a key deletes the selected
element under the pointer: the host keeps the element that is gone. -/
theorem hover_lost_on_keys :
    let moment : Moment := ⟨ElementId.nil, 0⟩
    let press : Call Float := .input moment (.down (.ofPosition ⟨0.5, 0.5⟩ {}))
    let hovering := (ofSettings Settings.default).run hoverRectangle
    let selected := hovering.after press
    (hovering.session.hovered = some ElementId.nil ∧
      (hovering.take moment (.key ⟨"b"⟩)).2 = [.setCursor "crosshair"] ∧
      (hovering.take moment (.key ⟨"b"⟩)).1.session.hovered = none ∧
      ¬ hovering.InStep .hover hovering.session.hovered [(moment, .key ⟨"b"⟩)]) ∧
    (selected.session.hovered = some ElementId.nil ∧
      (selected.take moment (.key ⟨"Delete"⟩)).2 =
        [.elementRemoved ElementId.nil, .selectionChanged none, .renderNeeded] ∧
      (selected.take moment (.key ⟨"Delete"⟩)).1.session.hovered = none ∧
      ¬ selected.InStep .hover selected.session.hovered [(moment, .key ⟨"Delete"⟩)]) := by
  intro moment press hovering selected
  have hover : hovering.session.hovered = some ElementId.nil := by decide +kernel
  have hchosen : (hovering.take moment (.key ⟨"b"⟩)).2 = [.setCursor "crosshair"] := by
    decide +kernel
  have hafter : (hovering.take moment (.key ⟨"b"⟩)).1.session.hovered = none := by decide +kernel
  have hselected : selected.session.hovered = some ElementId.nil := by decide +kernel
  have hdeleted : (selected.take moment (.key ⟨"Delete"⟩)).2 =
      [.elementRemoved ElementId.nil, .selectionChanged none, .renderNeeded] := by
    decide +kernel
  have hgone : (selected.take moment (.key ⟨"Delete"⟩)).1.session.hovered = none := by
    decide +kernel
  clear_value selected hovering
  refine ⟨⟨hover, hchosen, hafter, ?_⟩, ⟨hselected, hdeleted, hgone, ?_⟩⟩
  · rintro ⟨_, hbehind⟩
    rw [hchosen, hover] at hbehind
    cases hbehind.trans hafter
  · rintro ⟨_, hbehind⟩
    rw [hdeleted, hselected] at hbehind
    cases hbehind.trans hgone

end Engine

end RegionDrawing
