import RegionDrawing.Proofs.Engine.Mirror
import RegionDrawing.Proofs.Engine.VertexEdit

/-! # What the actions tell of vertex editing

The actions announce when the vertices of an element begin to be edited and when that is over. A
host that reads them in order sees one edit after the other open and close, and the one that is open
is the session's. Only a key that chooses a drawer ends an edit without a word.
-/
namespace RegionDrawing

variable {α : Type}

/-- The edit that is open behind an action, if edits are announced in turn: one begins only while
none is open, and only the one that is open ends. -/
def Action.editBehind? : Action α → Option ElementId → Option (Option ElementId)
  | .vertexEditStarted id, none => some (some id)
  | .vertexEditEnded id, some openEdit => if id = openEdit then some none else none
  | .vertexEditStarted _, some _ | .vertexEditEnded _, none => none
  | _, openEdit => some openEdit

/-- The edit that is open behind a list of actions, if they announce edits in turn. -/
def openEdit? (before : Option ElementId) (actions : List (Action α)) :
    Option (Option ElementId) :=
  actions.foldlM (fun openEdit action => action.editBehind? openEdit) before

theorem openEdit?_append (before : Option ElementId) (actions further : List (Action α)) :
    openEdit? before (actions ++ further) =
      (openEdit? before actions).bind fun openEdit => openEdit? openEdit further :=
  List.foldlM_append

def Action.marksEdit : Action α → Bool
  | .vertexEditStarted _ | .vertexEditEnded _ => true
  | _ => false

theorem Action.editBehind?_eq_some {action : Action α} (h : action.marksEdit = false)
    (openEdit : Option ElementId) : action.editBehind? openEdit = some openEdit := by
  cases action with
  | vertexEditStarted | vertexEditEnded => cases h
  | _ => rfl

theorem openEdit?_eq_some {actions : List (Action α)}
    (h : ∀ action ∈ actions, action.marksEdit = false) (openEdit : Option ElementId) :
    openEdit? openEdit actions = some openEdit := by
  induction actions with
  | nil => rfl
  | cons action rest ih =>
    obtain ⟨hfirst, hrest⟩ := List.forall_mem_cons.mp h
    unfold openEdit?
    rw [List.foldlM_cons, Action.editBehind?_eq_some hfirst]
    exact ih hrest

namespace Session

theorem marksEdit_discard (session : Session α) :
    ∀ action ∈ session.discard.2, action.marksEdit = false := by
  unfold discard
  dsimp only
  split <;> simp [Action.marksEdit]

variable [Scalar α]

theorem marksEdit_publish (session : Session α) (outcome : Outcome α) :
    ∀ action ∈ (session.publish outcome).2, action.marksEdit = false := by
  unfold publish
  cases outcome.cursor <;> dsimp only <;> split <;> simp [Action.marksEdit]

theorem edited?_publish (session : Session α) (outcome : Outcome α) :
    (session.publish outcome).1.edited? = session.edited? := by
  rw [publish_fst]
  rfl

variable {session : Session α} {elements : List (Element α)} {input : Input α}

theorem Step.openEdit? {taken : Session α × List (Action α)}
    (h : session.Step elements input taken) :
    openEdit? session.edited? taken.2 = some taken.1.edited? := by
  have hsilent : (∀ action ∈ taken.2, action.marksEdit = false) →
      taken.1.edited? = session.edited? →
        RegionDrawing.openEdit? session.edited? taken.2 = some taken.1.edited? := by
    intro hactions hedited
    rw [openEdit?_eq_some hactions, hedited]
  cases h with
  | pressed _ hediting _ _ _ | clicked _ hediting _ _ _ _ =>
    refine hsilent (marksEdit_publish _ _) ?_
    rw [edited?_publish, edited?_eq_none hediting]
    rfl
  | moved _ _ | lifted _ _ => exact hsilent (marksEdit_publish _ _) (edited?_publish _ _)
  | discarded hdrawing =>
    refine hsilent (marksEdit_discard session) ?_
    rw [edited?_eq_none (GestureState.editor?_of_isDrawing hdrawing)]
    rfl
  | committed hdrawing _ _ _ _ | cancelled hdrawing =>
    refine hsilent (by simp [Action.marksEdit]) ?_
    rw [edited?_eq_none (GestureState.editor?_of_isDrawing hdrawing)]
    rfl
  | editBegun hresting _ _ =>
    rw [edited?_eq_none (GestureState.isResting_iff.mp hresting).2]
    dsimp only
    split <;> rfl
  | editEnded hstate =>
    rw [edited?_eq_some hstate]
    simp [RegionDrawing.openEdit?, Action.editBehind?, edited?, GestureState.editor?]
  | gripped hstate _ | dragged hstate _ | released hstate =>
    refine hsilent (by simp [Action.marksEdit]) ?_
    rw [edited?_eq_some hstate]
    rfl
  | ignored | selected | deselected | hovered | deleted =>
    exact hsilent (by simp [Action.marksEdit]) rfl

end Session

namespace Engine

variable [Scalar α] {engine : Engine α}

/-- Whether an event ends a vertex edit without a word: a key chooses a drawer. -/
def DropsEdit (engine : Engine α) (input : Input α) : Prop :=
  ∃ key drawer, input = .key key ∧ engine.session.Chooses key drawer ∧
    engine.session.edited?.isSome

/-- Whether an event announces the edit that it begins or ends. -/
def TellsEdit (engine : Engine α) (moment : Moment) (input : Input α) : Prop :=
  openEdit? engine.session.edited? (engine.take moment input).2 =
    some (engine.take moment input).1.session.edited?

theorem tellsEdit_iff (engine : Engine α) (moment : Moment) (input : Input α) :
    engine.TellsEdit moment input ↔ ¬ engine.DropsEdit input := by
  show openEdit? _ (engine.report moment input).2 = some (engine.report moment input).1.edited? ↔ _
  rcases engine.report_cases moment input with ⟨key, drawer, rfl, hchooses⟩ | heq
  · obtain ⟨cursor, heq⟩ := report_of_chooses hchooses moment
    rw [heq, openEdit?_eq_some (by simp [Action.marksEdit])]
    constructor
    · rintro hnone ⟨_, _, _, _, hedited⟩
      rw [Option.some.inj hnone] at hedited
      cases hedited
    · intro hkept
      have hnone : engine.session.edited? = none := by
        rw [← Option.not_isSome_iff_eq_none]
        intro hedited
        exact hkept ⟨key, drawer, rfl, hchooses, hedited⟩
      rw [hnone]
      rfl
  · rw [heq]
    refine iff_of_true (Session.step_take _ _ _).openEdit? ?_
    rintro ⟨key, drawer, rfl, hchooses, hedited⟩
    have ⟨_, _, _, hchar, _⟩ := hchooses
    obtain ⟨cursor, hchosen⟩ := report_of_chooses hchooses moment
    have hsame := congrArg (fun taken => taken.2) (hchosen.symm.trans heq)
    rw [Session.take, engine.session.keyDown_eq_of_char? hchar] at hsame
    cases hsame

/-- The edit that is open behind each of a list of events, as far as one can read, is the one under
way exactly if each event announces the edit that it begins or ends. -/
theorem openEdit?_takeAll_iff (inputs : List (Moment × Input α)) :
    (∀ n, openEdit? engine.session.edited? (engine.takeAll (inputs.take n)).2 =
      some (engine.takeAll (inputs.take n)).1.session.edited?) ↔
    engine.EachInput TellsEdit inputs := by
  induction inputs generalizing engine with
  | nil =>
    refine iff_of_true ?_ trivial
    intro n
    rw [List.take_nil]
    rfl
  | cons first rest ih =>
    obtain ⟨moment, input⟩ := first
    constructor
    · intro h
      have htells : engine.TellsEdit moment input := by
        have hone := h 1
        simp only [List.take_succ_cons, List.take_zero, takeAll, List.append_nil] at hone
        exact hone
      refine ⟨htells, ih.mp ?_⟩
      intro n
      have hmore := h (n + 1)
      simp only [List.take_succ_cons, takeAll, openEdit?_append] at hmore
      rw [show openEdit? _ (engine.take moment input).2 = _ from htells] at hmore
      exact hmore
    · rintro ⟨htells, hrest⟩ n
      cases n with
      | zero => rfl
      | succ n =>
        simp only [List.take_succ_cons, takeAll, openEdit?_append]
        rw [show openEdit? _ (engine.take moment input).2 = _ from htells]
        exact ih.mpr hrest n

/-- Outside of vertex editing, the actions of any events announce edits in turn, and the one that is
open behind every event is the one under way, exactly as long as no key chooses a drawer while
vertices are edited. -/
theorem edits_announced_iff {engine : Engine α} (h : engine.session.state.editor? = none)
    (inputs : List (Moment × Input α)) :
    (∀ n, openEdit? none (engine.takeAll (inputs.take n)).2 =
      some ((engine.takeAll (inputs.take n)).1.session.state.editor?.map (·.id))) ↔
    engine.EachInput (fun engine _ input => ¬ engine.DropsEdit input) inputs := by
  rw [← Session.edited?_eq_none h]
  exact (openEdit?_takeAll_iff inputs).trans (eachInput_congr tellsEdit_iff inputs)

/-- Draws a triangle and enters select mode. -/
def placeTriangle : List (Call Float) :=
  let moment : Moment := ⟨ElementId.nil, 0⟩
  [.setMode (.draw "polygon"), .input moment (.down (pointerAt 0.25 0.25)),
    .input moment (.down (pointerAt 0.75 0.25)), .input moment (.down (pointerAt 0.5 0.75)),
    .input moment (.doubleClick (pointerAt 0.5 0.75)), .setMode .select]

/-- An edit that Escape ends is announced from its beginning to its end, and so is the next one. -/
theorem escape_announces_end :
    let moment : Moment := ⟨ElementId.nil, 0⟩
    let engine := (ofSettings Settings.default).run placeTriangle
    let begins : Moment × Input Float := (moment, .doubleClick (pointerAt 0.25 0.25))
    let inputs := [begins, (moment, .key ⟨"Escape"⟩), begins]
    engine.session.state.editor? = none ∧
      openEdit? none (engine.takeAll (inputs.take 1)).2 = some (some ElementId.nil) ∧
      openEdit? none (engine.takeAll (inputs.take 2)).2 = some none ∧
      openEdit? none (engine.takeAll (inputs.take 3)).2 = some (some ElementId.nil) := by
  intro moment engine begins inputs
  have hstart : engine.session.state.editor? = none := by decide +kernel
  have hchar : (⟨"Escape"⟩ : Key).char? = none := by decide +kernel
  have hkept : engine.EachInput (fun engine _ input => ¬ engine.DropsEdit input) inputs := by
    refine ⟨?_, ?_, ?_, trivial⟩
    · rintro ⟨_, _, hinput, _⟩
      cases hinput
    · rintro ⟨_, _, hinput, ⟨_, _, _, hshortcut, _⟩, _⟩
      cases hinput
      cases hchar.symm.trans hshortcut
    · rintro ⟨_, _, hinput, _⟩
      cases hinput
  have hopen := (edits_announced_iff hstart inputs).mpr hkept
  have hfirst : (engine.takeAll (inputs.take 1)).1.session.state.editor?.map (·.id) =
      some ElementId.nil := by decide +kernel
  have hsecond : (engine.takeAll (inputs.take 2)).1.session.state.editor?.map (·.id) = none := by
    decide +kernel
  have hthird : (engine.takeAll (inputs.take 3)).1.session.state.editor?.map (·.id) =
      some ElementId.nil := by decide +kernel
  refine ⟨hstart, ?_, ?_, ?_⟩
  · rw [hopen 1, hfirst]
  · rw [hopen 2, hsecond]
  · rw [hopen 3, hthird]

/-- The shortcut of a drawer ends an edit that the actions leave open. -/
theorem edit_left_open_by_shortcut :
    let moment : Moment := ⟨ElementId.nil, 0⟩
    let engine := (ofSettings Settings.default).run placeTriangle
    let inputs : List (Moment × Input Float) :=
      [(moment, .doubleClick (pointerAt 0.25 0.25)), (moment, .key ⟨"r"⟩)]
    engine.session.state.editor? = none ∧
      (engine.takeAll inputs).2 =
        [.selectionChanged (some ElementId.nil), .vertexEditStarted ElementId.nil, .renderNeeded,
          .setCursor "crosshair"] ∧
      openEdit? none (engine.takeAll inputs).2 = some (some ElementId.nil) ∧
      (engine.takeAll inputs).1.session.state.editor? = none := by
  decide +kernel

end Engine

end RegionDrawing
