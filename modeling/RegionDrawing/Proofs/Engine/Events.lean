import RegionDrawing.Proofs.Session.Reaction
import RegionDrawing.Proofs.Store.Import

/-! # What events and edits do to an engine

An engine lets its session take an event and carries the actions out; only a key that means
nothing to the session may switch the drawer instead. Edits go to the store at once.
-/
namespace RegionDrawing

variable {α : Type}

theorem Engine.perform_forDisplay (engine : Engine α) (moment : Moment) {action : Action α}
    (h : action.forDisplay) : engine.perform moment action = engine := by
  cases action with
  | elementCommitted | elementUpdated | elementRemoved => cases h
  | _ => rfl

theorem Engine.performAll_forDisplay (engine : Engine α) (moment : Moment) (session : Session α)
    {actions : List (Action α)} (h : ForDisplay actions) :
    engine.performAll moment (session, actions) = ({ engine with session }, actions) := by
  have hfold : ∀ e : Engine α,
      actions.foldl (fun engine action => engine.perform moment action) e = e := by
    induction actions with
    | nil => intro e; rfl
    | cons action rest ih =>
      intro e
      obtain ⟨hfirst, hrest⟩ := (forDisplay_cons action rest).mp h
      rw [List.foldl_cons, e.perform_forDisplay moment hfirst]
      exact ih hrest e
  simp only [Engine.performAll, hfold]

theorem Session.forget_eq_self {session : Session α} {id : ElementId}
    (hselected : session.selected ≠ some id) (hhovered : session.hovered ≠ some id)
    (hstate : session.state.editor? = none) : session.forget id = session := by
  simp [forget, hselected, hhovered, hstate]

namespace Engine

@[simp] theorem performAll_elementUpdated (engine : Engine α) (moment : Moment)
    (session : Session α) (id : ElementId) (shape : Shape α) :
    (engine.performAll moment (session, [.elementUpdated id shape, .renderNeeded])).1 =
      { engine with
        session, store := (engine.store.updateShape moment engine.asset id shape).1 } := rfl

/-- An engine takes over the session of a reaction. Its store stays, unless a vertex is dragged, an
element is deleted or a gesture is finished. -/
theorem performAll_cases [Scalar α] (engine : Engine α) (moment : Moment) {input : Input α}
    {taken : Session α × List (Action α)}
    (htaken : engine.session.Reaction engine.elements input taken) :
    (ForDisplay taken.2 ∧
      (engine.performAll moment taken).1 = { engine with session := taken.1 }) ∨
    (∃ editor position event, input = .move event ∧ engine.session.state = .editing editor ∧
      editor.held = some position ∧
      let shape := VertexEditor.moved editor.shape position event.point
      taken = ({ engine.session with state := .editing { editor with shape } },
        [.elementUpdated editor.id shape, .renderNeeded]) ∧
      (engine.performAll moment taken).1 =
        { engine with
          session := taken.1
          store := (engine.store.updateShape moment engine.asset editor.id shape).1 }) ∨
    (∃ id, engine.session.selected = some id ∧ taken.1.state = engine.session.state ∧
      taken.2 = [.elementRemoved id, .selectionChanged none, .renderNeeded] ∧
      (engine.performAll moment taken).1 =
        { engine with
          session := taken.1.forget id
          store := (engine.store.remove engine.asset id).1 }) ∨
    ∃ draft : Draft α, draft.shape.isValid ∧ taken.1.state = .committed ∧
      taken.2 = [.elementCommitted draft, .previewChanged none, .renderNeeded] ∧
      (engine.performAll moment taken).1 =
        { engine with
          session := taken.1
          store := (engine.store.insert moment engine.asset draft).1 } := by
  have hdisplay : ∀ {session : Session α} {actions : List (Action α)}, ForDisplay actions →
      ForDisplay actions ∧
        (engine.performAll moment (session, actions)).1 = { engine with session } := by
    intro session actions hactions
    exact ⟨hactions, by rw [engine.performAll_forDisplay moment session hactions]⟩
  cases htaken with
  | ignored => exact .inl (hdisplay forDisplay_nil)
  | drawn _ hactions => exact .inl (hdisplay hactions)
  | selected _ hactions => exact .inl (hdisplay hactions)
  | hovered _ hactions => exact .inl (hdisplay hactions)
  | begun _ _ hactions => exact .inl (hdisplay hactions)
  | gripped _ _ hactions => exact .inl (hdisplay hactions)
  | dragged hmove hstate hheld =>
    exact .inr (.inl ⟨_, _, _, hmove, hstate, hheld, rfl, rfl⟩)
  | deleted hselected _ => exact .inr (.inr (.inl ⟨_, hselected, rfl, rfl, rfl⟩))
  | committed hvalid => exact .inr (.inr (.inr ⟨_, hvalid, rfl, rfl, rfl⟩))

/-- An engine goes on with the session that took the event, since a session that deletes an element
has forgotten it already. -/
theorem session_performAll_take [Scalar α] (engine : Engine α) (moment : Moment)
    (input : Input α) :
    (engine.performAll moment (engine.session.take engine.elements input)).1.session =
      (engine.session.take engine.elements input).1 := by
  have hdisplay : ∀ {session : Session α} {actions : List (Action α)}, ForDisplay actions →
      (engine.performAll moment (session, actions)).1.session = session := by
    intro session actions hactions
    rw [engine.performAll_forDisplay moment session hactions]
  have htaken := Session.reaction_take engine.session engine.elements input
  generalize engine.session.take engine.elements input = taken at htaken ⊢
  cases htaken with
  | ignored => rfl
  | drawn _ h | selected _ h | hovered _ h | begun _ _ h | gripped _ _ h => exact hdisplay h
  | dragged _ _ _ => rfl
  | committed _ => rfl
  | deleted _ hstate => exact Session.forget_eq_self nofun (by grind) hstate

end Engine

theorem Session.keyDown_eq_of_isEmpty {session : Session α} {key : Key}
    (h : (session.keyDown key).2.isEmpty) : session.keyDown key = (session, []) := by
  unfold Session.keyDown at h ⊢
  split at h
  · unfold Session.escape Session.endVertexEdit at h ⊢
    split at h <;> first | cases h | skip
    all_goals
      split at h
      · cases h
      · simp_all
  · split at h
    · unfold Session.deleteSelected at h ⊢
      split at h
      · cases h
      · simp_all
    · simp_all

theorem Session.selectByShortcut_cases (session : Session α) (key : Char) :
    session.selectByShortcut key = (session, false) ∨
      ∃ mode, session.selectByShortcut key = session.setMode mode := by
  unfold Session.selectByShortcut
  cases session.registry.ofShortcut? key with
  | none => exact .inl rfl
  | some drawer => exact .inr ⟨.draw drawer.info.id, rfl⟩

/-- Whether a key chooses a drawer: by its shortcut, in select mode and outside of gestures. -/
def Session.Chooses (session : Session α) (key : Key) (drawer : Drawer α) : Prop :=
  session.mode = .select ∧ session.state.isDrawing = false ∧
    ∃ c, key.char? = some c ∧ session.registry.ofShortcut? c = some drawer ∧
      session.admits (.draw drawer.info.id)

theorem Session.Chooses.setMode {session : Session α} {key : Key} {drawer : Drawer α}
    (h : session.Chooses key drawer) :
    (session.setMode (.draw drawer.info.id)).1 =
      { session.abandonGesture with
        hovered := none, state := .idle, mode := .draw drawer.info.id } := by
  obtain ⟨_, _, _, _, _, hadmits⟩ := h
  simp [Session.setMode, hadmits]

theorem Session.keyDown_eq_of_char? (session : Session α) {key : Key} {c : Char}
    (h : key.char? = some c) : session.keyDown key = (session, []) := by
  have hname : ∀ name : String, name.toList.length ≠ 1 → key.name ≠ name := by
    rintro _ hlength rfl
    unfold Key.char? at h
    split at h
    · next hlist => exact hlength (by rw [hlist]; rfl)
    · cases h
  have hescape : key.isEscape = false := by
    simp [Key.isEscape, hname "Escape" (by decide), hname "Esc" (by decide)]
  have hdelete : key.isDelete = false := by
    simp [Key.isDelete, hname "Delete" (by decide), hname "Backspace" (by decide)]
  simp [keyDown, hescape, hdelete]

namespace Engine

theorem shortcut_of_chooses {engine : Engine α} {key : Key} {drawer : Drawer α}
    (h : engine.session.Chooses key drawer) :
    engine.shortcut key =
      ({ engine with session := (engine.session.setMode (.draw drawer.info.id)).1 },
        [.setCursor (engine.session.setMode (.draw drawer.info.id)).1.cursor]) := by
  obtain ⟨hmode, hdrawing, c, hchar, hdrawer, hadmits⟩ := h
  simp [shortcut, Session.selectByShortcut, Session.setMode, hmode, hdrawing, hchar, hdrawer,
    hadmits]

theorem shortcut_of_not_chooses {engine : Engine α} {key : Key}
    (h : ∀ drawer, ¬ engine.session.Chooses key drawer) : engine.shortcut key = (engine, []) := by
  unfold shortcut
  split
  · next hselect =>
    simp only [Bool.and_eq_true, decide_eq_true_eq, Bool.not_eq_true'] at hselect
    cases hchar : key.char? with
    | none => rfl
    | some c =>
      cases hdrawer : engine.session.registry.ofShortcut? c with
      | none => simp [Session.selectByShortcut, hdrawer]
      | some drawer =>
        have hadmits : ¬ engine.session.admits (.draw drawer.info.id) := by
          intro hadmits
          exact h drawer ⟨hselect.1, hselect.2, c, hchar, hdrawer, hadmits⟩
        simp [Session.selectByShortcut, Session.setMode, hdrawer, hadmits]
  · rfl

section
variable [Scalar α]

theorem take_of_chooses {engine : Engine α} {key : Key} {drawer : Drawer α}
    (h : engine.session.Chooses key drawer) (moment : Moment) :
    engine.take moment (.key key) =
      ({ engine with session := (engine.session.setMode (.draw drawer.info.id)).1 },
        [.setCursor (engine.session.setMode (.draw drawer.info.id)).1.cursor]) := by
  have ⟨_, _, _, hchar, _⟩ := h
  simp only [take, keyDown, engine.session.keyDown_eq_of_char? hchar, List.isEmpty_nil, if_true]
  exact shortcut_of_chooses h

theorem take_of_not_chooses {engine : Engine α} {input : Input α}
    (h : ∀ key drawer, input = .key key → ¬ engine.session.Chooses key drawer) (moment : Moment) :
    engine.take moment input =
      engine.performAll moment (engine.session.take engine.elements input) := by
  cases input with
  | down event => rfl
  | move event => rfl
  | up event => rfl
  | doubleClick event => rfl
  | key key =>
    simp only [take, keyDown, Session.take]
    by_cases hempty : (engine.session.keyDown key).2.isEmpty
    · rw [Session.keyDown_eq_of_isEmpty hempty]
      exact shortcut_of_not_chooses fun drawer => h key drawer rfl
    · simp only [hempty]
      rfl

/-- An event goes to the session, unless it is a key by which another drawer is chosen. -/
theorem take_cases (engine : Engine α) (moment : Moment) (input : Input α) :
    engine.take moment input =
        engine.performAll moment (engine.session.take engine.elements input) ∨
      ∃ mode, engine.session.take engine.elements input = (engine.session, []) ∧
        engine.take moment input = ({ engine with session := (engine.session.setMode mode).1 },
          [.setCursor (engine.session.setMode mode).1.cursor]) := by
  by_cases h : ∃ key drawer, input = .key key ∧ engine.session.Chooses key drawer
  · obtain ⟨key, drawer, rfl, hchooses⟩ := h
    have ⟨_, _, _, hchar, _⟩ := hchooses
    exact .inr ⟨_, engine.session.keyDown_eq_of_char? hchar, take_of_chooses hchooses moment⟩
  · refine .inl (take_of_not_chooses ?_ moment)
    intro key drawer hinput hchooses
    exact h ⟨key, drawer, hinput, hchooses⟩

end

theorem after_drag [WrittenScalar α] (engine : Engine α) (moment : Moment)
    (event : PointerEvent α) {editor : VertexEditor α} {position : Nat}
    (hstate : engine.session.state = .editing editor) (hheld : editor.held = some position) :
    let shape := VertexEditor.moved editor.shape position event.point
    engine.after (.input moment (.move event)) =
      { engine with
        session := { engine.session with state := .editing { editor with shape } }
        store := (engine.store.updateShape moment engine.asset editor.id shape).1 } := by
  simp only [after, take, pointerMove, Session.pointerMove, hstate, VertexEditor.drag, hheld,
    performAll_elementUpdated]

theorem after_setAsset_cases [WrittenScalar α] (engine : Engine α) (asset : String) :
    engine.after (.setAsset asset) = engine ∨
      engine.after (.setAsset asset) = { engine with session := engine.session.reset, asset } := by
  simp only [after, setAsset]
  split
  · exact .inl rfl
  · exact .inr rfl

/-- The geometry that an edit gives an element, if it may be stored. -/
def edited? [Scalar α] (engine : Engine α) (id : ElementId) (t : Transform α) :
    Option (Shape α) := do
  let element ← engine.element? id
  let drawer ← engine.session.registry.drawerFor? element.kind
  let shape := drawer.transformed element t
  if shape.isValid then some shape else none

theorem isValid_of_edited? [Scalar α] {engine : Engine α} {id : ElementId} {t : Transform α}
    {shape : Shape α} (h : engine.edited? id t = some shape) : shape.isValid := by
  simp only [edited?, Option.bind_eq_bind, Option.bind_eq_some_iff] at h
  obtain ⟨element, _, drawer, _, hshape⟩ := h
  split at hshape
  · next hvalid =>
    cases hshape
    exact hvalid
  · cases hshape

theorem transform_eq [Scalar α] (engine : Engine α) (moment : Moment) (id : ElementId)
    (t : Transform α) :
    engine.transform moment id t =
      match engine.edited? id t with
      | none => (engine, none)
      | some shape =>
        ({ engine with store := (engine.store.updateShape moment engine.asset id shape).1 },
          some (.elementUpdated id shape)) := rfl

theorem after_transform_cases [WrittenScalar α] (engine : Engine α) (moment : Moment)
    (id : ElementId) (t : Transform α) :
    (∃ shape, engine.edited? id t = some shape ∧ engine.after (.transform moment id t) =
      { engine with store := (engine.store.updateShape moment engine.asset id shape).1 }) ∨
    (engine.edited? id t = none ∧ engine.after (.transform moment id t) = engine) := by
  simp only [after, transform_eq]
  cases engine.edited? id t with
  | none => exact .inr ⟨rfl, rfl⟩
  | some shape => exact .inl ⟨shape, rfl, rfl⟩

/-- The engine behind the import of elements: they make up the current asset, and what went on is
abandoned. -/
def withElements (engine : Engine α) (elements : List (Element α)) : Engine α :=
  { engine with
    session := engine.session.reset
    store := engine.store.setElements engine.asset elements }

section
variable [WrittenScalar α] (engine : Engine α) {text : String}

theorem importText_of_read {elements : List (Element α)}
    (h : Store.readElements text = .ok elements) :
    engine.importText text = (engine.withElements elements, .ok elements.length) := by
  rw [importText, Store.importText_of_read _ _ h]
  rfl

theorem importText_of_fault {fault : ElementError}
    (h : Store.readElements (α := α) text = .error fault) :
    engine.importText text = (engine, .error fault) := by
  rw [importText, Store.importText_of_fault _ _ h]

theorem after_importText_cases (text : String) :
    (∃ elements, Store.readElements text = .ok elements ∧
      engine.after (.importText text) =
        { engine with
          session := engine.session.reset
          store := engine.store.setElements engine.asset elements }) ∨
    engine.after (.importText text) = engine := by
  rw [after]
  cases hread : (Store.readElements text : Except ElementError (List (Element α))) with
  | error fault => exact .inr (congrArg Prod.fst (engine.importText_of_fault hread))
  | ok elements => exact .inl ⟨elements, rfl, congrArg Prod.fst (engine.importText_of_read hread)⟩

end

/-- What a call can make of the session of an engine. -/
inductive SessionAfter [Scalar α] (engine : Engine α) (call : Call α) : Session α → Prop where
  | kept : SessionAfter engine call engine.session
  | reset : SessionAfter engine call engine.session.reset
  | forgot (id : ElementId) : SessionAfter engine call (engine.session.forget id)
  | entered (mode : Mode) : SessionAfter engine call (engine.session.setMode mode).1
  | registryChanged {registry : Registry α} (hcall : call = .changeRegistry registry) :
      SessionAfter engine call { engine.session with registry }
  | took {moment : Moment} {input : Input α} (hcall : call = .input moment input) :
      SessionAfter engine call (engine.session.take engine.elements input).1
  /-- An event by which the session deletes an element. -/
  | tookAndForgot {moment : Moment} {input : Input α} (hcall : call = .input moment input)
      (id : ElementId) :
      SessionAfter engine call ((engine.session.take engine.elements input).1.forget id)

theorem sessionAfter_take [Scalar α] (engine : Engine α) (moment : Moment) (input : Input α) :
    engine.SessionAfter (.input moment input) (engine.take moment input).1.session := by
  rcases engine.take_cases moment input with heq | ⟨mode, _, heq⟩
  · rw [heq]
    rcases engine.performAll_cases moment
      (Session.reaction_take engine.session engine.elements input) with ⟨_, hsession⟩ |
      ⟨_, _, _, _, _, _, _, hsession⟩ | ⟨id, _, _, _, hsession⟩ | ⟨_, _, _, _, hsession⟩
    · rw [hsession]
      exact .took rfl
    · rw [hsession]
      exact .took rfl
    · rw [hsession]
      exact .tookAndForgot rfl id
    · rw [hsession]
      exact .took rfl
  · rw [heq]
    exact .entered mode

theorem sessionAfter [WrittenScalar α] (engine : Engine α) (call : Call α) :
    engine.SessionAfter call (engine.after call).session := by
  cases call with
  | input moment input => exact engine.sessionAfter_take moment input
  | setAsset asset =>
    rcases engine.after_setAsset_cases asset with heq | heq
    · rw [heq]
      exact .kept
    · rw [heq]
      exact .reset
  | setMode mode => exact .entered mode
  | transform moment id t =>
    rcases engine.after_transform_cases moment id t with ⟨_, _, heq⟩ | ⟨_, heq⟩
    · rw [heq]
      exact .kept
    · rw [heq]
      exact .kept
  | remove id => exact .forgot id
  | importText text =>
    rcases engine.after_importText_cases text with ⟨_, _, heq⟩ | heq
    · rw [heq]
      exact .reset
    · rw [heq]
      exact .kept
  | clear => exact .reset
  | changeRegistry registry => exact .registryChanged rfl
  | setFrame | setZoom | patch => exact .kept

end Engine

end RegionDrawing
