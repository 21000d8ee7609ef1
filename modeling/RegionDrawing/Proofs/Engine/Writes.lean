import RegionDrawing.Proofs.Engine.Events
import RegionDrawing.Proofs.Store.Calls

/-! # What an engine asks of its store

An engine changes its store by at most one call of the store for each call of its own. `Writes` is
the table of these calls, with what is known of the session when they are made.
-/
namespace RegionDrawing.Engine

variable {α : Type}

/-- What a call of an engine can ask of the store. -/
inductive Writes [Scalar α] (engine : Engine α) : Call α → StoreCall α → Prop where
  | committed {moment : Moment} {input : Input α} {draft : Draft α}
      (hdraft : .elementCommitted draft ∈
        (engine.session.take engine.elements input).2) :
      Writes engine (.input moment input) (.insert moment engine.asset draft)
  | dragged {moment : Moment} {event : PointerEvent α} {editor : VertexEditor α} {position : Nat}
      (hstate : engine.session.state = .editing editor) (hheld : editor.held = some position) :
      Writes engine (.input moment (.move event))
        (.updateShape moment engine.asset editor.id
          (VertexEditor.moved editor.shape position event.point))
  | deleted {moment : Moment} {input : Input α} {id : ElementId}
      (hselected : engine.session.selected = some id) :
      Writes engine (.input moment input) (.remove engine.asset id)
  | transformed {moment : Moment} {id : ElementId} {t : Transform α} {shape : Shape α}
      (hedited : engine.edited? id t = some shape) :
      Writes engine (.transform moment id t) (.updateShape moment engine.asset id shape)
  | patched {moment : Moment} {id : ElementId} {patch : Patch α} :
      Writes engine (.patch moment id patch) (.patch moment engine.asset id patch)
  | removed {id : ElementId} : Writes engine (.remove id) (.remove engine.asset id)
  | imported {text : String} : Writes engine (.importText text) (.importText engine.asset text)
  | cleared : Writes engine .clear (.clear engine.asset)

variable [WrittenScalar α]

theorem store_after_input (engine : Engine α) (moment : Moment) (input : Input α) :
    (engine.take moment input).1.store = engine.store ∨
      ∃ write, engine.Writes (.input moment input) write ∧
        (engine.take moment input).1.store = engine.store.after write := by
  rcases engine.take_cases moment input with heq | ⟨mode, _, heq⟩
  case inr =>
    rw [heq]
    exact .inl rfl
  have htaken := Session.reaction_take engine.session engine.elements input
  rw [heq]
  rcases engine.performAll_cases moment htaken with
    ⟨_, heq⟩ | ⟨editor, position, event, rfl, hstate, hheld, _, heq⟩ |
    ⟨id, hselected, _, _, heq⟩ | ⟨draft, _, _, hactions, heq⟩
  all_goals rw [heq]
  · exact .inl rfl
  · exact .inr ⟨_, .dragged hstate hheld, rfl⟩
  · exact .inr ⟨_, .deleted hselected, rfl⟩
  · refine .inr ⟨_, .committed ?_, rfl⟩
    rw [hactions]
    exact List.mem_cons_self

/-- The table is complete. -/
theorem store_after (engine : Engine α) (call : Call α) :
    (engine.after call).store = engine.store ∨
      ∃ write, engine.Writes call write ∧
        (engine.after call).store = engine.store.after write := by
  cases call with
  | input moment input => exact engine.store_after_input moment input
  | setAsset asset =>
    rcases engine.after_setAsset_cases asset with heq | heq <;> rw [heq] <;> exact .inl rfl
  | setFrame | setZoom | setMode | changeRegistry => exact .inl rfl
  | transform moment id t =>
    rcases engine.after_transform_cases moment id t with ⟨shape, hedited, heq⟩ | ⟨_, heq⟩
    · rw [heq]
      exact .inr ⟨_, .transformed hedited, rfl⟩
    · rw [heq]
      exact .inl rfl
  | patch moment id patch => exact .inr ⟨_, .patched, rfl⟩
  | remove id => exact .inr ⟨_, .removed, rfl⟩
  | importText text =>
    rcases engine.after_importText_cases text with ⟨elements, hread, heq⟩ | heq
    · rw [heq]
      refine .inr ⟨_, .imported, ?_⟩
      rw [Store.after, Store.respond, Store.importText_of_read _ _ hread]
    · rw [heq]
      exact .inl rfl
  | clear => exact .inr ⟨_, .cleared, rfl⟩

end RegionDrawing.Engine
