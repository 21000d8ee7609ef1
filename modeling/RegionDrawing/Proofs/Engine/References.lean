import RegionDrawing.Proofs.Engine.Events

/-! # References of a session resolve

A session names elements by their ids: the selected one, the one under the pointer and the one
whose vertices are edited. Along every run of an engine these ids name elements of the current
asset, so no action of an event is carried out in vain.
-/
namespace RegionDrawing

variable {α : Type}

@[simp] theorem VertexEditor.kind_moved [Scalar α] (shape : Shape α) (position : Nat)
    (p : Point α) : (moved shape position p).kind = shape.kind := by cases shape <;> rfl

/-- All ids in a session name elements of a list; a vertex editor goes with its element. -/
structure Session.RefersTo (session : Session α) (elements : List (Element α)) : Prop where
  selected : ∀ id, session.selected = some id → (Element.withId? elements id).isSome
  hovered : ∀ id, session.hovered = some id → (Element.withId? elements id).isSome
  editing : ∀ editor, session.state = .editing editor →
    ∃ element, Element.withId? elements editor.id = some element ∧
      element.kind = editor.shape.kind ∧ (element.kind = .polygon ∨ element.kind = .path)

theorem Session.editing_of_forget {session : Session α} {id : ElementId} {editor : VertexEditor α}
    (h : (session.forget id).state = .editing editor) :
    session.state = .editing editor ∧ editor.id ≠ id := by
  simp only [forget] at h
  split at h
  · cases h
  · next hne => exact ⟨h, fun hid => hne (by simp [h, GestureState.editor?, hid])⟩

namespace Session.RefersTo

variable {session : Session α} {elements : List (Element α)}

theorem of_kept {elements' : List (Element α)} (h : session.RefersTo elements)
    (hkept : ∀ id element, Element.withId? elements id = some element →
      ∃ element', Element.withId? elements' id = some element' ∧ element'.kind = element.kind) :
    session.RefersTo elements' := by
  have hid : ∀ id, (Element.withId? elements id).isSome →
      (Element.withId? elements' id).isSome := by
    intro id hsome
    obtain ⟨element, helement⟩ := Option.isSome_iff_exists.mp hsome
    obtain ⟨element', helement', _⟩ := hkept id element helement
    exact Option.isSome_iff_exists.mpr ⟨element', helement'⟩
  refine ⟨fun id hs => hid id (h.selected id hs), fun id hs => hid id (h.hovered id hs), ?_⟩
  intro editor hstate
  obtain ⟨element, helement, hkind, hlist⟩ := h.editing editor hstate
  obtain ⟨element', helement', hkind'⟩ := hkept editor.id element helement
  exact ⟨element', helement', hkind'.trans hkind, hkind' ▸ hlist⟩

theorem append (h : session.RefersTo elements) (further : List (Element α)) :
    session.RefersTo (elements ++ further) :=
  h.of_kept fun _ element helement => ⟨element, Element.withId?_append helement further, rfl⟩

theorem editElement {edit : Element α → Element α} {id : ElementId} (h : session.RefersTo elements)
    (hid : ∀ e, (edit e).id = e.id)
    (hkind : ∀ e, Element.withId? elements id = some e → (edit e).kind = e.kind) :
    session.RefersTo (Store.editElement id edit elements) := by
  apply h.of_kept
  intro other element helement
  rw [Store.withId?_editElement hid, helement]
  refine ⟨_, rfl, ?_⟩
  split
  · next hother => exact hkind element (hother ▸ helement)
  · rfl

theorem forget {elements' : List (Element α)} (h : session.RefersTo elements) (id : ElementId)
    (hkept : ∀ other, other ≠ id →
      Element.withId? elements' other = Element.withId? elements other) :
    (session.forget id).RefersTo elements' := by
  have hother : ∀ reference : Option ElementId,
      (∀ x, reference = some x → (Element.withId? elements x).isSome) →
      ∀ x, (if reference = some id then none else reference) = some x →
        (Element.withId? elements' x).isSome := by
    intro reference href x hx
    split at hx
    · cases hx
    · next hne =>
      rw [hkept x fun e => hne (e ▸ hx)]
      exact href x hx
  refine ⟨hother _ h.selected, hother _ h.hovered, ?_⟩
  intro editor hforget
  obtain ⟨hstate, hid⟩ := Session.editing_of_forget hforget
  rw [hkept editor.id hid]
  exact h.editing editor hstate

theorem reset (session : Session α) (elements : List (Element α)) :
    session.reset.RefersTo elements :=
  ⟨fun _ h => (nomatch h), fun _ h => (nomatch h), fun _ h => (nomatch h)⟩

theorem setMode (h : session.RefersTo elements) (mode : Mode) :
    (session.setMode mode).1.RefersTo elements := by
  unfold Session.setMode
  split
  · refine ⟨h.selected, ?_, fun _ h => nomatch h⟩
    intro id hid
    simp only at hid
    split at hid
    · exact h.hovered id hid
    · cases hid
  · exact h

/-- A reaction refers to elements of the list or, when it asks for the removal of one, to none
that is removed. -/
theorem reaction [Scalar α] {input : Input α} {taken : Session α × List (Action α)}
    (h : session.RefersTo elements) (htaken : session.Reaction elements input taken) :
    taken.1.RefersTo elements := by
  cases htaken with
  | ignored => exact h
  | drawn hstate _ =>
    refine ⟨h.selected, h.hovered, ?_⟩
    intro editor hs
    cases hs
    cases hstate
  | selected hid _ => exact ⟨hid, h.hovered, h.editing⟩
  | hovered hid _ => exact ⟨h.selected, hid, h.editing⟩
  | @begun editor element _ hfound hbegin _ =>
    refine ⟨?_, h.hovered, ?_⟩
    · intro id hid
      cases hid
      rw [hfound]
      rfl
    · intro editor' hstate
      cases hstate
      refine ⟨element, hfound, ?_⟩
      unfold VertexEditor.begin? at hbegin
      split at hbegin <;> cases hbegin <;> simp_all [Element.kind, Shape.kind]
  | gripped hstate _ _ =>
    refine ⟨h.selected, h.hovered, ?_⟩
    intro editor' hs
    cases hs
    obtain ⟨element, helement, hkind, hlist⟩ := h.editing _ hstate
    exact ⟨element, helement, hkind, hlist⟩
  | dragged _ hstate _ =>
    refine ⟨h.selected, h.hovered, ?_⟩
    intro editor' hs
    cases hs
    obtain ⟨element, helement, hkind, hlist⟩ := h.editing _ hstate
    exact ⟨element, helement, by rw [hkind, VertexEditor.kind_moved], hlist⟩
  | deleted _ hstate =>
    refine ⟨fun _ hid => (nomatch hid), ?_, h.editing⟩
    intro x hx
    simp only at hx
    split at hx
    · cases hx
    · exact h.hovered x hx
  | committed _ => exact ⟨h.selected, h.hovered, fun _ hs => (nomatch hs)⟩

variable {store : Store α} {asset : String}

theorem updateShape (h : session.RefersTo (store.elements asset)) (moment : Moment)
    (id : ElementId) (shape : Shape α) :
    session.RefersTo ((store.updateShape moment asset id shape).1.elements asset) := by
  rcases store.updateShape_cases moment asset id shape with ⟨element, hget, hkind, heq⟩ | ⟨_, heq⟩
  · rw [heq, Store.elements_setElements_self]
    refine h.editElement (fun _ => rfl) fun e he => ?_
    rw [Store.get?_eq_withId?, he] at hget
    cases hget
    exact hkind.symm
  · rw [heq]
    exact h

theorem patch (h : session.RefersTo (store.elements asset)) (moment : Moment) (id : ElementId)
    (patch : Patch α) :
    session.RefersTo ((store.patch moment asset id patch).1.elements asset) := by
  rcases store.patch_cases moment asset id patch with heq | heq
  · rw [heq, Store.elements_setElements_self]
    exact h.editElement (fun _ => rfl) fun _ _ => rfl
  · rw [heq]
    exact h

theorem remove (h : session.RefersTo (store.elements asset)) (id : ElementId) :
    (session.forget id).RefersTo ((store.remove asset id).1.elements asset) := by
  rcases store.remove_cases asset id with ⟨_, _, heq⟩ | ⟨_, heq⟩
  · rw [heq, Store.elements_setElements_self]
    exact h.forget id fun other hne => Store.withId?_eraseP hne _
  · rw [heq]
    exact h.forget id fun _ _ => rfl

theorem insert (h : session.RefersTo (store.elements asset)) (moment : Moment) (draft : Draft α) :
    session.RefersTo ((store.insert moment asset draft).1.elements asset) := by
  rw [Store.elements_insert, if_pos rfl]
  exact h.append _

end Session.RefersTo

namespace Engine

/-- All ids in the session name elements of the current asset. -/
def Resolves (engine : Engine α) : Prop := engine.session.RefersTo engine.elements

theorem resolves_ofSettings [Scalar α] (settings : Settings α) : (ofSettings settings).Resolves :=
  ⟨fun _ h => (nomatch h), fun _ h => (nomatch h), fun _ h => (nomatch h)⟩

theorem Resolves.performAll [Scalar α] {engine : Engine α} (h : engine.Resolves) (moment : Moment)
    {input : Input α} {taken : Session α × List (Action α)}
    (htaken : engine.session.Reaction engine.elements input taken) :
    (engine.performAll moment taken).1.Resolves := by
  have hrefers : taken.1.RefersTo engine.elements := Session.RefersTo.reaction h htaken
  rcases engine.performAll_cases moment htaken with
    ⟨_, heq⟩ | ⟨editor, position, event, _, _, _, _, heq⟩ | ⟨id, _, _, _, heq⟩ |
    ⟨draft, _, _, _, heq⟩
  · rw [heq]
    exact hrefers
  · rw [heq]
    exact hrefers.updateShape moment _ _
  · rw [heq]
    exact hrefers.remove id
  · rw [heq]
    exact hrefers.insert moment draft

theorem Resolves.take [Scalar α] {engine : Engine α} (h : engine.Resolves) (moment : Moment)
    (input : Input α) : (engine.take moment input).1.Resolves := by
  rcases engine.take_cases moment input with heq | ⟨mode, _, heq⟩
  · rw [heq]
    exact h.performAll moment (Session.reaction_take _ _ _)
  · rw [heq]
    exact Session.RefersTo.setMode h mode

theorem Resolves.after [WrittenScalar α] {engine : Engine α} (h : engine.Resolves)
    (call : Call α) : (engine.after call).Resolves := by
  cases call with
  | input moment input => exact h.take moment input
  | setAsset asset =>
    rcases engine.after_setAsset_cases asset with heq | heq
    · rw [heq]
      exact h
    · rw [heq]
      exact Session.RefersTo.reset _ _
  | setFrame frame => exact h
  | setZoom zoom => exact h
  | setMode mode => exact Session.RefersTo.setMode h mode
  | transform moment id t =>
    rcases engine.after_transform_cases moment id t with ⟨shape, _, heq⟩ | ⟨_, heq⟩
    · rw [heq]
      exact Session.RefersTo.updateShape h moment id shape
    · rw [heq]
      exact h
  | patch moment id patch => exact Session.RefersTo.patch h moment id patch
  | remove id => exact Session.RefersTo.remove h id
  | importText text =>
    rcases engine.after_importText_cases text with ⟨elements, _, heq⟩ | heq
    · rw [heq]
      exact Session.RefersTo.reset _ _
    · rw [heq]
      exact h
  | clear => exact Session.RefersTo.reset _ _
  | changeRegistry registry => exact ⟨h.selected, h.hovered, h.editing⟩

end Engine

end RegionDrawing
