import RegionDrawing.Proofs.Engine.Events

/-! # Imports of an engine

A document replaces all elements of the current asset or nothing at all. Whether it does is a
property of the document alone: what goes on in the engine plays no part.
-/
namespace RegionDrawing.Engine

variable {α : Type} [WrittenScalar α]

theorem importText_answers_ok_iff {engine : Engine α} {text : String} {count : Nat} :
    (engine.importText text).2 = .ok count ↔
      ∃ elements : List (Element α), Store.readElements text = .ok elements ∧
        elements.length = count := by
  cases hread : (Store.readElements text : Except ElementError (List (Element α))) with
  | error fault => simp [engine.importText_of_fault hread]
  | ok elements => simp [engine.importText_of_read hread]

theorem importText_answers_error_iff {engine : Engine α} {text : String} {fault : ElementError} :
    (engine.importText text).2 = .error fault ↔
      Store.readElements (α := α) text = .error fault := by
  cases hread : (Store.readElements text : Except ElementError (List (Element α))) with
  | error found => simp [engine.importText_of_fault hread]
  | ok elements => simp [engine.importText_of_read hread]

/-- A document is taken over exactly if all its elements are committable. Then they are the current
asset, in their order, all other assets stay, and only the mode of the session does. Any other text
leaves the whole engine as it is and gives an error, for a document that of its first fault. -/
theorem importText_all_or_nothing (engine : Engine α) (text : String) :
    let result := (engine.importText text).1
    let answer := (engine.importText text).2
    (∀ count, answer = .ok count ↔
      ∃ elements : List (Element α), Element.listOfText? text = some elements ∧
        elements.length = count ∧ (∀ element ∈ elements, element.shape.isValid) ∧
        (elements.map (·.id)).Nodup) ∧
    (∀ count, answer = .ok count →
      Element.listOfText? text = some result.elements ∧
      (∀ asset, asset ≠ engine.asset →
        result.store.elements asset = engine.store.elements asset) ∧
      result = { engine with
        store := result.store
        session := { engine.session with
          state := .idle, preview := none, selected := none, hovered := none
          cancelReports := result.session.cancelReports } }) ∧
    (∀ fault, answer = .error fault → result = engine) ∧
    (Element.listOfText? (α := α) text = none → answer = .error .unreadable) ∧
    ∀ elements : List (Element α), Element.listOfText? text = some elements →
      ∀ fault, answer = .error fault ↔
        ∃ before element after, elements = before ++ element :: after ∧
          ((∀ e ∈ before, e.shape.isValid) ∧ (before.map (·.id)).Nodup) ∧
          ((element.shape.isValid = false ∧
              fault = .invalidGeometry element.kind element.id) ∨
            (element.shape.isValid ∧ element.id ∈ before.map (·.id) ∧
              fault = .duplicateId element.id)) := by
  intro result answer
  refine ⟨?_, ?_, ?_, ?_, ?_⟩
  · intro count
    rw [importText_answers_ok_iff]
    simp only [Store.readElements_eq_ok_iff]
    constructor
    · rintro ⟨elements, ⟨htext, hcommittable⟩, hcount⟩
      exact ⟨elements, htext, hcount, hcommittable⟩
    · rintro ⟨elements, htext, hcount, hcommittable⟩
      exact ⟨elements, ⟨htext, hcommittable⟩, hcount⟩
  · intro count hanswer
    obtain ⟨elements, hread, _⟩ := importText_answers_ok_iff.mp hanswer
    have hresult : result = engine.withElements elements :=
      congrArg Prod.fst (engine.importText_of_read hread)
    rw [hresult]
    refine ⟨?_, ?_, rfl⟩
    · rw [(Store.readElements_eq_ok_iff.mp hread).1]
      exact congrArg some (Store.elements_setElements_self _ _ _).symm
    · intro asset hasset
      exact (Store.elements_setElements _ _ _ _).trans (if_neg hasset)
  · intro fault hanswer
    exact congrArg Prod.fst (engine.importText_of_fault (importText_answers_error_iff.mp hanswer))
  · intro htext
    rw [importText_answers_error_iff, Store.readElements, htext]
  · intro elements htext fault
    rw [importText_answers_error_iff, Store.readElements_eq_error_iff htext]
    rfl

end RegionDrawing.Engine
