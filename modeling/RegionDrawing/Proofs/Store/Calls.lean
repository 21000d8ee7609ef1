import RegionDrawing.Proofs.Store.Import
import RegionDrawing.Proofs.Store.Validity

/-! # Runs of a store

What can be asked of a store, one call at a time. A call concerns a single asset, and a call that is
refused leaves the store as it is.
-/
namespace RegionDrawing

inductive StoreCall (α : Type) where
  | insert (moment : Moment) (asset : String) (draft : Draft α)
  | updateShape (moment : Moment) (asset : String) (id : ElementId) (shape : Shape α)
  | patch (moment : Moment) (asset : String) (id : ElementId) (patch : Patch α)
  | remove (asset : String) (id : ElementId)
  | clear (asset : String)
  | importText (asset text : String)

variable {α : Type}

def StoreCall.asset : StoreCall α → String
  | .insert _ asset _ | .updateShape _ asset _ _ | .patch _ asset _ _ => asset
  | .remove asset _ | .clear asset | .importText asset _ => asset

namespace Store

variable [WrittenScalar α]

/-- The store behind a call, and whether the call was accepted. -/
def respond (store : Store α) : StoreCall α → Store α × Bool
  | .insert moment asset draft => ((store.insert moment asset draft).1, true)
  | .updateShape moment asset id shape => store.updateShape moment asset id shape
  | .patch moment asset id patch => store.patch moment asset id patch
  | .remove asset id => ((store.remove asset id).1, (store.remove asset id).2.isSome)
  | .clear asset => ((store.clear asset).1, true)
  | .importText asset text =>
    ((store.importText asset text).1, (store.importText asset text).2.isOk)

def after (store : Store α) (call : StoreCall α) : Store α := (store.respond call).1

def run (store : Store α) (calls : List (StoreCall α)) : Store α := calls.foldl after store

/-- Whether the id that a call brings is not taken in its asset. -/
def Fresh (store : Store α) : StoreCall α → Prop
  | .insert moment asset _ => ∀ element ∈ store.elements asset, element.id ≠ moment.id
  | _ => True

def EachFresh (store : Store α) : List (StoreCall α) → Prop
  | [] => True
  | call :: calls => store.Fresh call ∧ (store.after call).EachFresh calls

instance decidableFresh (store : Store α) : (call : StoreCall α) → Decidable (store.Fresh call)
  | .insert moment asset _ =>
    inferInstanceAs (Decidable (∀ element ∈ store.elements asset, element.id ≠ moment.id))
  | .updateShape _ _ _ _ | .patch _ _ _ _ | .remove _ _ | .clear _ | .importText _ _ =>
    inferInstanceAs (Decidable True)

instance decidableEachFresh : (store : Store α) → (calls : List (StoreCall α)) →
    Decidable (store.EachFresh calls)
  | _, [] => inferInstanceAs (Decidable True)
  | store, call :: calls =>
    have := decidableEachFresh (store.after call) calls
    inferInstanceAs (Decidable (store.Fresh call ∧ (store.after call).EachFresh calls))

theorem respond_importText_cases (store : Store α) (asset text : String) :
    (∃ elements, readElements text = .ok elements ∧
      store.respond (.importText asset text) = (store.setElements asset elements, true)) ∨
    ((∀ elements : List (Element α), readElements text ≠ .ok elements) ∧
      store.respond (.importText asset text) = (store, false)) := by
  rw [respond]
  cases hread : (readElements text : Except ElementError (List (Element α))) with
  | ok elements =>
    rw [store.importText_of_read asset hread]
    exact .inl ⟨elements, rfl, rfl⟩
  | error fault =>
    rw [store.importText_of_fault asset hread]
    exact .inr ⟨nofun, rfl⟩

/-- A call that is accepted writes the elements of its asset or takes the asset out. -/
theorem respond_cases (store : Store α) (call : StoreCall α) :
    store.respond call = (store, false) ∨
      (∃ elements, store.respond call = (store.setElements call.asset elements, true)) ∨
      store.respond call = ((store.clear call.asset).1, true) := by
  cases call with
  | insert moment asset draft => exact .inr (.inl ⟨_, rfl⟩)
  | updateShape moment asset id shape =>
    rcases store.updateShape_cases moment asset id shape with ⟨_, _, _, heq⟩ | ⟨_, heq⟩
    · exact .inr (.inl ⟨_, heq⟩)
    · exact .inl heq
  | patch moment asset id patch =>
    rcases store.patch_cases moment asset id patch with heq | heq
    · exact .inr (.inl ⟨_, heq⟩)
    · exact .inl heq
  | remove asset id =>
    rcases store.remove_cases asset id with ⟨_, _, heq⟩ | ⟨_, heq⟩
    · exact .inr (.inl ⟨_, by rw [respond, heq]; rfl⟩)
    · exact .inl (by rw [respond, heq]; rfl)
  | clear asset => exact .inr (.inr rfl)
  | importText asset text =>
    rcases store.respond_importText_cases asset text with ⟨_, _, heq⟩ | ⟨_, heq⟩
    · exact .inr (.inl ⟨_, heq⟩)
    · exact .inl heq

theorem elements_after_of_ne (store : Store α) {call : StoreCall α} {name : String}
    (h : name ≠ call.asset) : (store.after call).elements name = store.elements name := by
  rw [after]
  rcases store.respond_cases call with heq | ⟨elements, heq⟩ | heq
  · rw [heq]
  · rw [heq, elements_setElements, if_neg h]
  · rw [heq, elements_clear, if_neg h]

theorem after_of_refused {store : Store α} {call : StoreCall α}
    (h : (store.respond call).2 = false) : store.after call = store := by
  rw [after]
  rcases store.respond_cases call with heq | ⟨elements, heq⟩ | heq
  · rw [heq]
  · rw [heq] at h
    cases h
  · rw [heq] at h
    cases h

theorem Distinct.after {store : Store α} (h : store.Distinct) {call : StoreCall α}
    (hfresh : store.Fresh call) : (store.after call).Distinct := by
  cases call with
  | insert moment asset draft => exact h.insert hfresh draft
  | updateShape moment asset id shape => exact h.updateShape moment asset id shape
  | patch moment asset id patch => exact h.patch moment asset id patch
  | remove asset id => exact h.remove asset id
  | clear asset => exact h.clear asset
  | importText asset text =>
    rw [Store.after]
    rcases store.respond_importText_cases asset text with ⟨elements, hread, heq⟩ | ⟨_, heq⟩
    · rw [heq]
      exact h.setElements asset (readElements_eq_ok_iff.mp hread).2.2
    · rw [heq]
      exact h

theorem Distinct.run {store : Store α} (h : store.Distinct) {calls : List (StoreCall α)}
    (hfresh : store.EachFresh calls) : (store.run calls).Distinct := by
  induction calls generalizing store with
  | nil => exact h
  | cons call calls ih => exact ih (h.after hfresh.1) hfresh.2

def Brings (P : Shape α → Prop) : StoreCall α → Prop
  | .insert _ _ draft => P draft.shape
  | .updateShape _ _ _ shape => P shape
  | .importText _ text =>
    ∀ elements : List (Element α), readElements text = .ok elements →
      ∀ element ∈ elements, P element.shape
  | .patch _ _ _ _ | .remove _ _ | .clear _ => True

theorem EachShape.after {P : Shape α → Prop} {store : Store α} (h : store.EachShape P)
    {call : StoreCall α} (hcall : Brings P call) : (store.after call).EachShape P := by
  cases call with
  | insert moment asset draft => exact h.insert moment asset hcall
  | updateShape moment asset id shape => exact h.updateShape moment asset id hcall
  | patch moment asset id patch => exact h.patch moment asset id patch
  | remove asset id => exact h.remove asset id
  | clear asset => exact h.clear asset
  | importText asset text =>
    rw [Store.after]
    rcases store.respond_importText_cases asset text with ⟨elements, hread, heq⟩ | ⟨_, heq⟩
    · rw [heq]
      exact h.setElements asset (hcall elements hread)
    · rw [heq]
      exact h

end Store

end RegionDrawing
