import RegionDrawing.Proofs.Store.Elements

/-! # Valid stores

What is true of the geometry that comes into a store stays true of all that it holds, since nothing
in a store makes geometry of its own. A store is valid if all its elements could be committed.
-/
namespace RegionDrawing

variable {α : Type}

def Store.EachShape (P : Shape α → Prop) (store : Store α) : Prop :=
  ∀ asset, ∀ element ∈ store.elements asset, P element.shape

namespace Store.EachShape

variable {P : Shape α → Prop} {store : Store α}

theorem setElements (h : store.EachShape P) (asset : String) {elements : List (Element α)}
    (helements : ∀ element ∈ elements, P element.shape) :
    (store.setElements asset elements).EachShape P := by
  intro name element hmem
  rw [elements_setElements] at hmem
  split at hmem
  · exact helements element hmem
  · exact h name element hmem

theorem insert (h : store.EachShape P) (moment : Moment) (asset : String) {draft : Draft α}
    (hdraft : P draft.shape) : (store.insert moment asset draft).1.EachShape P := by
  apply h.setElements asset
  intro element hmem
  rcases List.mem_append.mp hmem with hmem | hmem
  · exact h asset element hmem
  · rw [List.mem_singleton.mp hmem]
    exact hdraft

theorem updateShape (h : store.EachShape P) (moment : Moment) (asset : String) (id : ElementId)
    {shape : Shape α} (hshape : P shape) :
    (store.updateShape moment asset id shape).1.EachShape P := by
  rcases store.updateShape_cases moment asset id shape with ⟨_, _, _, heq⟩ | ⟨_, heq⟩
  · rw [heq]
    apply h.setElements asset
    intro element hmem
    rcases mem_editElement hmem with hmem | ⟨_, _, rfl⟩
    · exact h asset element hmem
    · exact hshape
  · rw [heq]
    exact h

theorem patch (h : store.EachShape P) (moment : Moment) (asset : String) (id : ElementId)
    (patch : Patch α) : (store.patch moment asset id patch).1.EachShape P := by
  rcases store.patch_cases moment asset id patch with heq | heq
  · rw [heq]
    apply h.setElements asset
    intro element hmem
    rcases mem_editElement hmem with hmem | ⟨old, hold, rfl⟩
    · exact h asset element hmem
    · exact h asset old (Element.mem_of_withId? hold)
  · rw [heq]
    exact h

theorem remove (h : store.EachShape P) (asset : String) (id : ElementId) :
    (store.remove asset id).1.EachShape P := by
  intro name element hmem
  exact h name element ((store.elements_remove_sublist asset id name).subset hmem)

theorem clear (h : store.EachShape P) (asset : String) :
    (store.clear asset).1.EachShape P := by
  intro name element hmem
  rw [elements_clear] at hmem
  split at hmem
  · cases hmem
  · exact h name element hmem

end Store.EachShape

/-- Whether every stored element could be committed. -/
def Store.Valid [Scalar α] (store : Store α) : Prop :=
  ∀ asset, ∀ element ∈ store.elements asset, element.shape.isValid

theorem Store.Valid.eachShape [Scalar α] {store : Store α} (h : store.Valid) :
    store.EachShape fun shape => shape.isValid := h

/-- Whether no two elements of one asset share an id. -/
def Store.Distinct (store : Store α) : Prop :=
  ∀ asset, ((store.elements asset).map (·.id)).Nodup

namespace Store.Distinct

variable {store : Store α}

theorem setElements (h : store.Distinct) (asset : String) {elements : List (Element α)}
    (helements : (elements.map (·.id)).Nodup) : (store.setElements asset elements).Distinct := by
  intro name
  rw [elements_setElements]
  split
  · exact helements
  · exact h name

theorem insert (h : store.Distinct) {moment : Moment} {asset : String}
    (hfresh : ∀ element ∈ store.elements asset, element.id ≠ moment.id) (draft : Draft α) :
    (store.insert moment asset draft).1.Distinct := by
  apply h.setElements asset
  rw [List.map_append, List.nodup_append]
  refine ⟨h asset, by simp, ?_⟩
  intro id hid other hother
  obtain ⟨element, hmem, rfl⟩ := List.mem_map.mp hid
  rw [List.map_singleton, List.mem_singleton] at hother
  exact hother ▸ hfresh element hmem

theorem updateShape (h : store.Distinct) (moment : Moment) (asset : String) (id : ElementId)
    (shape : Shape α) : (store.updateShape moment asset id shape).1.Distinct := by
  intro name
  rw [ids_updateShape]
  exact h name

theorem patch (h : store.Distinct) (moment : Moment) (asset : String) (id : ElementId)
    (patch : Patch α) : (store.patch moment asset id patch).1.Distinct := by
  rcases store.patch_cases moment asset id patch with heq | heq
  · rw [heq]
    apply h.setElements asset
    rw [map_id_editElement (id_repatched patch moment.now)]
    exact h asset
  · rw [heq]
    exact h

theorem remove (h : store.Distinct) (asset : String) (id : ElementId) :
    (store.remove asset id).1.Distinct := by
  intro name
  exact (h name).sublist ((store.elements_remove_sublist asset id name).map _)

theorem clear (h : store.Distinct) (asset : String) : (store.clear asset).1.Distinct := by
  intro name
  rw [elements_clear]
  split
  · exact List.nodup_nil
  · exact h name

end Store.Distinct

end RegionDrawing
