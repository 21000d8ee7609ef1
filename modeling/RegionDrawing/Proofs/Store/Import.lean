import RegionDrawing.Store

/-! # What a document has to hold

A document is taken over exactly if its elements could have been committed next to each other.
Otherwise the first element that could not is reported, and an element with two faults is reported
for its geometry.
-/
namespace RegionDrawing

variable {α : Type} [Scalar α]

/-- Whether elements can make up an asset: their geometry is valid and their ids are distinct. -/
def Committable (elements : List (Element α)) : Prop :=
  (∀ element ∈ elements, element.shape.isValid) ∧ (elements.map (·.id)).Nodup

/-- Whether a fault is the one for which an element cannot stand behind elements with given ids. -/
def Element.HasFault (element : Element α) (ids : List ElementId) (fault : ElementError) : Prop :=
  (element.shape.isValid = false ∧ fault = .invalidGeometry element.kind element.id) ∨
    (element.shape.isValid ∧ element.id ∈ ids ∧ fault = .duplicateId element.id)

/-- Whether a fault is that of the first element that cannot stand behind the ones before it. -/
def FirstFault (elements : List (Element α)) (fault : ElementError) : Prop :=
  ∃ before element after, elements = before ++ element :: after ∧ Committable before ∧
    element.HasFault (before.map (·.id)) fault

namespace Store

theorem importFault?_cons_eq_none_iff {seen : List ElementId} {element : Element α}
    {rest : List (Element α)} :
    importFault? seen (element :: rest) = none ↔
      element.shape.isValid ∧ element.id ∉ seen ∧
        importFault? (element.id :: seen) rest = none := by
  rw [importFault?]
  by_cases hvalid : element.shape.isValid
  · by_cases hseen : element.id ∈ seen <;> simp [hvalid, hseen]
  · simp [hvalid]

theorem importFault?_eq_none_iff {seen : List ElementId} {elements : List (Element α)} :
    importFault? seen elements = none ↔
      (∀ element ∈ elements, element.shape.isValid ∧ element.id ∉ seen) ∧
        (elements.map (·.id)).Nodup := by
  induction elements generalizing seen with
  | nil => simp [importFault?]
  | cons element rest ih =>
    rw [importFault?_cons_eq_none_iff, ih, List.forall_mem_cons, List.map_cons, List.nodup_cons]
    simp only [List.mem_cons, not_or, List.mem_map, not_exists, not_and]
    constructor
    · rintro ⟨hvalid, hseen, hrest, hnodup⟩
      have hdistinct := fun other hmem => (hrest other hmem).2.1
      exact ⟨⟨⟨hvalid, hseen⟩, fun other hmem => ⟨(hrest other hmem).1, (hrest other hmem).2.2⟩⟩,
        hdistinct, hnodup⟩
    · rintro ⟨⟨⟨hvalid, hseen⟩, hrest⟩, hdistinct, hnodup⟩
      exact ⟨hvalid, hseen, fun other hmem =>
        ⟨(hrest other hmem).1, hdistinct other hmem, (hrest other hmem).2⟩, hnodup⟩

theorem importFault?_eq_none_iff_committable {elements : List (Element α)} :
    importFault? [] elements = none ↔ Committable elements := by
  rw [importFault?_eq_none_iff, Committable]
  simp only [List.not_mem_nil, not_false_eq_true, and_true]

theorem importFault?_cons_eq_some_iff {seen : List ElementId} {element : Element α}
    {rest : List (Element α)} {fault : ElementError} :
    importFault? seen (element :: rest) = some fault ↔
      element.HasFault seen fault ∨
        (element.shape.isValid ∧ element.id ∉ seen ∧
          importFault? (element.id :: seen) rest = some fault) := by
  rw [importFault?, Element.HasFault]
  by_cases hvalid : element.shape.isValid
  · by_cases hseen : element.id ∈ seen
    · simp [hvalid, hseen, eq_comm]
    · simp [hvalid, hseen]
  · simp [hvalid, eq_comm]

theorem importFault?_eq_some_iff {seen : List ElementId} {elements : List (Element α)}
    {fault : ElementError} :
    importFault? seen elements = some fault ↔
      ∃ before element after, elements = before ++ element :: after ∧
        importFault? seen before = none ∧
        element.HasFault ((before.map (·.id)).reverse ++ seen) fault := by
  induction elements generalizing seen with
  | nil => simp [importFault?]
  | cons first rest ih =>
    rw [importFault?_cons_eq_some_iff, ih]
    constructor
    · rintro (hfirst | ⟨hvalid, hseen, before, element, after, rfl, hbefore, hfault⟩)
      · exact ⟨[], first, rest, rfl, rfl, hfirst⟩
      · refine ⟨first :: before, element, after, rfl, ?_, ?_⟩
        · exact importFault?_cons_eq_none_iff.mpr ⟨hvalid, hseen, hbefore⟩
        · simpa using hfault
    · rintro ⟨before, element, after, heq, hbefore, hfault⟩
      cases before with
      | nil =>
        cases heq
        exact .inl hfault
      | cons _ before =>
        cases heq
        obtain ⟨hvalid, hseen, hrest⟩ := importFault?_cons_eq_none_iff.mp hbefore
        exact .inr ⟨hvalid, hseen, before, element, after, rfl, hrest, by simpa using hfault⟩

theorem importFault?_eq_some_iff_firstFault {elements : List (Element α)} {fault : ElementError} :
    importFault? [] elements = some fault ↔ FirstFault elements fault := by
  rw [importFault?_eq_some_iff, FirstFault]
  simp only [importFault?_eq_none_iff_committable, Element.HasFault, List.append_nil,
    List.mem_reverse]

end Store

end RegionDrawing

namespace RegionDrawing.Store

variable {α : Type} [WrittenScalar α] {text : String} {elements : List (Element α)}

/-- A text is read exactly if it has the form of a document and its elements are committable. -/
theorem readElements_eq_ok_iff :
    readElements text = .ok elements ↔
      Element.listOfText? text = some elements ∧ Committable elements := by
  rw [readElements]
  cases Element.listOfText? (α := α) text with
  | none => simp
  | some found =>
    dsimp only
    rw [← importFault?_eq_none_iff_committable]
    cases hfault : importFault? [] found with
    | none =>
      simp only [Except.ok.injEq, Option.some.injEq]
      exact ⟨fun h => ⟨h, h ▸ hfault⟩, fun h => h.1⟩
    | some fault =>
      simp only [reduceCtorEq, Option.some.injEq, false_iff, not_and]
      rintro rfl
      rw [hfault]
      exact nofun

theorem readElements_eq_error_iff (h : Element.listOfText? text = some elements)
    {fault : ElementError} :
    readElements (α := α) text = .error fault ↔ FirstFault elements fault := by
  simp only [readElements, h]
  rw [← importFault?_eq_some_iff_firstFault]
  cases importFault? [] elements with
  | none => exact ⟨nofun, nofun⟩
  | some found => simp only [Except.error.injEq, Option.some.injEq]

theorem importText_of_read (store : Store α) (asset : String)
    (h : readElements text = .ok elements) :
    store.importText asset text = (store.setElements asset elements, .ok elements.length) := by
  rw [importText, h]

theorem importText_of_fault (store : Store α) (asset : String) {fault : ElementError}
    (h : readElements (α := α) text = .error fault) :
    store.importText asset text = (store, .error fault) := by
  rw [importText, h]

end RegionDrawing.Store
