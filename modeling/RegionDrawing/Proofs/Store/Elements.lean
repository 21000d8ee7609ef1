import RegionDrawing.Proofs.Lists
import RegionDrawing.Store

/-! # The elements of a store after each operation

Every operation writes the elements of one asset. What it leaves there is said as a list, so that
no later proof has to look at how assets are kept; the elements of other assets are untouched.
-/
namespace RegionDrawing

variable {α : Type}

def Element.withId? (elements : List (Element α)) (id : ElementId) : Option (Element α) :=
  elements.find? fun element => element.id = id

theorem Element.id_of_withId? {elements : List (Element α)} {id : ElementId} {element : Element α}
    (h : withId? elements id = some element) : element.id = id := by
  simpa using List.find?_some h

theorem Element.mem_of_withId? {elements : List (Element α)} {id : ElementId} {element : Element α}
    (h : withId? elements id = some element) : element ∈ elements := List.mem_of_find?_eq_some h

theorem Element.withId?_isSome_iff {elements : List (Element α)} {id : ElementId} :
    (withId? elements id).isSome ↔ ∃ element ∈ elements, element.id = id := by
  simp [withId?, List.find?_isSome]

theorem Element.withId?_of_mem {elements : List (Element α)} (h : (elements.map (·.id)).Nodup)
    {element : Element α} (hmem : element ∈ elements) :
    withId? elements element.id = some element := (find?_key_eq_some_iff h).mpr ⟨hmem, rfl⟩

theorem Element.id_ne_of_withId?_eq_none {elements : List (Element α)} {id : ElementId}
    (h : withId? elements id = none) {element : Element α} (hmem : element ∈ elements) :
    element.id ≠ id := by
  simpa using List.find?_eq_none.mp h element hmem

theorem Element.withId?_append {elements : List (Element α)} {id : ElementId} {element : Element α}
    (h : withId? elements id = some element) (further : List (Element α)) :
    withId? (elements ++ further) id = some element := by
  simp only [withId?] at h
  simp [withId?, List.find?_append, h]

namespace Store

theorem lookup_putAsset (asset name : String) (elements : List (Element α))
    (assets : List (String × List (Element α))) :
    (putAsset asset elements assets).lookup name =
      if name = asset then some elements else assets.lookup name := by
  induction assets with
  | nil =>
    by_cases h : name = asset
    · simp [putAsset, h]
    · have hb : (name == asset) = false := by simpa using h
      simp [putAsset, List.lookup_cons, h, hb]
  | cons entry rest ih =>
    obtain ⟨other, old⟩ := entry
    by_cases hasset : other = asset
    · subst hasset
      by_cases h : name = other
      · simp [putAsset, h]
      · have hb : (name == other) = false := by simpa using h
        simp [putAsset, List.lookup_cons, h, hb]
    · by_cases h : name = other
      · have hn : ¬ name = asset := fun e => hasset (h.symm.trans e)
        simp [putAsset, hasset, h]
      · have hb : (name == other) = false := by simpa using h
        simp [putAsset, List.lookup_cons, hasset, hb, ih]

theorem elements_setElements (store : Store α) (asset name : String) (elements : List (Element α)) :
    (store.setElements asset elements).elements name =
      if name = asset then elements else store.elements name := by
  simp only [Store.elements, setElements, lookup_putAsset]
  split <;> rfl

@[simp] theorem elements_setElements_self (store : Store α) (asset : String)
    (elements : List (Element α)) :
    (store.setElements asset elements).elements asset = elements := by
  simp [elements_setElements]

theorem get?_eq_withId? (store : Store α) (asset : String) (id : ElementId) :
    store.get? asset id = Element.withId? (store.elements asset) id := rfl

theorem withId?_editElement {edit : Element α → Element α} (hedit : ∀ e, (edit e).id = e.id)
    (id other : ElementId) (elements : List (Element α)) :
    Element.withId? (editElement id edit elements) other =
      (Element.withId? elements other).map fun e => if other = id then edit e else e := by
  induction elements with
  | nil => rfl
  | cons e rest ih =>
    simp only [Element.withId?] at ih ⊢
    by_cases ho : e.id = other
    · by_cases hid : e.id = id
      · simp [editElement, hid, hedit, ← ho]
      · have hne : ¬ other = id := fun h => hid (ho.trans h)
        simp [editElement, ho, hne]
    · by_cases hid : e.id = id
      · have hne : ¬ other = id := fun h => ho (hid.trans h.symm)
        have hne' : ¬ id = other := fun h => hne h.symm
        simp [editElement, hid, hedit, hne, hne']
      · simp [editElement, hid, ho, ih]

theorem editElement_of_withId? {id : ElementId} {elements : List (Element α)} {element : Element α}
    (h : Element.withId? elements id = some element) :
    ∃ before behind, elements = before ++ element :: behind ∧
      (∀ other ∈ before, other.id ≠ id) ∧
      ∀ edit, editElement id edit elements = before ++ edit element :: behind := by
  induction elements with
  | nil => cases h
  | cons first rest ih =>
    rw [Element.withId?, List.find?_cons] at h
    by_cases hid : first.id = id
    · simp only [hid, decide_true, Option.some.injEq] at h
      cases h
      exact ⟨[], rest, rfl, nofun, fun edit => by simp [editElement, hid]⟩
    · simp only [hid, decide_false] at h
      obtain ⟨before, behind, rfl, hbefore, hedit⟩ := ih h
      refine ⟨first :: before, behind, rfl, ?_, fun edit => by simp [editElement, hid, hedit]⟩
      exact List.forall_mem_cons.mpr ⟨hid, hbefore⟩

theorem mem_editElement {edit : Element α → Element α} {id : ElementId}
    {elements : List (Element α)} {x : Element α} (hx : x ∈ editElement id edit elements) :
    x ∈ elements ∨ ∃ e, Element.withId? elements id = some e ∧ x = edit e := by
  induction elements with
  | nil => simp [editElement] at hx
  | cons e rest ih =>
    by_cases hid : e.id = id
    · simp only [editElement, hid, ↓reduceIte, List.mem_cons] at hx
      rcases hx with rfl | hx
      · exact .inr ⟨e, by simp [Element.withId?, hid], rfl⟩
      · exact .inl (List.mem_cons_of_mem _ hx)
    · simp only [editElement, hid, ↓reduceIte, List.mem_cons] at hx
      rcases hx with rfl | hx
      · exact .inl List.mem_cons_self
      · rcases ih hx with h | ⟨e', he', hxe⟩
        · exact .inl (List.mem_cons_of_mem _ h)
        · exact .inr ⟨e', by simpa [Element.withId?, hid] using he', hxe⟩

theorem map_id_editElement {edit : Element α → Element α} (hedit : ∀ e, (edit e).id = e.id)
    (id : ElementId) (elements : List (Element α)) :
    (editElement id edit elements).map (·.id) = elements.map (·.id) := by
  induction elements with
  | nil => rfl
  | cons e rest ih => by_cases hid : e.id = id <;> simp [editElement, hid, hedit, ih]

theorem editElement_editElement {edit further : Element α → Element α} {id : ElementId}
    (hedit : ∀ e, (edit e).id = e.id) (hfurther : ∀ e, further (edit e) = further e)
    (elements : List (Element α)) :
    editElement id further (editElement id edit elements) = editElement id further elements := by
  induction elements with
  | nil => rfl
  | cons e rest ih => by_cases hid : e.id = id <;> simp [editElement, hid, hedit, hfurther, ih]

theorem withId?_eraseP {id other : ElementId} (hne : other ≠ id) (elements : List (Element α)) :
    Element.withId? (elements.eraseP fun e => e.id = id) other =
      Element.withId? elements other := by
  induction elements with
  | nil => rfl
  | cons e rest ih =>
    simp only [Element.withId?] at ih ⊢
    by_cases hid : e.id = id
    · have ho : ¬ id = other := fun h => hne h.symm
      simp [hid, ho]
    · by_cases ho : e.id = other <;> simp [hid, ho, hne, ih]

theorem elements_insert (store : Store α) (moment : Moment) (asset name : String)
    (draft : Draft α) :
    (store.insert moment asset draft).1.elements name =
      if name = asset then store.elements asset ++ [(store.insert moment asset draft).2]
      else store.elements name := by
  simp only [insert, elements_setElements]

def reshaped (shape : Shape α) (now : Timestamp) (element : Element α) : Element α :=
  { element with shape, updatedAt := now }

@[simp] theorem id_reshaped (shape : Shape α) (now : Timestamp) (element : Element α) :
    (reshaped shape now element).id = element.id := rfl

/-- New geometry is taken over exactly if the element is there and keeps its kind. -/
theorem updateShape_cases (store : Store α) (moment : Moment) (asset : String) (id : ElementId)
    (shape : Shape α) :
    (∃ element, store.get? asset id = some element ∧ element.kind = shape.kind ∧
      store.updateShape moment asset id shape =
        (store.setElements asset
          (editElement id (reshaped shape moment.now) (store.elements asset)), true)) ∨
    ((∀ element, store.get? asset id = some element → element.kind ≠ shape.kind) ∧
      store.updateShape moment asset id shape = (store, false)) := by
  cases hget : store.get? asset id with
  | none => exact .inr ⟨by simp, by simp [updateShape, hget]⟩
  | some element =>
    by_cases hkind : element.kind = shape.kind
    · exact .inl ⟨element, rfl, hkind, by simp only [updateShape, hget, hkind, ↓reduceIte]; rfl⟩
    · exact .inr ⟨by simpa using hkind, by simp [updateShape, hget, hkind]⟩

theorem get?_updateShape {store : Store α} {asset : String} {id : ElementId}
    {element : Element α} {shape : Shape α} (hget : store.get? asset id = some element)
    (hkind : element.kind = shape.kind) (moment : Moment) :
    (store.updateShape moment asset id shape).1.get? asset id =
      some (reshaped shape moment.now element) := by
  rcases store.updateShape_cases moment asset id shape with ⟨_, _, _, heq⟩ | ⟨hnone, _⟩
  · rw [heq, get?_eq_withId?, elements_setElements_self,
      withId?_editElement (id_reshaped shape moment.now)]
    rw [get?_eq_withId?] at hget
    simp [hget]
  · exact absurd hkind (hnone element hget)

/-- New geometry of the same kind is put where the element stands, and nothing else moves. -/
theorem exists_elements_updateShape {store : Store α} {asset : String} {id : ElementId}
    {element : Element α} {shape : Shape α} (hget : store.get? asset id = some element)
    (hkind : element.kind = shape.kind) (moment : Moment) :
    (∃ before behind, store.elements asset = before ++ element :: behind ∧
      (∀ other ∈ before, other.id ≠ id) ∧
      (store.updateShape moment asset id shape).1.elements asset =
        before ++ reshaped shape moment.now element :: behind) ∧
    ∀ name, name ≠ asset →
      (store.updateShape moment asset id shape).1.elements name = store.elements name := by
  rcases store.updateShape_cases moment asset id shape with ⟨_, _, _, heq⟩ | ⟨hnone, _⟩
  · obtain ⟨before, behind, helements, hbefore, hedit⟩ := editElement_of_withId? hget
    rw [heq]
    refine ⟨⟨before, behind, helements, hbefore, ?_⟩, fun name hname => ?_⟩
    · rw [elements_setElements_self, hedit]
    · rw [elements_setElements, if_neg hname]
  · exact absurd hkind (hnone element hget)

theorem get?_updateShape_of_ne {id other : ElementId} (hne : other ≠ id) (store : Store α)
    (moment : Moment) (asset : String) (shape : Shape α) :
    (store.updateShape moment asset id shape).1.get? asset other = store.get? asset other := by
  rcases store.updateShape_cases moment asset id shape with ⟨_, _, _, heq⟩ | ⟨_, heq⟩
  · rw [heq, get?_eq_withId?, elements_setElements_self,
      withId?_editElement (id_reshaped shape moment.now), get?_eq_withId?]
    simp [hne]
  · rw [heq]

theorem ids_updateShape (store : Store α) (moment : Moment) (asset : String) (id : ElementId)
    (shape : Shape α) (name : String) :
    ((store.updateShape moment asset id shape).1.elements name).map (·.id) =
      (store.elements name).map (·.id) := by
  rcases store.updateShape_cases moment asset id shape with ⟨_, _, _, heq⟩ | ⟨_, heq⟩
  · rw [heq, elements_setElements]
    split
    · next hname => rw [hname, map_id_editElement (id_reshaped shape moment.now)]
    · rfl
  · rw [heq]

def repatched (patch : Patch α) (now : Timestamp) (element : Element α) : Element α :=
  { element.patched patch with updatedAt := now }

@[simp] theorem id_repatched (patch : Patch α) (now : Timestamp) (element : Element α) :
    (repatched patch now element).id = element.id := rfl

theorem patch_cases (store : Store α) (moment : Moment) (asset : String) (id : ElementId)
    (patch : Patch α) :
    store.patch moment asset id patch =
        (store.setElements asset
          (editElement id (repatched patch moment.now) (store.elements asset)), true) ∨
      store.patch moment asset id patch = (store, false) := by
  cases hget : store.get? asset id with
  | none => exact .inr (by simp [Store.patch, hget])
  | some element => exact .inl (by simp only [Store.patch, hget]; rfl)

theorem remove_cases (store : Store α) (asset : String) (id : ElementId) :
    (∃ element, store.get? asset id = some element ∧ store.remove asset id =
      (store.setElements asset ((store.elements asset).eraseP fun e => e.id = id),
        some element)) ∨
    (store.get? asset id = none ∧ store.remove asset id = (store, none)) := by
  cases hget : store.get? asset id with
  | none => exact .inr ⟨rfl, by simp [remove, hget]⟩
  | some element => exact .inl ⟨element, rfl, by simp only [remove, hget]⟩

theorem elements_remove_sublist (store : Store α) (asset : String) (id : ElementId)
    (name : String) :
    ((store.remove asset id).1.elements name).Sublist (store.elements name) := by
  rcases store.remove_cases asset id with ⟨_, _, heq⟩ | ⟨_, heq⟩
  · rw [heq, elements_setElements]
    split
    · next hname =>
      rw [hname]
      exact List.eraseP_sublist
    · exact .refl _
  · simp only [heq, List.Sublist.refl]

theorem lookup_filter_ne (asset name : String) (assets : List (String × List (Element α))) :
    (assets.filter fun entry => entry.1 ≠ asset).lookup name =
      if name = asset then none else assets.lookup name := by
  induction assets with
  | nil => simp
  | cons entry rest ih =>
    obtain ⟨other, old⟩ := entry
    simp only [ne_eq, decide_not] at ih
    by_cases hasset : other = asset
    · subst hasset
      by_cases h : name = other
      · simpa [h] using ih
      · have hb : (name == other) = false := by simpa using h
        simpa [List.lookup_cons, h, hb] using ih
    · by_cases h : name = other
      · have hn : ¬ name = asset := fun e => hasset (h.symm.trans e)
        simp [hasset, h]
      · have hb : (name == other) = false := by simpa using h
        simp [List.lookup_cons, hasset, hb, ih]

theorem elements_clear (store : Store α) (asset name : String) :
    (store.clear asset).1.elements name = if name = asset then [] else store.elements name := by
  simp only [clear, Store.elements, lookup_filter_ne]
  split <;> rfl

end Store

end RegionDrawing
