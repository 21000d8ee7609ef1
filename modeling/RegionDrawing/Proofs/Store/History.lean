import Mathlib.Data.List.Basic
import RegionDrawing.Binary64.Scalar
import RegionDrawing.Proofs.Store.AssetNames

/-! # What a store holds behind a run

The elements of an asset are those that have come to it since it was last cleared or filled from a
document, in the order in which they came and without the removed ones. What an element has become
can be read off the calls behind its arrival: each of its fields is as the last call left it that
wrote the field.
-/
namespace RegionDrawing

variable {α : Type}

namespace StoreCall

/-- Whether a call does away with all that an asset held. -/
def resets [WrittenScalar α] (asset : String) : StoreCall α → Bool
  | .clear other => other = asset
  | .importText other text =>
    other = asset && (Store.readElements text : Except ElementError (List (Element α))).isOk
  | _ => false

def removes (asset : String) (id : ElementId) : StoreCall α → Bool
  | .remove other target => other = asset && target = id
  | _ => false

def shapeFor? (asset : String) (id : ElementId) (kind : ShapeKind) :
    StoreCall α → Option (Shape α)
  | .updateShape _ other target shape =>
    if other = asset ∧ target = id ∧ shape.kind = kind then some shape else none
  | _ => none

def patchFor? (asset : String) (id : ElementId) : StoreCall α → Option (Patch α)
  | .patch _ other target edit => if other = asset ∧ target = id then some edit else none
  | _ => none

def timeFor? (asset : String) (id : ElementId) (kind : ShapeKind) :
    StoreCall α → Option Timestamp
  | .updateShape moment other target shape =>
    if other = asset ∧ target = id ∧ shape.kind = kind then some moment.now else none
  | .patch moment other target _patch =>
    if other = asset ∧ target = id then some moment.now else none
  | _ => none

end StoreCall

namespace Element

/-- What calls make of an element: each field is as the last call left it that wrote the field. -/
def behind (asset : String) (calls : List (StoreCall α)) (element : Element α) : Element α :=
  let patches := calls.filterMap (·.patchFor? asset element.id)
  { element with
    label := (patches.filterMap (·.label)).getLastD element.label
    note := (patches.filterMap (·.note)).getLastD element.note
    style := (patches.filterMap (·.style)).getLastD element.style
    updatedAt :=
      (calls.filterMap (·.timeFor? asset element.id element.kind)).getLastD element.updatedAt
    shape := (calls.filterMap (·.shapeFor? asset element.id element.kind)).getLastD element.shape }

/-- What calls make of an element, unless one of them removes it. -/
def behind? (asset : String) (calls : List (StoreCall α)) (element : Element α) :
    Option (Element α) :=
  if calls.any (·.removes asset element.id) then none else some (element.behind asset calls)

theorem kind_behind (asset : String) (calls : List (StoreCall α)) (element : Element α) :
    (element.behind asset calls).kind = element.kind := by
  have hmem : ∀ shape ∈ calls.filterMap (·.shapeFor? asset element.id element.kind),
      shape.kind = element.kind := by
    intro shape hshape
    obtain ⟨call, _, hcall⟩ := List.mem_filterMap.mp hshape
    cases call with
    | updateShape moment other target new =>
      simp only [StoreCall.shapeFor?, Option.ite_none_right_eq_some, Option.some.injEq] at hcall
      obtain ⟨⟨_, _, hkind⟩, rfl⟩ := hcall
      exact hkind
    | insert | patch | remove | clear | importText => cases hcall
  rw [kind, behind]
  generalize calls.filterMap (·.shapeFor? asset element.id element.kind) = shapes at hmem
  change (shapes.getLastD element.shape).kind = element.kind
  rw [List.getLastD_eq_getLast?]
  cases hlast : shapes.getLast? with
  | none => rfl
  | some shape => exact hmem shape (List.mem_of_getLast? hlast)

theorem behind_append (asset : String) (calls further : List (StoreCall α)) (element : Element α) :
    element.behind asset (calls ++ further) = (element.behind asset calls).behind asset further := by
  have hkind := element.kind_behind asset calls
  rw [behind.eq_def asset further, hkind]
  simp only [behind, List.filterMap_append, getLastD_append]

theorem behind?_append (asset : String) (calls further : List (StoreCall α))
    (element : Element α) :
    element.behind? asset (calls ++ further) =
      (element.behind? asset calls).bind fun changed => changed.behind? asset further := by
  simp only [behind?, List.any_append, behind_append]
  cases calls.any (·.removes asset element.id) with
  | true => rfl
  | false => rfl

theorem behind?_updateShape (asset : String) (moment : Moment) (id : ElementId) (shape : Shape α)
    (element : Element α) :
    element.behind? asset [.updateShape moment asset id shape] =
      some (if element.id = id ∧ element.kind = shape.kind
        then Store.reshaped shape moment.now element else element) := by
  by_cases h : element.id = id ∧ element.kind = shape.kind
  · simp [behind?, behind, StoreCall.removes, StoreCall.shapeFor?, StoreCall.patchFor?,
      StoreCall.timeFor?, Store.reshaped, h]
  · have h' : ¬ (id = element.id ∧ shape.kind = element.kind) := fun ⟨hid, hkind⟩ =>
      h ⟨hid.symm, hkind.symm⟩
    simp [behind?, behind, StoreCall.removes, StoreCall.shapeFor?, StoreCall.patchFor?,
      StoreCall.timeFor?, h, h']

theorem behind?_patch (asset : String) (moment : Moment) (id : ElementId) (patch : Patch α)
    (element : Element α) :
    element.behind? asset [.patch moment asset id patch] =
      some (if element.id = id then Store.repatched patch moment.now element else element) := by
  by_cases h : element.id = id
  · cases patch with
    | mk label note style =>
      cases label <;> cases note <;> cases style <;>
        simp [behind?, behind, StoreCall.removes, StoreCall.shapeFor?, StoreCall.patchFor?,
          StoreCall.timeFor?, Store.repatched, patched, h]
  · have h' : ¬ id = element.id := fun hid => h hid.symm
    simp [behind?, behind, StoreCall.removes, StoreCall.shapeFor?, StoreCall.patchFor?,
      StoreCall.timeFor?, h, h']

theorem behind?_remove (asset : String) (id : ElementId) (element : Element α) :
    element.behind? asset [.remove asset id] =
      if element.id = id then none else some element := by
  by_cases h : element.id = id
  · simp [behind?, StoreCall.removes, h]
  · have h' : ¬ id = element.id := fun hid => h hid.symm
    simp [behind?, behind, StoreCall.removes, StoreCall.shapeFor?, StoreCall.patchFor?,
      StoreCall.timeFor?, h, h']

theorem behind?_of_ne {asset : String} {call : StoreCall α} (h : call.asset ≠ asset)
    (element : Element α) : element.behind? asset [call] = some element := by
  cases call <;> simp only [StoreCall.asset] at h <;>
    simp [behind?, behind, StoreCall.removes, StoreCall.shapeFor?, StoreCall.patchFor?,
      StoreCall.timeFor?, h]

end Element

namespace Store

/-- In an asset without repeated ids an edit concerns just the element with the id. -/
theorem editElement_eq_map {elements : List (Element α)} (h : (elements.map (·.id)).Nodup)
    (id : ElementId) (edit : Element α → Element α) :
    editElement id edit elements = elements.map fun e => if e.id = id then edit e else e := by
  induction elements with
  | nil => rfl
  | cons e rest ih =>
    obtain ⟨hfirst, hrest⟩ := List.nodup_cons.mp h
    rw [editElement, List.map_cons]
    split
    · next heq =>
      have hsame : rest.map (fun e => if e.id = id then edit e else e) = rest := by
        refine (List.map_congr_left fun other hother => if_neg fun hid => ?_).trans (List.map_id _)
        exact hfirst (List.mem_map.mpr ⟨other, hother, hid.trans heq.symm⟩)
      rw [hsame]
    · rw [ih hrest]

theorem eraseP_eq_filter {elements : List (Element α)} (h : (elements.map (·.id)).Nodup)
    (id : ElementId) :
    (elements.eraseP fun e => e.id = id) = elements.filter fun e => e.id ≠ id := by
  induction elements with
  | nil => rfl
  | cons e rest ih =>
    obtain ⟨hfirst, hrest⟩ := List.nodup_cons.mp h
    by_cases heq : e.id = id
    · have hsame : (rest.filter fun e => e.id ≠ id) = rest := by
        refine List.filter_eq_self.mpr fun other hother => decide_eq_true fun hid => ?_
        exact hfirst (List.mem_map.mpr ⟨other, hother, hid.trans heq.symm⟩)
      simpa [heq] using hsame.symm
    · simpa [heq] using ih hrest

theorem filterMap_behind?_eq_self {asset : String} {call : StoreCall α}
    {elements : List (Element α)}
    (h : ∀ element ∈ elements, element.behind? asset [call] = some element) :
    elements.filterMap (Element.behind? asset [call]) = elements := by
  rw [List.filterMap_congr h, List.filterMap_some]

variable {store : Store α} {asset : String}

theorem elements_updateShape (h : ((store.elements asset).map (·.id)).Nodup) (moment : Moment)
    (id : ElementId) (shape : Shape α) :
    (store.updateShape moment asset id shape).1.elements asset =
      (store.elements asset).filterMap
        (Element.behind? asset [.updateShape moment asset id shape]) := by
  rcases store.updateShape_cases moment asset id shape with
    ⟨element, hget, hkind, heq⟩ | ⟨hnone, heq⟩
  · rw [heq, elements_setElements_self, editElement_eq_map h, ← List.filterMap_eq_map]
    refine List.filterMap_congr fun other hother => ?_
    have hother_kind : other.id = id → other.kind = shape.kind := by
      intro hid
      have hsame := Element.withId?_of_mem h hother
      rw [hid, ← get?_eq_withId?, hget] at hsame
      exact Option.some.inj hsame ▸ hkind
    rw [Element.behind?_updateShape]
    by_cases hid : other.id = id
    · simp [hid, hother_kind hid]
    · simp [hid]
  · rw [heq, filterMap_behind?_eq_self]
    intro element hmem
    have hother : ¬ (element.id = id ∧ element.kind = shape.kind) := fun ⟨hid, hkind⟩ =>
      hnone element (hid ▸ Element.withId?_of_mem h hmem) hkind
    rw [Element.behind?_updateShape, if_neg hother]

theorem elements_patch (h : ((store.elements asset).map (·.id)).Nodup) (moment : Moment)
    (id : ElementId) (patch : Patch α) :
    (store.patch moment asset id patch).1.elements asset =
      (store.elements asset).filterMap
        (Element.behind? asset [.patch moment asset id patch]) := by
  cases hget : store.get? asset id with
  | some _ =>
    have hpatched : (store.patch moment asset id patch).1.elements asset =
        editElement id (repatched patch moment.now) (store.elements asset) := by
      simp only [Store.patch, hget, elements_setElements_self]
      rfl
    rw [hpatched, editElement_eq_map h, ← List.filterMap_eq_map]
    exact List.filterMap_congr fun element _ => (element.behind?_patch asset moment id patch).symm
  | none =>
    have hpatched : (store.patch moment asset id patch).1 = store := by
      simp only [Store.patch, hget]
    rw [hpatched, filterMap_behind?_eq_self]
    intro element hmem
    rw [Element.behind?_patch, if_neg (Element.id_ne_of_withId?_eq_none hget hmem)]

theorem elements_remove (h : ((store.elements asset).map (·.id)).Nodup) (id : ElementId) :
    (store.remove asset id).1.elements asset =
      (store.elements asset).filterMap (Element.behind? asset [.remove asset id]) := by
  have hfilter : (store.elements asset).filterMap (Element.behind? asset [.remove asset id]) =
      (store.elements asset).filter fun element => element.id ≠ id := by
    rw [← List.filterMap_eq_filter]
    refine List.filterMap_congr fun element _ => ?_
    simp [Element.behind?_remove, Option.guard]
  rw [hfilter]
  rcases store.remove_cases asset id with ⟨_, _, heq⟩ | ⟨hget, heq⟩
  · rw [heq, elements_setElements_self, eraseP_eq_filter h]
  · rw [heq, List.filter_eq_self.mpr]
    intro element hmem
    exact decide_eq_true (Element.id_ne_of_withId?_eq_none hget hmem)

variable [WrittenScalar α]

def arriving (store : Store α) (asset : String) : StoreCall α → List (Element α)
  | .insert moment other draft =>
    if other = asset then [(store.insert moment other draft).2] else []
  | .importText other text =>
    match readElements text with
    | .ok elements => if other = asset then elements else []
    | .error _ => []
  | _ => []

/-- The elements that a run brings to an asset and does not sweep away later by clearing the asset
or by filling it from a document, in order and each with the calls behind its arrival. -/
def arrivals (asset : String) : Store α → List (StoreCall α) →
    List (Element α × List (StoreCall α))
  | _, [] => []
  | store, call :: later =>
    (if later.any (·.resets asset) then [] else (store.arriving asset call).map (·, later)) ++
      arrivals asset (store.after call) later

/-- The arrivals begin with what the last call brought that did away with all the others. -/
theorem arrivals_of_last_reset (store : Store α) (asset : String) (earlier : List (StoreCall α))
    {call : StoreCall α} (hcall : call.resets asset) {later : List (StoreCall α)}
    (hlater : later.any (·.resets asset) = false) :
    arrivals asset store (earlier ++ call :: later) =
      ((store.run earlier).arriving asset call).map (·, later) ++
        arrivals asset ((store.run earlier).after call) later := by
  induction earlier generalizing store with
  | nil =>
    rw [List.nil_append, arrivals, hlater, if_neg Bool.false_ne_true]
    rfl
  | cons first earlier ih =>
    have hswept : (earlier ++ call :: later).any (·.resets asset) = true := by
      simp [List.any_append, hcall]
    rw [List.cons_append, arrivals, hswept, if_pos rfl, List.nil_append, ih]
    rfl

theorem resets_eq_false_of_ne {asset : String} {call : StoreCall α} (h : call.asset ≠ asset) :
    call.resets asset = false := by
  cases call with
  | clear other => exact decide_eq_false h
  | importText other text =>
    simp only [StoreCall.asset] at h
    simp [StoreCall.resets, h]
  | insert | updateShape | patch | remove => rfl

theorem arriving_of_ne (store : Store α) {asset : String} {call : StoreCall α}
    (h : call.asset ≠ asset) : store.arriving asset call = [] := by
  cases call with
  | insert moment other draft => exact if_neg h
  | importText other text =>
    rw [arriving]
    split
    · exact if_neg h
    · rfl
  | updateShape | patch | remove | clear => rfl

theorem elements_after (h : store.Distinct) (asset : String) (call : StoreCall α) :
    (store.after call).elements asset =
      (if call.resets asset then []
        else (store.elements asset).filterMap (Element.behind? asset [call])) ++
        store.arriving asset call := by
  by_cases hasset : call.asset = asset
  case neg =>
    have hsame : ∀ element ∈ store.elements asset, element.behind? asset [call] = some element :=
      fun element _ => element.behind?_of_ne hasset
    rw [elements_after_of_ne store (Ne.symm hasset), resets_eq_false_of_ne hasset,
      arriving_of_ne store hasset, filterMap_behind?_eq_self hsame, if_neg Bool.false_ne_true,
      List.append_nil]
  subst hasset
  cases call with
  | insert moment asset draft =>
    have hsame : ∀ element ∈ store.elements asset,
        element.behind? asset [.insert moment asset draft] = some element := fun _ _ => rfl
    simp [after, respond, elements_insert, StoreCall.asset, StoreCall.resets, arriving,
      filterMap_behind?_eq_self hsame]
  | updateShape moment asset id shape =>
    exact (elements_updateShape (h asset) moment id shape).trans (List.append_nil _).symm
  | patch moment asset id patch =>
    exact (elements_patch (h asset) moment id patch).trans (List.append_nil _).symm
  | remove asset id => exact (elements_remove (h asset) id).trans (List.append_nil _).symm
  | clear asset =>
    simp [after, respond, elements_clear, StoreCall.resets, arriving, StoreCall.asset]
  | importText asset text =>
    rw [after]
    rcases store.respond_importText_cases asset text with ⟨elements, hread, heq⟩ | ⟨hread, heq⟩
    · rw [heq]
      simp [StoreCall.asset, StoreCall.resets, arriving, hread, Except.isOk, Except.toBool]
    · have hsame : ∀ element ∈ store.elements asset,
          element.behind? asset [.importText asset text] = some element := fun _ _ => rfl
      rw [heq]
      cases hfault : (readElements text : Except ElementError (List (Element α))) with
      | ok elements => exact absurd hfault (hread elements)
      | error fault =>
        simp [StoreCall.asset, StoreCall.resets, arriving, hfault, Except.isOk, Except.toBool,
          filterMap_behind?_eq_self hsame]

/-- What a run makes of an asset: of what was there, unless the run sweeps it away, and of what has
come since. -/
theorem elements_run (h : store.Distinct) (asset : String) {calls : List (StoreCall α)}
    (hfresh : store.EachFresh calls) :
    (store.run calls).elements asset =
      (if calls.any (·.resets asset) then []
        else (store.elements asset).filterMap (Element.behind? asset calls)) ++
        (arrivals asset store calls).filterMap fun (element, later) =>
          element.behind? asset later := by
  induction calls generalizing store with
  | nil =>
    have hsame : ∀ elements : List (Element α),
        elements.filterMap (Element.behind? asset []) = elements := by
      intro elements
      exact List.filterMap_some
    simp [run, arrivals, hsame]
  | cons call later ih =>
    have hrest := ih (h.after hfresh.1) hfresh.2
    change ((store.after call).run later).elements asset = _
    rw [hrest, elements_after h asset call, arrivals, List.filterMap_append, List.any_cons]
    cases later.any (·.resets asset) with
    | true => simp
    | false =>
      have hbehind : ∀ element : Element α, element.behind? asset (call :: later) =
          (element.behind? asset [call]).bind (Element.behind? asset later) :=
        fun element => element.behind?_append asset [call] later
      cases call.resets asset with
      | true => simp [List.filterMap_map]
      | false => simp [List.filterMap_map, hbehind, List.filterMap_filterMap]

/-- What holds behind every run of a store that starts empty: the ids of an asset are distinct, its
elements are the arrivals that were not removed, each as the calls behind it left it, the arrivals
are what the last call that did away with all others brought and what has come since, the next call
concerns one asset and changes nothing if it is refused, and the names of the assets with elements
are listed in order. -/
theorem run_laws {calls : List (StoreCall α)} (hfresh : ({} : Store α).EachFresh calls) :
    let store := ({} : Store α).run calls
    (∀ asset, ((store.elements asset).map (·.id)).Nodup) ∧
      (∀ asset, store.elements asset =
        (arrivals asset {} calls).filterMap fun (element, later) => element.behind? asset later) ∧
      (∀ asset earlier call later, calls = earlier ++ call :: later → call.resets asset →
        (∀ next ∈ later, ¬ next.resets asset) →
        let start := ({} : Store α).run earlier
        arrivals asset {} calls =
          (start.arriving asset call).map (·, later) ++ arrivals asset (start.after call) later) ∧
      (∀ asset, ∀ arrival ∈ arrivals asset {} calls, ∀ element,
        arrival.1.behind? asset arrival.2 = some element →
          element.id = arrival.1.id ∧ element.kind = arrival.1.kind ∧
            element.createdAt = arrival.1.createdAt) ∧
      (∀ call, (∀ name ≠ call.asset, (store.after call).elements name = store.elements name) ∧
        ((store.respond call).2 = false → store.after call = store)) ∧
      store.assetNames.Pairwise (· < ·) ∧
      ∀ name, name ∈ store.assetNames ↔ store.elements name ≠ [] := by
  intro store
  have hdistinct : ({} : Store α).Distinct := fun _ => List.nodup_nil
  have hkeyed : ({} : Store α).Keyed := List.nodup_nil
  refine ⟨hdistinct.run hfresh, fun asset => ?_, ?_, ?_, ?_, pairwise_assetNames store,
    fun name => (hkeyed.run calls).mem_assetNames_iff⟩
  · rw [elements_run hdistinct asset hfresh]
    have hempty : ({} : Store α).elements asset = [] := rfl
    simp [hempty]
  · rintro asset earlier call later rfl hcall hlater
    exact arrivals_of_last_reset {} asset earlier hcall (List.any_eq_false.mpr hlater)
  · intro asset arrival _ element hbehind
    rw [Element.behind?, Option.ite_none_left_eq_some] at hbehind
    obtain ⟨_, heq⟩ := hbehind
    cases heq
    exact ⟨rfl, Element.kind_behind asset arrival.2 arrival.1, rfl⟩
  · intro call
    exact ⟨fun name hname => elements_after_of_ne store hname, after_of_refused⟩

/-- A run with an edit of a gone element, a document that cannot be read, geometry of another kind
and an asset that is emptied again. -/
def mixedCalls : List (StoreCall Float) :=
  let path : Shape Float := .path ⟨[⟨0.25, 0.5⟩, ⟨1, 0.25⟩], false⟩
  let ring : Shape Float := .polygon ⟨[⟨0.25, 0.5⟩, ⟨1, 0.25⟩, ⟨0, 0⟩], true⟩
  let other : ElementId := ⟨Vector.replicate 32 (Fin.last 15)⟩
  [.insert ⟨.nil, 1⟩ "first" { shape := path },
    .insert ⟨other, 2⟩ "first" { shape := ring, label := some "ring" },
    .patch ⟨.nil, 3⟩ "first" other { note := some (some "to do"), style := some (some {}) },
    .updateShape ⟨.nil, 4⟩ "first" other path,
    .importText "first" "[",
    .remove "first" .nil,
    .patch ⟨.nil, 5⟩ "first" .nil { label := some "gone" },
    .patch ⟨.nil, 6⟩ "first" other { note := some none },
    .insert ⟨.nil, 7⟩ "second" { shape := path },
    .remove "second" .nil]

theorem mixedCalls_laws :
    let store := ({} : Store Float).run mixedCalls
    ({} : Store Float).EachFresh mixedCalls ∧
      (store.elements "first").map (fun element => (element.label, element.note, element.style)) =
        [("ring", none, some {})] ∧
      ∀ name, name ∈ store.assetNames ↔ store.elements name ≠ [] := by
  intro store
  have hfresh : ({} : Store Float).EachFresh mixedCalls := by decide +kernel
  obtain ⟨_, hfirst, _, _, _, _, hnames⟩ := run_laws hfresh
  refine ⟨hfresh, ?_, hnames⟩
  rw [hfirst "first"]
  decide +kernel

end Store

end RegionDrawing
