import RegionDrawing.Proofs.Store.Calls

/-! # The names of the assets

An asset stays known to a store when its last element goes, but only the assets with elements are
listed, each of them once and in the order of the names.
-/
namespace RegionDrawing.Store

variable {α : Type}

theorem mem_insertName {name other : String} {names : List String} :
    other ∈ insertName name names ↔ other = name ∨ other ∈ names := by
  induction names with
  | nil => simp [insertName]
  | cons first rest ih =>
    rw [insertName]
    split
    · simp
    · split
      · next heq => simp [heq]
      · simp only [List.mem_cons, ih]
        exact or_left_comm

theorem pairwise_insertName (name : String) {names : List String}
    (h : names.Pairwise (· < ·)) : (insertName name names).Pairwise (· < ·) := by
  induction names with
  | nil => simp [insertName]
  | cons first rest ih =>
    obtain ⟨hfirst, hrest⟩ := List.pairwise_cons.mp h
    rw [insertName]
    split
    · next hlt =>
      refine List.pairwise_cons.mpr ⟨fun other hother => ?_, h⟩
      rcases List.mem_cons.mp hother with rfl | hother
      · exact hlt
      · exact String.lt_trans hlt (hfirst other hother)
    · next hlt =>
      split
      · exact h
      · next hne =>
        have hfirst_lt : first < name := by
          have hle : first ≤ name := String.not_lt.mp hlt
          exact String.not_le.mp fun hge => hne (String.le_antisymm hge hle)
        refine List.pairwise_cons.mpr ⟨fun other hother => ?_, ih hrest⟩
        rcases mem_insertName.mp hother with rfl | hother
        · exact hfirst_lt
        · exact hfirst other hother

theorem mem_foldl_insertName {other : String} (further : List String) {names : List String} :
    other ∈ further.foldl (fun names name => insertName name names) names ↔
      other ∈ further ∨ other ∈ names := by
  induction further generalizing names with
  | nil => simp
  | cons name further ih =>
    rw [List.foldl_cons, ih, mem_insertName, List.mem_cons]
    exact or_left_comm.trans or_assoc.symm

theorem pairwise_foldl_insertName (further : List String) {names : List String}
    (h : names.Pairwise (· < ·)) :
    (further.foldl (fun names name => insertName name names) names).Pairwise (· < ·) :=
  List.foldlRecOn further _ h fun _ h name _ => pairwise_insertName name h

theorem pairwise_assetNames (store : Store α) : store.assetNames.Pairwise (· < ·) :=
  pairwise_foldl_insertName _ .nil

/-- Whether no asset is kept twice. -/
def Keyed (store : Store α) : Prop := (store.assets.map (·.1)).Nodup

theorem mem_map_fst_putAsset {asset name : String} {elements : List (Element α)}
    {assets : List (String × List (Element α))} :
    name ∈ (putAsset asset elements assets).map (·.1) ↔
      name = asset ∨ name ∈ assets.map (·.1) := by
  induction assets with
  | nil => simp [putAsset]
  | cons entry rest ih =>
    rw [putAsset]
    split
    · next heq => simp [heq]
    · simp only [List.map_cons, List.mem_cons, ih]
      exact or_left_comm

theorem nodup_map_fst_putAsset (asset : String) (elements : List (Element α))
    {assets : List (String × List (Element α))} (h : (assets.map (·.1)).Nodup) :
    ((putAsset asset elements assets).map (·.1)).Nodup := by
  induction assets with
  | nil => simp [putAsset]
  | cons entry rest ih =>
    obtain ⟨hfirst, hrest⟩ := List.nodup_cons.mp h
    rw [putAsset]
    split
    · exact h
    · next hne =>
      refine List.nodup_cons.mpr ⟨fun hmem => ?_, ih hrest⟩
      rcases mem_map_fst_putAsset.mp hmem with heq | hmem
      · exact hne heq
      · exact hfirst hmem

theorem Keyed.after [WrittenScalar α] {store : Store α} (h : store.Keyed) (call : StoreCall α) :
    (store.after call).Keyed := by
  rw [Store.after]
  rcases store.respond_cases call with heq | ⟨elements, heq⟩ | heq
  · rw [heq]
    exact h
  · rw [heq]
    exact nodup_map_fst_putAsset _ _ h
  · rw [heq]
    exact h.sublist (List.filter_sublist.map _)

theorem Keyed.run [WrittenScalar α] {store : Store α} (h : store.Keyed)
    (calls : List (StoreCall α)) : (store.run calls).Keyed :=
  List.foldlRecOn calls _ h fun _ h call _ => h.after call

theorem lookup_eq_some_iff_mem {assets : List (String × List (Element α))}
    (h : (assets.map (·.1)).Nodup) {name : String} {elements : List (Element α)} :
    assets.lookup name = some elements ↔ (name, elements) ∈ assets := by
  induction assets with
  | nil => simp
  | cons entry rest ih =>
    obtain ⟨hfirst, hrest⟩ := List.nodup_cons.mp h
    obtain ⟨other, old⟩ := entry
    by_cases heq : name = other
    · subst heq
      have hnot : (name, elements) ∉ rest := fun hmem =>
        hfirst (List.mem_map.mpr ⟨_, hmem, rfl⟩)
      simp [hnot, eq_comm]
    · have hb : (name == other) = false := by simpa using heq
      simp [List.lookup_cons, hb, heq, ih hrest]

theorem Keyed.mem_assetNames_iff {store : Store α} (h : store.Keyed) {name : String} :
    name ∈ store.assetNames ↔ store.elements name ≠ [] := by
  have hlisted : name ∈ store.assetNames ↔
      ∃ elements, (name, elements) ∈ store.assets ∧ elements ≠ [] := by
    rw [assetNames, mem_foldl_insertName]
    simp
  rw [hlisted, Store.elements]
  simp only [← lookup_eq_some_iff_mem h]
  cases store.assets.lookup name with
  | none => simp
  | some elements => simp

end RegionDrawing.Store
