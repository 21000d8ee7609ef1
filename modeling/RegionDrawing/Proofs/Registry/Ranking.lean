import RegionDrawing.Registry

/-! # Ranked registrations

The listing of a registry is its entries in order of priority and name. The search for the first
drawer of a kind goes over the unsorted entries; it finds the one that is first in the listing, since
both keep the entries that tie in the order in which they came.
-/
namespace RegionDrawing

variable {α : Type}

namespace Registration

/-- Whether a registration may stand before another one: its priority is lower, or it is the same
and its name is not behind. -/
def MayPrecede (r s : Registration α) : Prop :=
  r.priority < s.priority ∨
    r.priority = s.priority ∧ r.drawer.info.name ≤ s.drawer.info.name

variable {r s x : Registration α}

theorem precedes_iff :
    r.precedes s ↔ r.priority < s.priority ∨
      r.priority = s.priority ∧ r.drawer.info.name < s.drawer.info.name := by
  simp [precedes]

theorem not_precedes_iff : r.precedes s = false ↔ s.MayPrecede r := by
  rw [← Bool.not_eq_true, precedes_iff, MayPrecede, ← String.not_lt]
  grind

theorem MayPrecede.of_precedes (h : r.precedes s) : r.MayPrecede s := by
  rcases precedes_iff.mp h with hlt | ⟨heq, hname⟩
  · exact .inl hlt
  · exact .inr ⟨heq, String.not_lt.mp (String.lt_asymm hname)⟩

theorem MayPrecede.trans (h : r.MayPrecede s) (hs : s.MayPrecede x) : r.MayPrecede x := by
  rcases h with h | ⟨heq, hname⟩ <;> rcases hs with hs | ⟨heq', hname'⟩
  · exact .inl (by omega)
  · exact .inl (by omega)
  · exact .inl (by omega)
  · exact .inr ⟨heq.trans heq', String.le_trans hname hname'⟩

theorem precedes_of_mayPrecede (h : r.precedes s) (hs : s.MayPrecede x) : r.precedes x := by
  rw [precedes_iff] at h ⊢
  rcases h with h | ⟨heq, hname⟩ <;> rcases hs with hs | ⟨heq', hname'⟩
  · exact .inl (by omega)
  · exact .inl (by omega)
  · exact .inl (by omega)
  · refine .inr ⟨heq.trans heq', String.not_le.mp fun hback => ?_⟩
    exact String.not_lt.mpr (String.le_trans hname' hback) hname

end Registration

namespace Registry

/-- Whether registrations stand in the order of a listing. -/
def Ranked (listed : List (Registration α)) : Prop := listed.Pairwise Registration.MayPrecede

theorem perm_insertRanked (r : Registration α) (listed : List (Registration α)) :
    (insertRanked r listed).Perm (r :: listed) := by
  induction listed with
  | nil => rfl
  | cons s rest ih =>
    rw [insertRanked]
    split
    · rfl
    · exact (ih.cons s).trans (.swap r s rest)

theorem Ranked.insertRanked {listed : List (Registration α)} (h : Ranked listed)
    (r : Registration α) : Ranked (insertRanked r listed) := by
  induction listed with
  | nil => exact List.pairwise_singleton _ _
  | cons s rest ih =>
    obtain ⟨hfirst, hrest⟩ := List.pairwise_cons.mp h
    rw [Registry.insertRanked]
    split
    · next hprecedes =>
      have hs := Registration.MayPrecede.of_precedes hprecedes
      refine List.pairwise_cons.mpr ⟨fun other hother => ?_, h⟩
      rcases List.mem_cons.mp hother with rfl | hother
      · exact hs
      · exact hs.trans (hfirst other hother)
    · next hprecedes =>
      refine List.pairwise_cons.mpr ⟨fun other hother => ?_, ih hrest⟩
      rcases List.mem_cons.mp ((perm_insertRanked r rest).mem_iff.mp hother) with rfl | hother
      · exact Registration.not_precedes_iff.mp (Bool.eq_false_iff.mpr hprecedes)
      · exact hfirst other hother

/-- A registration that is put in its place is found first unless one that it does not precede is
found already. -/
theorem Ranked.find?_insertRanked {listed : List (Registration α)} (h : Ranked listed)
    {p : Registration α → Bool} {r : Registration α} (hr : p r) :
    (Registry.insertRanked r listed).find? p = firstRanked (listed.find? p) r := by
  induction listed with
  | nil => simp [Registry.insertRanked, firstRanked, hr]
  | cons s rest ih =>
    obtain ⟨hfirst, hrest⟩ := List.pairwise_cons.mp h
    rw [Registry.insertRanked]
    split
    · next hprecedes =>
      rw [List.find?_cons_of_pos hr]
      cases hfound : (s :: rest).find? p with
      | none => rfl
      | some x =>
        have hx : r.precedes x := by
          rcases List.mem_cons.mp (List.mem_of_find?_eq_some hfound) with rfl | hx
          · exact hprecedes
          · exact Registration.precedes_of_mayPrecede hprecedes (hfirst x hx)
        rw [firstRanked, if_pos hx]
    · next hprecedes =>
      by_cases hs : p s
      · rw [List.find?_cons_of_pos hs, List.find?_cons_of_pos hs, firstRanked, if_neg hprecedes]
      · rw [List.find?_cons_of_neg hs, List.find?_cons_of_neg hs, ih hrest]

theorem find?_insertRanked_of_neg {p : Registration α → Bool} {r : Registration α}
    (hr : ¬ p r) (listed : List (Registration α)) :
    (insertRanked r listed).find? p = listed.find? p := by
  induction listed with
  | nil => simp [insertRanked, hr]
  | cons s rest ih =>
    rw [insertRanked]
    split
    · rw [List.find?_cons_of_neg hr]
    · rw [List.find?_cons, List.find?_cons, ih]

theorem perm_foldl_insertRanked (entries listed : List (Registration α)) :
    (entries.foldl (fun ranked r => insertRanked r ranked) listed).Perm (entries ++ listed) := by
  induction entries generalizing listed with
  | nil => rfl
  | cons r rest ih =>
    exact (ih _).trans (((perm_insertRanked r listed).append_left rest).trans List.perm_middle)

theorem perm_all (registry : Registry α) : registry.all.Perm registry.entries := by
  have hperm := perm_foldl_insertRanked registry.entries []
  rwa [List.append_nil] at hperm

theorem Ranked.foldl_insertRanked {listed : List (Registration α)} (h : Ranked listed)
    (entries : List (Registration α)) :
    Ranked (entries.foldl (fun ranked r => Registry.insertRanked r ranked) listed) :=
  List.foldlRecOn entries _ h fun _ h r _ => h.insertRanked r

theorem ranked_all (registry : Registry α) : Ranked registry.all :=
  Ranked.foldl_insertRanked .nil registry.entries

/-- The first entry of a sort in the listing is the best of that sort among the entries. -/
theorem Ranked.find?_foldl_insertRanked {listed : List (Registration α)} (h : Ranked listed)
    (p : Registration α → Bool) (entries : List (Registration α)) :
    (entries.foldl (fun ranked r => Registry.insertRanked r ranked) listed).find? p =
      (entries.filter p).foldl firstRanked (listed.find? p) := by
  induction entries generalizing listed with
  | nil => rfl
  | cons r rest ih =>
    rw [List.foldl_cons, ih (h.insertRanked r)]
    by_cases hr : p r
    · rw [List.filter_cons_of_pos hr, List.foldl_cons, h.find?_insertRanked hr]
    · rw [List.filter_cons_of_neg hr, find?_insertRanked_of_neg hr]

theorem drawerFor?_eq (registry : Registry α) (kind : ShapeKind) :
    registry.drawerFor? kind =
      (registry.all.find? fun r => r.drawer.info.kind = kind).map (·.drawer) := by
  rw [drawerFor?, all, Ranked.find?_foldl_insertRanked .nil, List.find?_nil]

/-- A kind has no drawer exactly if none is registered for it, switched on or off. -/
theorem drawerFor?_eq_none_iff {registry : Registry α} {kind : ShapeKind} :
    registry.drawerFor? kind = none ↔ ∀ r ∈ registry.entries, r.drawer.info.kind ≠ kind := by
  rw [drawerFor?_eq, Option.map_eq_none_iff, List.find?_eq_none]
  simp only [registry.perm_all.mem_iff, decide_eq_true_eq, ne_eq]

end Registry

end RegionDrawing
