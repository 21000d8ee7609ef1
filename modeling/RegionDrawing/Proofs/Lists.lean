/-! # Lists

Searches by a key that no two members of a list share, the last member of two lists, and the last
one that passes a test.
-/
namespace RegionDrawing

variable {β γ : Type}

/-- With distinct keys a search by a key finds the member that has it, wherever that stands. -/
theorem find?_key_eq_some_iff [DecidableEq γ] {key : β → γ} {items : List β}
    (h : (items.map key).Nodup) {k : γ} {item : β} :
    (items.find? fun other => key other = k) = some item ↔ item ∈ items ∧ key item = k := by
  constructor
  · intro hfound
    exact ⟨List.mem_of_find?_eq_some hfound, by simpa using List.find?_some hfound⟩
  · rintro ⟨hmem, rfl⟩
    induction items with
    | nil => cases hmem
    | cons first rest ih =>
      obtain ⟨hfirst, hrest⟩ := List.nodup_cons.mp h
      rcases List.mem_cons.mp hmem with rfl | hmem
      · simp
      · have hne : ¬ key first = key item := fun heq =>
          hfirst (List.mem_map.mpr ⟨item, hmem, heq.symm⟩)
        simpa [hne] using ih hrest hmem

theorem getLastD_append (xs ys : List β) (d : β) :
    (xs ++ ys).getLastD d = ys.getLastD (xs.getLastD d) := by
  simp [List.getLastD_eq_getLast?, List.getLast?_append]

/-- The last member of a list that passes a test stands before none that passes it too. -/
theorem getLast?_filter_eq_some_iff {items : List β} {test : β → Bool} {item : β} :
    (items.filter test).getLast? = some item ↔
      ∃ before behind, items = before ++ item :: behind ∧ test item ∧
        ∀ other ∈ behind, test other = false := by
  rw [List.getLast?_filter, List.find?_eq_some_iff_append]
  constructor
  · rintro ⟨htest, behind, before, hitems, hbehind⟩
    refine ⟨before.reverse, behind.reverse, ?_, htest, fun other hother => ?_⟩
    · rw [← items.reverse_reverse, hitems]
      simp
    · simpa using hbehind other (List.mem_reverse.mp hother)
  · rintro ⟨before, behind, rfl, htest, hbehind⟩
    refine ⟨htest, behind.reverse, before.reverse, by simp, fun other hother => ?_⟩
    simpa using hbehind other (List.mem_reverse.mp hother)

end RegionDrawing
