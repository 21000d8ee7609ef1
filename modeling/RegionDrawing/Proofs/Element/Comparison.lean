import RegionDrawing.Drawer.Basic

/-! # Comparing shapes and previews

Shapes and previews compare number by number. If the comparison of numbers is symmetric and
transitive, so is theirs. Neither has to be equality: a zero compares as equal to its negative, and
an undefined number differs from itself.
-/
namespace RegionDrawing

section
variable {α β : Type} [BEq α] [PartialEquivBEq α] [BEq β] [PartialEquivBEq β]

theorem partialEquivBEq_of_map {γ : Type} [BEq γ] (f : γ → α)
    (h : ∀ a b, (a == b) = (f a == f b)) : PartialEquivBEq γ where
  symm hab := by
    rw [h] at hab ⊢
    exact BEq.symm hab
  trans hab hbc := by
    rw [h] at hab hbc ⊢
    exact BEq.trans hab hbc

instance prodPartialEquivBEq : PartialEquivBEq (α × β) where
  symm {a b} h := by
    obtain ⟨hfst, hsnd⟩ : a.1 == b.1 ∧ a.2 == b.2 := Bool.and_eq_true_iff.mp h
    exact Bool.and_eq_true_iff.mpr ⟨BEq.symm hfst, BEq.symm hsnd⟩
  trans {a b c} hab hbc := by
    obtain ⟨hfst, hsnd⟩ : a.1 == b.1 ∧ a.2 == b.2 := Bool.and_eq_true_iff.mp hab
    obtain ⟨hfst', hsnd'⟩ : b.1 == c.1 ∧ b.2 == c.2 := Bool.and_eq_true_iff.mp hbc
    exact Bool.and_eq_true_iff.mpr ⟨BEq.trans hfst hfst', BEq.trans hsnd hsnd'⟩

instance listPartialEquivBEq : PartialEquivBEq (List α) where
  symm {a b} h := by
    induction a generalizing b with
    | nil => cases b <;> exact h
    | cons x rest ih =>
      cases b with
      | nil => cases h
      | cons y more =>
        simp only [List.cons_beq_cons, Bool.and_eq_true] at h ⊢
        exact ⟨BEq.symm h.1, ih h.2⟩
  trans {a b c} hab hbc := by
    induction a generalizing b c with
    | nil =>
      cases b with
      | nil => exact hbc
      | cons => cases hab
    | cons x rest ih =>
      cases b with
      | nil => cases hab
      | cons y more =>
        cases c with
        | nil => cases hbc
        | cons z others =>
          simp only [List.cons_beq_cons, Bool.and_eq_true] at hab hbc ⊢
          exact ⟨BEq.trans hab.1 hbc.1, ih hab.2 hbc.2⟩

instance optionPartialEquivBEq : PartialEquivBEq (Option α) :=
  partialEquivBEq_of_map Option.toList fun a b => by cases a <;> cases b <;> simp

end

variable {α : Type} [BEq α] [PartialEquivBEq α]

instance : PartialEquivBEq (Point α) := partialEquivBEq_of_map (fun p => (p.x, p.y)) fun _ _ => rfl

instance : PartialEquivBEq (Rect α) :=
  partialEquivBEq_of_map (fun r => (r.x, r.y, r.width, r.height)) fun _ _ => rfl

instance : PartialEquivBEq (PerspectiveBox α) :=
  partialEquivBEq_of_map (fun b => (b.front, b.vanishing, b.depth)) fun _ _ => rfl

instance : PartialEquivBEq (Outline α) :=
  partialEquivBEq_of_map (fun outline => (outline.points, outline.closed)) fun _ _ => rfl

/-- A shape as a rectangle, a polygon, a path and a box, of which it is one. -/
def Shape.readings : Shape α →
    Option (Rect α) × Option (Outline α) × Option (Outline α) × Option (PerspectiveBox α)
  | .rect bounds => (some bounds, none, none, none)
  | .polygon outline => (none, some outline, none, none)
  | .path outline => (none, none, some outline, none)
  | .box b => (none, none, none, some b)

instance : PartialEquivBEq (Shape α) :=
  partialEquivBEq_of_map Shape.readings fun a b => by
    cases a <;> cases b <;> first | rfl | exact (Bool.and_true _).symm

instance : PartialEquivBEq (Preview α) :=
  partialEquivBEq_of_map (fun preview => (preview.shape, preview.cursor)) fun _ _ => rfl

end RegionDrawing
