import RegionDrawing.Element.Shape
import RegionDrawing.Proofs.Scalar.Order

/-! # Equal shapes

Shapes are compared by their numbers, and undefined numbers differ from themselves. A shape that
can be stored has none of these.
-/
namespace RegionDrawing

variable {α : Type} [Scalar α] [LawfulScalar α]

theorem Point.beq_self_of_isFinite {p : Point α} (h : p.isFinite) : p == p := by
  simp only [isFinite, Bool.and_eq_true] at h
  show (p.x == p.x && p.y == p.y) = true
  rw [Scalar.beq_self_of_isFinite h.1, Scalar.beq_self_of_isFinite h.2]
  rfl

theorem Rect.beq_self_of_isProper {r : Rect α} (h : r.isProper) : r == r := by
  simp only [isProper, Bool.and_eq_true] at h
  obtain ⟨⟨⟨⟨⟨hx, hy⟩, hwidth⟩, hheight⟩, _⟩, _⟩ := h
  show (r.x == r.x && (r.y == r.y && (r.width == r.width && r.height == r.height))) = true
  simp only [Scalar.beq_self_of_isFinite, hx, hy, hwidth, hheight, Bool.and_self]

theorem PerspectiveBox.beq_self_of_isProper {b : PerspectiveBox α} (h : b.isProper) : b == b := by
  simp only [isProper, Bool.and_eq_true] at h
  obtain ⟨⟨hfront, hdepth⟩, hvanishing⟩ := h
  show (b.front == b.front && (b.vanishing == b.vanishing && b.depth == b.depth)) = true
  rw [Rect.beq_self_of_isProper hfront, Point.beq_self_of_isFinite hvanishing,
    Scalar.beq_self_of_isFinite (Scalar.isFinite_of_inUnit hdepth)]
  rfl

theorem Outline.beq_self_of_isFinite {outline : Outline α}
    (h : outline.points.all Point.isFinite) : outline == outline := by
  have hpoints : ∀ points : List (Point α), points.all Point.isFinite → points == points := by
    intro points hall
    induction points with
    | nil => rfl
    | cons p rest ih =>
      simp only [List.all_cons, Bool.and_eq_true] at hall
      rw [List.cons_beq_cons, Point.beq_self_of_isFinite hall.1, ih hall.2]
      rfl
  show (outline.points == outline.points && outline.closed == outline.closed) = true
  rw [hpoints outline.points h, beq_self_eq_true]
  rfl

theorem Shape.beq_self_of_isValid {shape : Shape α} (h : shape.isValid) : shape == shape := by
  cases shape with
  | rect bounds => exact Rect.beq_self_of_isProper h
  | polygon outline | path outline =>
    simp only [isValid, Bool.and_eq_true] at h
    exact Outline.beq_self_of_isFinite h.2
  | box b => exact PerspectiveBox.beq_self_of_isProper h

end RegionDrawing
