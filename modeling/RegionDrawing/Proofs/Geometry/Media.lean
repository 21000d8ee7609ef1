import RegionDrawing.Input
import RegionDrawing.Proofs.Scalar.Order

/-! # Points of the media

Every position that has coordinates at all has a nearest point of the media.
-/
namespace RegionDrawing.Point

variable {α : Type} [Scalar α]

/-- Whether no coordinate is undefined. Unbounded ones are not. -/
def isDefined (p : Point α) : Bool := !Scalar.isUndefined p.x && !Scalar.isUndefined p.y

theorem clamped_of_inMedia [LawfulOrder α] {p : Point α} (h : p.inMedia) : p.clamped = p := by
  simp only [inMedia, Bool.and_eq_true] at h
  rw [clamped, LawfulOrder.clampUnit_eq h.1, LawfulOrder.clampUnit_eq h.2]

variable [LawfulScalar α]

theorem isFinite_clamped (p : Point α) : p.clamped.isFinite = p.isDefined := by
  simp only [isFinite, clamped, isDefined, Scalar.isFinite_clampUnit]

theorem inMedia_clamped {p : Point α} (h : p.isDefined) : p.clamped.inMedia := by
  simp only [isDefined, Bool.and_eq_true, Bool.not_eq_true'] at h
  simp only [inMedia, clamped, Bool.and_eq_true]
  exact ⟨Scalar.inUnit_clampUnit h.1, Scalar.inUnit_clampUnit h.2⟩

theorem isDefined_of_isFinite {p : Point α} (h : p.isFinite) : p.isDefined := by
  simp only [isFinite, Bool.and_eq_true] at h
  simp only [isDefined, LawfulScalar.isUndefined_of_isFinite _ h.1,
    LawfulScalar.isUndefined_of_isFinite _ h.2, Bool.not_false, Bool.and_self]

theorem isFinite_of_inMedia {p : Point α} (h : p.inMedia) : p.isFinite := by
  simp only [inMedia, Bool.and_eq_true] at h
  simp only [isFinite, Bool.and_eq_true]
  exact ⟨Scalar.isFinite_of_inUnit h.1, Scalar.isFinite_of_inUnit h.2⟩

end RegionDrawing.Point
