import Mathlib
import RegionDrawing.Decimal
import RegionDrawing.Proofs.Scalar.Order

/-! # Exact scalars

Scalars that compute without rounding: an ordered field with the Euclidean norm of pairs. Every
number is defined and finite. Sine and cosine may be any two functions, so what is proved over
exact scalars does not depend on angles.
-/
namespace RegionDrawing

/-- Scalars whose arithmetic and order are those of an ordered field. -/
class FieldScalar (α : Type) extends Field α, LinearOrder α, IsStrictOrderedRing α, Scalar α

/-- Scalars of an ordered field that are also written as decimals. -/
class WrittenFieldScalar (α : Type) extends FieldScalar α, WrittenScalar α

/-- The operations of a scalar have their exact values. -/
class ExactScalar (α : Type) [FieldScalar α] : Prop where
  decimal_eq : ∀ digits places : Nat,
    Scalar.decimal digits places = (digits : α) / 10 ^ places
  abs_eq : ∀ a : α, Scalar.abs a = |a|
  copySign_eq : ∀ a b : α, Scalar.copySign a b = if b < 0 then -|a| else |a|
  hypot_nonneg : ∀ a b : α, 0 ≤ Scalar.hypot a b
  hypot_mul_self : ∀ a b : α, Scalar.hypot a b * Scalar.hypot a b = a * a + b * b
  isFinite_eq : ∀ a : α, Scalar.isFinite a = true
  beq_iff : ∀ a b : α, Scalar.toBEq.beq a b = true ↔ a = b

namespace Scalar

variable {α : Type} [FieldScalar α]

theorem inUnit_iff {a : α} : inUnit a ↔ 0 ≤ a ∧ a ≤ 1 := by
  simp only [inUnit, Bool.and_eq_true, decide_eq_true_eq]

theorem clampUnit_mem (a : α) : 0 ≤ clampUnit a ∧ clampUnit a ≤ 1 := by
  unfold clampUnit
  split
  · exact ⟨le_rfl, zero_le_one⟩
  · next hlow =>
    split
    · exact ⟨zero_le_one, le_rfl⟩
    · next hhigh => exact ⟨not_lt.mp hlow, not_lt.mp hhigh⟩

theorem abs_clampUnit_sub_le {a b : α} (hzero : 0 ≤ b) (hone : b ≤ 1) :
    |clampUnit a - a| ≤ |b - a| := by
  unfold clampUnit
  split
  · next hlow =>
    rw [abs_of_pos (sub_pos.mpr hlow), abs_of_pos (sub_pos.mpr (hlow.trans_le hzero))]
    exact sub_le_sub_right hzero a
  · split
    · next hhigh =>
      rw [abs_of_neg (sub_neg.mpr hhigh), abs_of_neg (sub_neg.mpr (hone.trans_lt hhigh)),
        neg_sub, neg_sub]
      exact sub_le_sub_left hone a
    · rw [sub_self, abs_zero]
      exact abs_nonneg _

variable [ExactScalar α]

open ExactScalar

theorem isUndefined_eq_false (a : α) : isUndefined a = false := by
  simp only [isUndefined, bne, Bool.not_eq_false']
  exact (beq_iff a a).mpr rfl

instance : LawfulScalar α where
  isFinite_zero := isFinite_eq 0
  isFinite_one := isFinite_eq 1
  zero_le_one := zero_le_one' α
  le_self a _ := le_refl a
  isUndefined_of_isFinite a _ := isUndefined_eq_false a
  not_lt_of_isUndefined a _ h := by
    rw [isUndefined_eq_false] at h
    cases h
  le_of_not_lt _ _ _ _ h := not_lt.mp h
  isFinite_of_le _ b _ _ _ _ _ := isFinite_eq b

instance : LawfulOrder α where
  isUndefined_of_le a b _ := ⟨isUndefined_eq_false a, isUndefined_eq_false b⟩
  le_of_lt _ _ h := h.le
  not_lt_of_le _ _ h := not_lt.mpr h
  le_trans _ _ _ h h' := h.trans h'

instance : LawfulLengths α where
  isUndefined_sub a b _ _ := isUndefined_eq_false (a - b)
  isUndefined_hypot a b _ _ := isUndefined_eq_false (hypot a b)

theorem least_eq (a b : α) : least a b = min a b := by
  rw [least, isUndefined_eq_false, if_neg Bool.false_ne_true, min_def]
  split
  · next hlt => rw [if_neg (not_le.mpr hlt)]
  · next hlt => rw [if_pos (not_lt.mp hlt)]

theorem greatest_eq (a b : α) : greatest a b = max a b := by
  rw [greatest, isUndefined_eq_false, if_neg Bool.false_ne_true, max_def]
  split
  · next hlt => rw [if_pos hlt.le]
  · next hlt =>
    split
    · next hle => exact le_antisymm hle (not_lt.mp hlt)
    · rfl

theorem abs_le_hypot_left (a b : α) : |a| ≤ hypot a b := by
  apply abs_le_of_sq_le_sq _ (hypot_nonneg a b)
  linarith [hypot_mul_self a b, mul_self_nonneg b]

theorem abs_le_hypot_right (a b : α) : |b| ≤ hypot a b := by
  apply abs_le_of_sq_le_sq _ (hypot_nonneg a b)
  linarith [hypot_mul_self a b, mul_self_nonneg a]

/-- The scalar product of two vectors is no larger than the product of their lengths. -/
theorem mul_add_mul_le_hypot_mul_hypot (a b c d : α) :
    a * c + b * d ≤ hypot a b * hypot c d := by
  apply le_of_abs_le
  apply abs_le_of_sq_le_sq _ (mul_nonneg (hypot_nonneg a b) (hypot_nonneg c d))
  calc (a * c + b * d) ^ 2
    _ ≤ (a * a + b * b) * (c * c + d * d) := by linarith [sq_nonneg (a * d - b * c)]
    _ = (hypot a b * hypot c d) ^ 2 := by
      rw [← hypot_mul_self, ← hypot_mul_self]
      ring

end Scalar

end RegionDrawing
