import Mathlib.Algebra.Group.Nat.Defs
import RegionDrawing.Proofs.Scalar.Order

/-! # Bounds on scalars

Sums of bounded numbers are bounded, and bounded numbers are finite. The bounds are whole numbers
below the one from which on the format of machine numbers leaves some out. A result that depends on
an undefined number is undefined.
-/
namespace RegionDrawing

/-- The laws of absolute values and sums. -/
class LawfulSums (α : Type) [Scalar α] : Prop where
  abs_abs : ∀ a : α, Scalar.abs (Scalar.abs a) = Scalar.abs a
  abs_copySign : ∀ a b : α, Scalar.abs (Scalar.copySign a b) = Scalar.abs a
  zero_le_abs : ∀ a : α, Scalar.isUndefined a = false → 0 ≤ Scalar.abs a
  abs_le_one : ∀ a : α, Scalar.inUnit a → Scalar.abs a ≤ ((1 : Nat) : α)
  isFinite_of_abs_le : ∀ (n : Nat) (a : α), n < 2 ^ 53 → Scalar.abs a ≤ (n : α) → Scalar.isFinite a
  abs_add_le : ∀ (n k : Nat) (a b : α), n + k < 2 ^ 53 → Scalar.abs a ≤ (n : α) →
    Scalar.abs b ≤ (k : α) → Scalar.abs (a + b) ≤ ((n + k : Nat) : α)
  abs_sub_le : ∀ (n k : Nat) (a b : α), n + k < 2 ^ 53 → Scalar.abs a ≤ (n : α) →
    Scalar.abs b ≤ (k : α) → Scalar.abs (a - b) ≤ ((n + k : Nat) : α)
  isUndefined_abs : ∀ a : α, Scalar.isUndefined (Scalar.abs a) = Scalar.isUndefined a
  isUndefined_add : ∀ a b : α, Scalar.isUndefined a ∨ Scalar.isUndefined b →
    Scalar.isUndefined (a + b)
  isUndefined_sub : ∀ a b : α, Scalar.isUndefined a ∨ Scalar.isUndefined b →
    Scalar.isUndefined (a - b)

namespace Scalar

variable {α : Type} [Scalar α]

theorem least_eq_or (a b : α) : least a b = a ∨ least a b = b := by
  unfold least
  split
  · exact .inr rfl
  · split
    · exact .inr rfl
    · exact .inl rfl

theorem greatest_eq_or (a b : α) : greatest a b = a ∨ greatest a b = b := by
  unfold greatest
  split
  · exact .inr rfl
  · split
    · exact .inr rfl
    · exact .inl rfl

theorem isUndefined_of_sub [LawfulSums α] {a b : α} (h : isUndefined (a - b) = false) :
    isUndefined a = false ∧ isUndefined b = false := by
  have hneither : ¬ (isUndefined a ∨ isUndefined b) := by
    intro hundefined
    rw [LawfulSums.isUndefined_sub a b hundefined] at h
    cases h
  simpa using hneither

/-- Whether a number, if it is defined at all, lies between a whole number and its negative. -/
def Within (n : Nat) (a : α) : Prop :=
  isUndefined a ∨ ∃ k ≤ n, abs a ≤ ((k : Nat) : α)

namespace Within

variable {n k : Nat} {a b : α}

theorem mono (h : Within n a) (hle : n ≤ k) : Within k a := by
  rcases h with hundefined | ⟨j, hj, ha⟩
  · exact .inl hundefined
  · exact .inr ⟨j, Nat.le_trans hj hle, ha⟩

theorem least (ha : Within n a) (hb : Within n b) : Within n (least a b) := by
  rcases least_eq_or a b with h | h
  · rwa [h]
  · rwa [h]

theorem greatest (ha : Within n a) (hb : Within n b) : Within n (greatest a b) := by
  rcases greatest_eq_or a b with h | h
  · rwa [h]
  · rwa [h]

variable [LawfulSums α]

open LawfulSums

theorem of_inUnit (h : inUnit a) : Within 1 a := .inr ⟨1, Nat.le_refl 1, abs_le_one a h⟩

theorem abs (h : Within n a) : Within n (abs a) := by
  rcases h with hundefined | ⟨k, hk, ha⟩
  · exact .inl ((isUndefined_abs a).trans hundefined)
  · exact .inr ⟨k, hk, by rwa [LawfulSums.abs_abs]⟩

theorem copySign (h : Within n a) (b : α) : Within n (copySign a b) := by
  rcases h with hundefined | ⟨k, hk, ha⟩
  · left
    rw [← isUndefined_abs, abs_copySign, isUndefined_abs]
    exact hundefined
  · exact .inr ⟨k, hk, by rwa [abs_copySign]⟩

theorem add (ha : Within n a) (hb : Within k b) (h : n + k < 2 ^ 53) : Within (n + k) (a + b) := by
  rcases ha with hundefined | ⟨i, hi, ha⟩
  · exact .inl (isUndefined_add a b (.inl hundefined))
  · rcases hb with hundefined | ⟨j, hj, hb⟩
    · exact .inl (isUndefined_add a b (.inr hundefined))
    · exact .inr ⟨i + j, by omega, abs_add_le i j a b (by omega) ha hb⟩

theorem sub (ha : Within n a) (hb : Within k b) (h : n + k < 2 ^ 53) : Within (n + k) (a - b) := by
  rcases ha with hundefined | ⟨i, hi, ha⟩
  · exact .inl (isUndefined_sub a b (.inl hundefined))
  · rcases hb with hundefined | ⟨j, hj, hb⟩
    · exact .inl (isUndefined_sub a b (.inr hundefined))
    · exact .inr ⟨i + j, by omega, abs_sub_le i j a b (by omega) ha hb⟩

theorem isFinite (h : Within n a) (hn : n < 2 ^ 53) (hdefined : isUndefined a = false) :
    isFinite a := by
  rcases h with hundefined | ⟨k, hk, ha⟩
  · rw [hdefined] at hundefined
    cases hundefined
  · exact isFinite_of_abs_le k a (by omega) ha

end Within

end Scalar

end RegionDrawing
