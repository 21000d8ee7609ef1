import RegionDrawing.Scalar

/-! # The order of scalars

What all scalars have in common: an undefined number is related to none, all others are in one
line, and what lies between two finite numbers is finite.
-/
namespace RegionDrawing

/-- The laws of the order and of finiteness. -/
class LawfulScalar (α : Type) [Scalar α] : Prop where
  isFinite_zero : Scalar.isFinite (0 : α)
  isFinite_one : Scalar.isFinite (1 : α)
  zero_le_one : (0 : α) ≤ 1
  le_self : ∀ a : α, Scalar.isUndefined a = false → a ≤ a
  isUndefined_of_isFinite : ∀ a : α, Scalar.isFinite a → Scalar.isUndefined a = false
  not_lt_of_isUndefined : ∀ a b : α, Scalar.isUndefined a → ¬ a < b ∧ ¬ b < a
  le_of_not_lt : ∀ a b : α, Scalar.isUndefined a = false → Scalar.isUndefined b = false →
    ¬ a < b → b ≤ a
  isFinite_of_le : ∀ a b c : α, Scalar.isFinite a → Scalar.isFinite c → a ≤ b → b ≤ c →
    Scalar.isFinite b

namespace Scalar

variable {α : Type} [Scalar α] [LawfulScalar α]

open LawfulScalar

theorem isUndefined_of_lt {a b : α} (h : a < b) : isUndefined a = false ∧ isUndefined b = false := by
  constructor
  · cases hundefined : isUndefined a with
    | false => rfl
    | true => exact absurd h (not_lt_of_isUndefined a b hundefined).1
  · cases hundefined : isUndefined b with
    | false => rfl
    | true => exact absurd h (not_lt_of_isUndefined b a hundefined).2

theorem beq_self_of_isFinite {a : α} (h : isFinite a) : a == a := by
  have hdefined := isUndefined_of_isFinite a h
  simpa [isUndefined, bne] using hdefined

theorem isFinite_of_inUnit {a : α} (h : inUnit a) : isFinite a := by
  simp only [inUnit, Bool.and_eq_true, decide_eq_true_eq] at h
  exact isFinite_of_le 0 a 1 isFinite_zero isFinite_one h.1 h.2

theorem clampUnit_of_isUndefined {a : α} (h : isUndefined a) : clampUnit a = a := by
  obtain ⟨_, hzero⟩ := not_lt_of_isUndefined a 1 h
  obtain ⟨hone, _⟩ := not_lt_of_isUndefined a 0 h
  simp [clampUnit, hzero, hone]

theorem inUnit_clampUnit {a : α} (h : isUndefined a = false) : inUnit (clampUnit a) := by
  have hzero : isUndefined (0 : α) = false := isUndefined_of_isFinite _ isFinite_zero
  have hone : isUndefined (1 : α) = false := isUndefined_of_isFinite _ isFinite_one
  simp only [inUnit, Bool.and_eq_true, decide_eq_true_eq]
  unfold clampUnit
  split
  · exact ⟨le_self 0 hzero, zero_le_one⟩
  · next hlow =>
    split
    · exact ⟨zero_le_one, le_self 1 hone⟩
    · next hhigh => exact ⟨le_of_not_lt a 0 h hzero hlow, le_of_not_lt 1 a hone h hhigh⟩

theorem isFinite_clampUnit (a : α) : isFinite (clampUnit a) = !isUndefined a := by
  cases h : isUndefined a with
  | true =>
    rw [clampUnit_of_isUndefined h]
    cases hfinite : isFinite a with
    | false => rfl
    | true => exact absurd h (by simp [isUndefined_of_isFinite a hfinite])
  | false =>
    exact isFinite_of_inUnit (inUnit_clampUnit h)

theorem isUndefined_clampUnit (a : α) : isUndefined (clampUnit a) = isUndefined a := by
  cases h : isUndefined a with
  | true => rw [clampUnit_of_isUndefined h, h]
  | false => exact isUndefined_of_isFinite _ (by rw [isFinite_clampUnit, h]; rfl)

end Scalar

/-- The laws of a line: comparisons chain, and none goes both ways. -/
class LawfulOrder (α : Type) [Scalar α] : Prop where
  isUndefined_of_le : ∀ a b : α, a ≤ b →
    Scalar.isUndefined a = false ∧ Scalar.isUndefined b = false
  le_of_lt : ∀ a b : α, a < b → a ≤ b
  not_lt_of_le : ∀ a b : α, a ≤ b → ¬ b < a
  le_trans : ∀ a b c : α, a ≤ b → b ≤ c → a ≤ c

namespace LawfulOrder

variable {α : Type} [Scalar α] [LawfulOrder α] {a b c : α}

theorem not_lt_self (a : α) : ¬ a < a := fun h => not_lt_of_le a a (le_of_lt a a h) h

theorem clampUnit_eq (h : Scalar.inUnit a) : Scalar.clampUnit a = a := by
  simp only [Scalar.inUnit, Bool.and_eq_true, decide_eq_true_eq] at h
  rw [Scalar.clampUnit, if_neg (not_lt_of_le 0 a h.1), if_neg (not_lt_of_le a 1 h.2)]

variable [LawfulScalar α]

theorem lt_of_le_of_lt (h : a ≤ b) (h' : b < c) : a < c := by
  by_cases hlt : a < c
  · exact hlt
  · have hback := LawfulScalar.le_of_not_lt a c (isUndefined_of_le a b h).1
      (Scalar.isUndefined_of_lt h').2 hlt
    exact absurd h' (not_lt_of_le c b (le_trans c a b hback h))

theorem lt_of_lt_of_le (h : a < b) (h' : b ≤ c) : a < c := by
  by_cases hlt : a < c
  · exact hlt
  · have hback := LawfulScalar.le_of_not_lt a c (Scalar.isUndefined_of_lt h).1
      (isUndefined_of_le b c h').2 hlt
    exact absurd h (not_lt_of_le b a (le_trans b c a h' hback))

theorem lt_trans (h : a < b) (h' : b < c) : a < c := lt_of_lt_of_le h (le_of_lt b c h')

end LawfulOrder

/-- The laws of lengths: the leg between two finite numbers is defined, and so is the hypotenuse
over two defined legs. -/
class LawfulLengths (α : Type) [Scalar α] : Prop where
  isUndefined_sub : ∀ a b : α, Scalar.isFinite a → Scalar.isFinite b →
    Scalar.isUndefined (a - b) = false
  isUndefined_hypot : ∀ a b : α, Scalar.isUndefined a = false → Scalar.isUndefined b = false →
    Scalar.isUndefined (Scalar.hypot a b) = false

end RegionDrawing
