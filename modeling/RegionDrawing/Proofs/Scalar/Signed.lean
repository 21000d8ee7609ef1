import Mathlib
import RegionDrawing.Proofs.Scalar.Exact

/-! # Exact scalars with a signed zero

Nothing is rounded, but zero is positive or negative, as among machine numbers. The two zeros
compare as equal and stand for the same value. Only the sign of a zero that is a result has to be
said: a sum is a negative zero if both its parts are, and a product has the sign of its factors.
-/
namespace RegionDrawing

variable {K : Type} [FieldScalar K]

/-- A number in which zero has a sign. -/
@[ext]
structure Signed (K : Type) [FieldScalar K] where
  value : K
  negative : Bool
  negative_iff : value ≠ 0 → (negative = true ↔ value < 0)

namespace Signed

/-- The number with a value; the sign is that of the value unless this is zero. -/
def withSign (value : K) (negative : Bool) : Signed K where
  value := value
  negative := if value = 0 then negative else decide (value < 0)
  negative_iff h := by rw [if_neg h, decide_eq_true_iff]

/-- The number with a value, a positive zero for zero. -/
def of (value : K) : Signed K := withSign value false

/-- Dividing by zero gives zero, as in the field of values. -/
instance : Scalar (Signed K) where
  zero := of 0
  one := of 1
  add a b := withSign (a.value + b.value) (a.negative && b.negative)
  sub a b := withSign (a.value - b.value) (a.negative && !b.negative)
  mul a b := withSign (a.value * b.value) (a.negative ^^ b.negative)
  div a b := withSign (a.value / b.value) (a.negative ^^ b.negative)
  neg a := withSign (-a.value) (!a.negative)
  natCast n := of n
  lt a b := a.value < b.value
  le a b := a.value ≤ b.value
  beq a b := decide (a.value = b.value)
  decimal digits places := of (Scalar.decimal digits places)
  abs a := of |a.value|
  copySign a b := withSign (if b.negative then -|a.value| else |a.value|) b.negative
  hypot a b := of (Scalar.hypot a.value b.value)
  sin a := withSign (Scalar.sin a.value) a.negative
  cos a := of (Scalar.cos a.value)
  isFinite _ := true
  decidableLT a b := inferInstanceAs (Decidable (a.value < b.value))
  decidableLE a b := inferInstanceAs (Decidable (a.value ≤ b.value))

variable {a b : Signed K}

theorem lt_iff : a < b ↔ a.value < b.value := Iff.rfl

theorem le_iff : a ≤ b ↔ a.value ≤ b.value := Iff.rfl

@[simp] theorem value_of (v : K) : (of v).value = v := rfl

@[simp] theorem value_zero : (0 : Signed K).value = 0 := rfl

@[simp] theorem value_one : (1 : Signed K).value = 1 := rfl

@[simp] theorem value_add (a b : Signed K) : (a + b).value = a.value + b.value := rfl

@[simp] theorem value_sub (a b : Signed K) : (a - b).value = a.value - b.value := rfl

@[simp] theorem value_neg (a : Signed K) : (-a).value = -a.value := rfl

@[simp] theorem value_abs (a : Signed K) : (Scalar.abs a).value = |a.value| := rfl

@[simp] theorem value_copySign (a b : Signed K) :
    (Scalar.copySign a b).value = if b.negative then -|a.value| else |a.value| := rfl

theorem isUndefined_eq_false (a : Signed K) : Scalar.isUndefined a = false := by
  show (!decide (a.value = a.value)) = false
  simp

@[simp] theorem value_least (a b : Signed K) :
    (Scalar.least a b).value = min a.value b.value := by
  rw [Scalar.least, isUndefined_eq_false, if_neg Bool.false_ne_true]
  split
  · next h => exact (min_eq_right (lt_iff.mp h).le).symm
  · next h => exact (min_eq_left (not_lt.mp h)).symm

@[simp] theorem value_greatest (a b : Signed K) :
    (Scalar.greatest a b).value = max a.value b.value := by
  rw [Scalar.greatest, isUndefined_eq_false, if_neg Bool.false_ne_true]
  split
  · next h => exact (max_eq_right (lt_iff.mp h).le).symm
  · next h => exact (max_eq_left (not_lt.mp h)).symm

theorem inUnit_iff : Scalar.inUnit a ↔ 0 ≤ a.value ∧ a.value ≤ 1 := by
  simp only [Scalar.inUnit, Bool.and_eq_true, decide_eq_true_eq]
  exact Iff.rfl

theorem clampUnit_eq (h : Scalar.inUnit a) : Scalar.clampUnit a = a := by
  obtain ⟨hlow, hhigh⟩ := inUnit_iff.mp h
  have hzero : ¬ a < 0 := not_lt.mpr hlow
  have hone : ¬ a > 1 := not_lt.mpr hhigh
  rw [Scalar.clampUnit, if_neg hzero, if_neg hone]

theorem negative_withSign (v : K) (negative : Bool) :
    (withSign v negative).negative = if v = 0 then negative else decide (v < 0) := rfl

theorem eq_zero_iff : a = 0 ↔ a.value = 0 ∧ a.negative = false := by
  have hsign : (0 : Signed K).negative = false := if_pos rfl
  rw [Signed.ext_iff, hsign, value_zero]

theorem eq_neg_zero_iff : a = -0 ↔ a.value = 0 ∧ a.negative = true := by
  have hvalue : (-0 : Signed K).value = 0 := neg_zero
  have hsign : (-0 : Signed K).negative = true := by
    have hzero := eq_zero_iff.mp (rfl : (0 : Signed K) = 0)
    refine (if_pos hvalue).trans ?_
    rw [hzero.2, Bool.not_false]
  rw [Signed.ext_iff, hsign, hvalue]

theorem zero_ne_neg_zero : (0 : Signed K) ≠ -0 := by
  intro h
  have hpositive := (eq_zero_iff.mp (rfl : (0 : Signed K) = 0)).2
  rw [(eq_neg_zero_iff.mp h).2] at hpositive
  cases hpositive

/-- Whether a step leads from the positive zero to the negative one. -/
def FlipsZero (a b : Signed K) : Prop := a = 0 ∧ b = -0

theorem FlipsZero.value_eq_zero (h : FlipsZero a b) : a.value = 0 ∧ b.value = 0 :=
  ⟨(eq_zero_iff.mp h.1).1, (eq_neg_zero_iff.mp h.2).1⟩

/-- A difference has a minus sign below zero, and where it is that of two zeros that are flipped. -/
theorem negative_sub_iff : (b - a).negative ↔ b.value < a.value ∨ FlipsZero a b := by
  show (withSign (b.value - a.value) (b.negative && !a.negative)).negative ↔ _
  rw [negative_withSign, FlipsZero, eq_zero_iff, eq_neg_zero_iff]
  by_cases hsame : b.value = a.value
  · rw [if_pos (sub_eq_zero.mpr hsame), Bool.and_eq_true, Bool.not_eq_true']
    constructor
    · rintro ⟨hb, ha⟩
      have hzero : a.value = 0 := by
        by_contra hne
        have hlt := (b.negative_iff (hsame ▸ hne)).mp hb
        rw [hsame, ← a.negative_iff hne, ha] at hlt
        cases hlt
      exact .inr ⟨⟨hzero, ha⟩, hsame.trans hzero, hb⟩
    · rintro (hlt | ⟨⟨_, ha⟩, _, hb⟩)
      · exact absurd hsame hlt.ne
      · exact ⟨hb, ha⟩
  · rw [if_neg (sub_ne_zero.mpr hsame), decide_eq_true_iff, sub_neg, iff_self_or]
    rintro ⟨⟨ha, _⟩, hb, _⟩
    exact absurd (hb.trans ha.symm) hsame

/-- The sign of a difference and its order with zero disagree where zeros are flipped. -/
theorem negative_sub_eq_iff : (b - a).negative = decide (b.value < a.value) ↔ ¬ FlipsZero a b := by
  rw [Bool.eq_iff_iff, negative_sub_iff, decide_eq_true_iff, or_iff_left_iff_imp]
  constructor
  · intro h hflips
    obtain ⟨ha, hb⟩ := hflips.value_eq_zero
    exact absurd (h hflips) (by rw [ha, hb]; exact lt_irrefl 0)
  · exact fun h hflips => absurd hflips h

theorem negative_sub_congr {a' b' : Signed K} (ha : a'.value = a.value) (hb : b'.value = b.value) :
    (b' - a').negative = (b - a).negative ↔ (FlipsZero a' b' ↔ FlipsZero a b) := by
  rw [Bool.eq_iff_iff, negative_sub_iff, negative_sub_iff, ha, hb]
  by_cases hlt : b.value < a.value
  · have hnone {c d : Signed K} (hc : c.value = a.value) (hd : d.value = b.value) :
        ¬ FlipsZero c d := by
      intro hflips
      obtain ⟨hzero, hzero'⟩ := hflips.value_eq_zero
      rw [← hc, ← hd, hzero, hzero'] at hlt
      exact lt_irrefl 0 hlt
    simp only [hlt, true_or, hnone ha hb, hnone rfl rfl]
  · simp only [hlt, false_or]

end Signed

end RegionDrawing
