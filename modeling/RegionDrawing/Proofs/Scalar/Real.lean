import Mathlib
import RegionDrawing.Proofs.Scalar.Exact

/-! # Real numbers as scalars

The real numbers with their sine and cosine are exact scalars. Those that are decimals are written
with the fewest digits.
-/
namespace RegionDrawing

noncomputable instance : FieldScalar ℝ where
  beq a b := decide (a = b)
  decimal digits places := digits / 10 ^ places
  abs a := |a|
  copySign a b := if b < 0 then -|a| else |a|
  hypot a b := √(a * a + b * b)
  sin := Real.sin
  cos := Real.cos
  isFinite _ := true
  decidableLT := inferInstance
  decidableLE := inferInstance

noncomputable instance : ExactScalar ℝ where
  decimal_eq _ _ := rfl
  abs_eq _ := rfl
  copySign_eq _ _ := rfl
  hypot_nonneg _ _ := Real.sqrt_nonneg _
  hypot_mul_self a b := Real.mul_self_sqrt (add_nonneg (mul_self_nonneg a) (mul_self_nonneg b))
  isFinite_eq _ := rfl
  beq_iff _ _ := decide_eq_true_iff

noncomputable def Decimal.toReal (d : Decimal) : ℝ :=
  (if d.negative then -1 else 1) * d.digits * 10 ^ d.exponent

open Classical in
noncomputable instance : WrittenFieldScalar ℝ where
  toFieldScalar := inferInstance
  ofDecimal? d := some d.toReal
  toDecimal? _ a :=
    if h : {d : Decimal | d.toReal = a}.Nonempty then some (Function.argminOn Decimal.digits _ h)
    else none

end RegionDrawing
