import RegionDrawing.Binary64.Magnitude

/-! # Lengths of machine vectors

The hypotenuse is computed exactly and rounded once, so neither squaring nor summing can overflow.
-/
namespace RegionDrawing.Binary64

/-- The whole square root of `n`, found two bits at a time; `fuel` bounds half the bits of `n`. -/
def wholeRoot : Nat → Nat → Nat
  | 0, _ => 0
  | fuel + 1, n =>
    if n = 0 then 0
    else
      let root := 2 * wholeRoot fuel (n / 4)
      if (root + 1) * (root + 1) ≤ n then root + 1 else root

namespace Magnitude

def sumOfSquares (a b : Magnitude) : Magnitude :=
  let exponent := min a.exponent b.exponent
  let p := a.significand <<< (a.exponent - exponent).toNat
  let q := b.significand <<< (b.exponent - exponent).toNat
  ⟨p * p + q * q, 2 * exponent⟩

/-- A magnitude with the rounding of the square root of a number with an even exponent: the root
is cut behind at least 60 bits, and one more bit tells whether anything was cut off. -/
def sqrt (m : Magnitude) : Magnitude :=
  let shift := 60 - m.significand.log2 / 2
  let radicand := m.significand <<< (2 * shift)
  let root := wholeRoot (radicand.log2 / 2 + 1) radicand
  let rest := if root * root = radicand then 0 else 1
  ⟨2 * root + rest, m.exponent / 2 - (shift : Int) - 1⟩

end Magnitude

/-- The length of the hypotenuse, rounded once. An unbounded leg outweighs an undefined one. -/
def hypot (x y : Float) : Float :=
  if x.isInf || y.isInf then 1.0 / 0.0
  else if x.isNaN || y.isNaN then 0.0 / 0.0
  else ((Magnitude.ofFloat x).sumOfSquares (Magnitude.ofFloat y)).sqrt.round

end RegionDrawing.Binary64
