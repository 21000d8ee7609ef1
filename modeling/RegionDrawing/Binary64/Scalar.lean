import RegionDrawing.Binary64.Hypot
import RegionDrawing.Binary64.Shortest

/-! # Machine numbers as scalars

Double precision numbers with their decimals. Reading rounds to nearest and refuses what rounds
to infinity.
-/
namespace RegionDrawing.Binary64

def copySign (x y : Float) : Float :=
  let sign := if Magnitude.isNegative y then Magnitude.signBit else 0
  Float.ofBits (UInt64.ofNat (sign + Magnitude.unsignedBits x))

instance : Scalar Float where
  zero := 0.0
  one := 1.0
  natCast := Float.ofNat
  decimal digits places := Float.ofScientific digits true places
  abs := Float.abs
  copySign := copySign
  hypot := hypot
  sin := Float.sin
  cos := Float.cos
  isFinite := Float.isFinite
  decidableLT := inferInstance
  decidableLE := inferInstance

/-- The machine number nearest to a decimal, if it is finite. A leading digit far outside the
range of the format settles the answer without computing the power of ten. -/
def ofDecimal? (d : Decimal) : Option Float :=
  let leading := d.exponent + (d.digits.log2 : Int) * 30103 / 100000
  if d.digits = 0 ∨ leading < -340 then some (if d.negative then -0.0 else 0.0)
  else if leading > 320 then none
  else
    let x := Float.ofScientific d.digits (d.exponent < 0) d.exponent.natAbs
    if x.isFinite then some (if d.negative then -x else x) else none

/-- The shortest decimal that is read as the number. -/
def toDecimal? (tie : Tie) (x : Float) : Option Decimal :=
  if x.isFinite then
    let d := (Magnitude.ofFloat x).shortest tie
    some ⟨Magnitude.isNegative x, d.digits, d.exponent⟩
  else none

instance : WrittenScalar Float where
  ofDecimal? := ofDecimal?
  toDecimal? := toDecimal?

end RegionDrawing.Binary64
