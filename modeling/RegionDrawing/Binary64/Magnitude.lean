/-! # Magnitudes of machine numbers

A finite machine number is a whole number of powers of two. `Magnitude.ofBits` decodes the bits of
a number, `Magnitude.round` finds the machine number nearest to an exact magnitude.
-/
namespace RegionDrawing.Binary64

/-- The number `significand · 2 ^ exponent`. -/
structure Magnitude where
  significand : Nat
  exponent : Int
  deriving DecidableEq, Repr

namespace Magnitude

def signBit : Nat := 1 <<< 63

/-- The bit in front of the stored fraction, which is not stored itself. -/
def leadingBit : Nat := 1 <<< 52

/-- Whether the sign bit is set, as it also is in negative zero. -/
def isNegative (x : Float) : Bool := signBit ≤ x.toBits.toNat

def unsignedBits (x : Float) : Nat := x.toBits.toNat % signBit

def ofBits (bits : Nat) : Magnitude :=
  let field := bits / leadingBit
  let fraction := bits % leadingBit
  if field = 0 then ⟨fraction, -1074⟩ else ⟨leadingBit + fraction, (field : Int) - 1075⟩

def ofFloat (x : Float) : Magnitude := ofBits (unsignedBits x)

/-- The quotient by `2 ^ shift`, rounded to nearest with ties to even. -/
def roundShift (n shift : Nat) : Nat :=
  let divisor := 1 <<< shift
  let quotient := n / divisor
  let twice := 2 * (n % divisor)
  if twice < divisor then quotient
  else if twice = divisor then quotient + quotient % 2
  else quotient + 1

/-- The unsigned bits of the nearest number; a magnitude beyond the largest one is unbounded. -/
def roundBits (m : Magnitude) : Nat :=
  if m.significand = 0 then 0 else
    let unit := max ((m.significand.log2 : Int) + m.exponent - 52) (-1074)
    let significand :=
      if unit ≤ m.exponent then m.significand <<< (m.exponent - unit).toNat
      else roundShift m.significand (unit - m.exponent).toNat
    min ((unit + 1074).toNat * leadingBit + significand) (2047 * leadingBit)

def round (m : Magnitude) : Float := Float.ofBits (UInt64.ofNat m.roundBits)

end Magnitude

end RegionDrawing.Binary64
