import RegionDrawing.Decimal
import RegionDrawing.Binary64.Magnitude

/-! # Shortest decimals of machine numbers

A decimal is read as a machine number exactly when it lies in the interval of numbers that round
to it. `shortest` searches the decimal grids from coarse to fine: on each grid the two neighbours
of the number are the only candidates, and the first grid with a candidate in the interval gives
the fewest digits.
-/
namespace RegionDrawing.Binary64

/-- The interval of the numbers that round to a machine number, in quarters of its last bit. -/
structure RoundingInterval where
  lower : Nat
  upper : Nat
  closed : Bool

namespace Magnitude

/-- Half a unit on either side, and a quarter below a power of two, where the numbers below lie
twice as close. The ends round to the number when its significand is even. -/
def roundingInterval (m : Magnitude) : RoundingInterval :=
  let narrow := m.significand = leadingBit && m.exponent > -1074
  ⟨4 * m.significand - (if narrow then 1 else 2), 4 * m.significand + 2, m.significand % 2 = 0⟩

/-- The quotient of two naturals that is the significand's unit over `10 ^ exponent`. -/
def unitRatio (m : Magnitude) (exponent : Int) : Nat × Nat :=
  (Nat.pow 10 (-exponent).toNat <<< m.exponent.toNat,
    Nat.pow 10 exponent.toNat <<< (-m.exponent).toNat)

/-- Whether `digits · 10 ^ exponent` is read as the number. -/
def readsBack (m : Magnitude) (digits : Nat) (exponent : Int) : Bool :=
  let (num, den) := m.unitRatio exponent
  let interval := m.roundingInterval
  let value := 4 * digits * den
  if interval.closed then interval.lower * num ≤ value && value ≤ interval.upper * num
  else interval.lower * num < value && value < interval.upper * num

def onGrid (m : Magnitude) (tie : Tie) (exponent : Int) : Option Nat :=
  let (num, den) := m.unitRatio exponent
  let floor := m.significand * num / den
  match m.readsBack floor exponent, m.readsBack (floor + 1) exponent with
  | false, false => none
  | true, false => some floor
  | false, true => some (floor + 1)
  | true, true =>
    match compare (2 * m.significand * num) ((2 * floor + 1) * den), tie with
    | .lt, _ => some floor
    | .gt, _ => some (floor + 1)
    | .eq, .up => some (floor + 1)
    | .eq, .toEven => some (floor + floor % 2)

def isBelow (m : Magnitude) (exponent : Int) : Bool :=
  let (num, den) := m.unitRatio exponent
  m.significand * num < den

/-- The least exponent whose power of ten exceeds the number, next to an estimate by logarithms. -/
def scale (m : Magnitude) : Int :=
  let estimate := ((m.significand.log2 : Int) + m.exponent) * 30103 / 100000
  if m.isBelow estimate then estimate
  else if m.isBelow (estimate + 1) then estimate + 1
  else estimate + 2

def exactDecimal (m : Magnitude) : Decimal :=
  if 0 ≤ m.exponent then ⟨false, m.significand <<< m.exponent.toNat, 0⟩
  else ⟨false, m.significand * Nat.pow 5 (-m.exponent).toNat, m.exponent⟩

/-- The decimal with the fewest digits that is read as the number, and of those the nearest. -/
def shortest (tie : Tie) (m : Magnitude) : Decimal :=
  if m.significand = 0 then ⟨false, 0, 0⟩ else
    let scale := m.scale
    let found := (List.range 17).findSome? fun (n : Nat) =>
      let exponent := scale - (n : Int) - 1
      (m.onGrid tie exponent).map fun digits => Decimal.stripZeros 18 ⟨false, digits, exponent⟩
    found.getD m.exactDecimal

end Magnitude

end RegionDrawing.Binary64
