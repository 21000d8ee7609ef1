import RegionDrawing.Scalar

/-! # Decimals

Numbers in decimal form and the ways of writing them. `Decimal.text` lays digits out under a
`Layout`; `WrittenScalar` ties a scalar type to its decimals in both directions.
-/
namespace RegionDrawing

/-- The number `± digits · 10 ^ exponent`. -/
structure Decimal where
  negative : Bool
  digits : Nat
  exponent : Int
  deriving DecidableEq, Repr

/-- Which of two equally near candidates is taken. -/
inductive Tie where
  | toEven
  | up
  deriving DecidableEq, Repr

structure Layout where
  /-- Whether a number whose leading digit counts `10 ^ e` is written without an exponent. -/
  positional : Int → Bool
  pointZero : Bool
  /-- Which of two equally short and equally near texts is taken. -/
  tie : Tie

namespace Decimal

def digitText (n : Nat) : List Char := Nat.toDigits 10 n

def leadingExponent (d : Decimal) : Int :=
  d.exponent + ((digitText d.digits).length : Int) - 1

private def zeros (n : Nat) : List Char := List.replicate n '0'

/-- Digits around a decimal point, without an exponent. -/
def positionalText (pointZero : Bool) (d : Decimal) : List Char :=
  let digits := digitText d.digits
  let leading := d.leadingExponent
  if 0 ≤ d.exponent then
    digits ++ zeros d.exponent.toNat ++ (if pointZero then ['.', '0'] else [])
  else if 0 ≤ leading then
    let whole := leading.toNat + 1
    digits.take whole ++ '.' :: digits.drop whole
  else
    '0' :: '.' :: zeros (-leading - 1).toNat ++ digits

/-- One digit, the remaining ones behind a point, and a signed exponent. -/
def scientificText (d : Decimal) : List Char :=
  let digits := digitText d.digits
  let leading := d.leadingExponent
  let rest := digits.drop 1
  digits.take 1 ++ (if rest.isEmpty then [] else '.' :: rest) ++
    'e' :: (if leading < 0 then '-' else '+') :: digitText leading.natAbs

def text (layout : Layout) (d : Decimal) : String :=
  let sign := if d.negative then ['-'] else []
  let body :=
    if d.digits = 0 then positionalText layout.pointZero ⟨false, 0, 0⟩
    else if layout.positional d.leadingExponent then positionalText layout.pointZero d
    else scientificText d
  String.ofList (sign ++ body)

/-- Moves up to `fuel` trailing zeros from the digits to the exponent. -/
def stripZeros : Nat → Decimal → Decimal
  | 0, d => d
  | fuel + 1, d =>
    if d.digits ≠ 0 ∧ d.digits % 10 = 0 then
      stripZeros fuel ⟨d.negative, d.digits / 10, d.exponent + 1⟩
    else d

end Decimal

/-- Scalars with a decimal form: `ofDecimal?` reads the nearest number and refuses decimals that
are too large, `toDecimal?` gives the fewest digits that are read as the number and nothing for
numbers without decimals. -/
class WrittenScalar (α : Type) extends Scalar α where
  ofDecimal? : Decimal → Option α
  toDecimal? : Tie → α → Option Decimal

namespace WrittenScalar

variable {α : Type} [WrittenScalar α]

/-- The text of a number, with words for the numbers that have no digits. -/
def text (layout : Layout) (a : α) : String :=
  match toDecimal? layout.tie a with
  | some d => d.text layout
  | none => if Scalar.isUndefined a then "NaN" else if a < 0 then "-inf" else "inf"

end WrittenScalar

end RegionDrawing
