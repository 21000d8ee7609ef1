/-! # Scalars

The numbers that coordinates are made of. Geometry, gestures and painting are written once over
`Scalar`, so one set of definitions runs on machine numbers and can be studied over exact ones.
The order may leave numbers unrelated: an undefined number, which differs from itself, is neither
below nor above any other.
-/
namespace RegionDrawing

/-- Arithmetic, an order that can be decided, and the few functions that plane geometry needs. -/
class Scalar (α : Type) extends Zero α, One α, Add α, Sub α, Mul α, Div α, Neg α, NatCast α,
    LT α, LE α, BEq α where
  /-- The decimal fraction with the given digits and number of places. -/
  decimal : Nat → Nat → α
  abs : α → α
  copySign : α → α → α
  hypot : α → α → α
  sin : α → α
  cos : α → α
  isFinite : α → Bool
  decidableLT : ∀ a b : α, Decidable (a < b)
  decidableLE : ∀ a b : α, Decidable (a ≤ b)

namespace Scalar

variable {α : Type} [Scalar α]

instance : DecidableLT α := Scalar.decidableLT
instance : DecidableLE α := Scalar.decidableLE

instance (priority := low) instOfNat (n : Nat) : OfNat α (n + 2) := ⟨((n + 2 : Nat) : α)⟩

instance (priority := low) instOfScientific : OfScientific α :=
  ⟨fun digits fraction places =>
    if fraction then decimal digits places else ((digits * Nat.pow 10 places : Nat) : α)⟩

/-- An undefined number differs from itself. -/
def isUndefined (a : α) : Bool := a != a

/-- The smaller of two numbers; an undefined one gives way to the other. -/
def least (a b : α) : α :=
  if isUndefined a then b else if b < a then b else a

/-- The larger of two numbers; an undefined one gives way to the other. -/
def greatest (a b : α) : α :=
  if isUndefined a then b else if b > a then b else a

/-- The nearest number of the unit interval; an undefined one stays as it is. -/
def clampUnit (a : α) : α :=
  if a < 0 then 0 else if a > 1 then 1 else a

def inUnit (a : α) : Bool := 0 ≤ a && a ≤ 1

end Scalar

end RegionDrawing
