import RegionDrawing.Decimal

/-! # JSON texts as trees

A tree keeps everything a text says about its values: the order and repetition of object members,
whether a number was written as a whole number, and whether a string can be represented at all.
What is acceptable is decided by whoever looks at a value, so faults in values that nobody looks
at do no harm.
-/
namespace RegionDrawing.Json

structure Numeral where
  decimal : Decimal
  /-- Written without a point and without an exponent. -/
  whole : Bool
  deriving DecidableEq, Repr

/-- A value as written. Strings are absent when they hold one half of a surrogate pair. -/
inductive Tree where
  | null
  | bool (value : Bool)
  | num (value : Numeral)
  | str (value : Option String)
  | arr (items : List Tree)
  | obj (members : List (Option String × Tree))

namespace Numeral

/-- The integer a numeral stands for. Negative zero is no integer. -/
def int? (n : Numeral) : Option Int :=
  if n.whole then
    if n.decimal.negative then
      if n.decimal.digits = 0 then none else some (-(n.decimal.digits : Int))
    else some n.decimal.digits
  else none

/-- Whole numbers within 64 bits are integers, all others are not. -/
def int64? (n : Numeral) : Option Int :=
  n.int?.filter fun i => Int64.minValue.toInt ≤ i && i < (UInt64.size : Int)

end Numeral

namespace Tree

def text? : Tree → Option String
  | str s => s
  | _ => none

def bool? : Tree → Option Bool
  | bool b => some b
  | _ => none

def scalar? {α : Type} [WrittenScalar α] : Tree → Option α
  | num n => WrittenScalar.ofDecimal? n.decimal
  | _ => none

def signed64? : Tree → Option Int64
  | num n =>
    (n.int?.filter fun i => Int64.minValue.toInt ≤ i && i ≤ Int64.maxValue.toInt).map Int64.ofInt
  | _ => none

def unsigned64? : Tree → Option Nat
  | num n => (n.int?.filter fun i => 0 ≤ i && i < (UInt64.size : Int)).map Int.toNat
  | _ => none

/-- A name out of a fixed set, written as a string or as the only key of an object over null. -/
def name? : Tree → Option String
  | str s => s
  | obj [(key, null)] => key
  | _ => none

end Tree

end RegionDrawing.Json
