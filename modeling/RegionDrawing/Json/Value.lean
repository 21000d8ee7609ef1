import RegionDrawing.Json.Tree

/-! # JSON values

Values whose meaning is settled: numbers are integers or scalars, strings are texts, and the keys
of an object that was read are sorted and distinct, the last of repeated members standing.
-/
namespace RegionDrawing

inductive Json (α : Type) where
  | null
  | bool (value : Bool)
  | int (value : Int)
  | real (value : α)
  | str (value : String)
  | arr (items : List (Json α))
  | obj (members : List (String × Json α))

namespace Json

variable {α : Type}

/-- A finite number as it is, null for any other. -/
def ofScalar [Scalar α] (a : α) : Json α :=
  if Scalar.isFinite a then real a else null

def scalar? [WrittenScalar α] : Json α → Option α
  | int i => WrittenScalar.ofDecimal? ⟨i < 0, i.natAbs, 0⟩
  | real a => some a
  | _ => none

def bool? : Json α → Option Bool
  | bool b => some b
  | _ => none

def items? : Json α → Option (List (Json α))
  | arr items => some items
  | _ => none

/-- Puts a member in its place among sorted members, over one with the same key. -/
def putMember {β : Type} (key : String) (value : β) : List (String × β) → List (String × β)
  | [] => [(key, value)]
  | (k, v) :: rest =>
    if key < k then (key, value) :: (k, v) :: rest
    else if key = k then (key, value) :: rest
    else (k, v) :: putMember key value rest

/-- Members in the order of their keys, the last of repeated ones standing. -/
def sortMembers {β : Type} (members : List (String × β)) : List (String × β) :=
  members.foldl (fun sorted (key, value) => putMember key value sorted) []

/-- The value of a tree with at most `room` lists and objects inside each other. Nothing in it may
be beyond representation. -/
def ofTree? [WrittenScalar α] : Nat → Tree → Option (Json α)
  | _, .null => some null
  | _, .bool b => some (bool b)
  | _, .num n =>
    match n.int64? with
    | some i => some (int i)
    | none => (WrittenScalar.ofDecimal? n.decimal).map real
  | _, .str s => s.map str
  | room + 1, .arr items => (items.mapM (ofTree? room)).map arr
  | room + 1, .obj members =>
    let entry (member : Option String × Tree) : Option (String × Json α) := do
      some (← member.1, ← ofTree? room member.2)
    (members.mapM entry).map fun members => obj (sortMembers members)
  | 0, .arr _ => none
  | 0, .obj _ => none

end Json

end RegionDrawing
