import RegionDrawing.Json.Value

/-! # Records in JSON

A record is written as an object with the names of its fields, or as a list of its fields in
order. `Tree.fields?` and `Json.fields?` give the fields in order, absent ones as `none`.
-/
namespace RegionDrawing.Json

variable {β γ : Type}

/-- What to do with object members that are no fields. -/
inductive Unknown where
  | ignored
  | refused
  deriving DecidableEq, Repr

/-- The fields among the members of an object; a field may not be repeated. -/
def namedFields? (names : List String) (unknown : Unknown) (members : List (String × β)) :
    Option (List (Option β)) :=
  if unknown = .refused && members.any fun (key, _) => !names.contains key then none
  else names.mapM fun name =>
    match members.filter fun (key, _) => key == name with
    | [] => some none
    | [(_, value)] => some (some value)
    | _ => none

/-- The fields of a record of the given size written as a list; the last ones may be absent. -/
def positionalFields? (size : Nat) (items : List β) : Option (List (Option β)) :=
  if items.length ≤ size then
    some (items.map some ++ List.replicate (size - items.length) none)
  else none

/-- The fields of a record as written. Every key has to be a text, also that of an unknown
member. -/
def Tree.fields? (names : List String) (unknown : Unknown) : Tree → Option (List (Option Tree))
  | .arr items => positionalFields? names.length items
  | .obj members => do
    let members ← members.mapM fun (key, value) => key.map fun key => (key, value)
    namedFields? names unknown members
  | _ => none

def fields? {α : Type} (names : List String) : Json α → Option (List (Option (Json α)))
  | arr items => positionalFields? names.length items
  | obj members => namedFields? names .ignored members
  | _ => none

def required (read : β → Option γ) (field : Option β) : Option γ := field.bind read

def defaulted (fallback : γ) (read : β → Option γ) : Option β → Option γ
  | none => some fallback
  | some value => read value

def optional (read : Tree → Option γ) : Option Tree → Option (Option γ)
  | none => some none
  | some .null => some none
  | some value => (read value).map some

end RegionDrawing.Json
