import RegionDrawing.Json.Value

/-! # Writing JSON texts

Texts without blanks. Numbers have the fewest digits that read back, whole scalars keep a zero
behind the point, and strings escape no more than they must.
-/
namespace RegionDrawing.Json

/-- Numbers in documents: positional from a hundred-thousandth up to sixteen digits before the
point, with a signed exponent otherwise. -/
def numberLayout : Layout where
  positional e := -5 ≤ e && e < 16
  pointZero := true
  tie := .toEven

def hexChar (digit : Nat) : Char := (Nat.digitChar digit)

def escapeChar (c : Char) : List Char :=
  match c with
  | '"' => ['\\', '"']
  | '\\' => ['\\', '\\']
  | '\x08' => ['\\', 'b']
  | '\x0c' => ['\\', 'f']
  | '\n' => ['\\', 'n']
  | '\r' => ['\\', 'r']
  | '\t' => ['\\', 't']
  | c =>
    if c.toNat < 0x20 then
      ['\\', 'u', '0', '0', hexChar (c.toNat / 16), hexChar (c.toNat % 16)]
    else [c]

def quote (s : String) : List Char :=
  '"' :: s.toList.flatMap escapeChar ++ ['"']

variable {α : Type} [WrittenScalar α]

/-- A finite number in the layout of documents, null for any other. -/
def scalarChars (a : α) : List Char :=
  match WrittenScalar.toDecimal? numberLayout.tie a with
  | some d => (d.text numberLayout).toList
  | none => ['n', 'u', 'l', 'l']

mutual

def chars : Json α → List Char
  | null => ['n', 'u', 'l', 'l']
  | bool true => ['t', 'r', 'u', 'e']
  | bool false => ['f', 'a', 'l', 's', 'e']
  | int i => (if i < 0 then ['-'] else []) ++ Decimal.digitText i.natAbs
  | real a => scalarChars a
  | str s => quote s
  | arr items => '[' :: itemsChars items ++ [']']
  | obj members => '{' :: membersChars members ++ ['}']

def itemsChars : List (Json α) → List Char
  | [] => []
  | [item] => chars item
  | item :: rest => chars item ++ ',' :: itemsChars rest

def membersChars : List (String × Json α) → List Char
  | [] => []
  | [(key, value)] => quote key ++ ':' :: chars value
  | (key, value) :: rest => quote key ++ ':' :: chars value ++ ',' :: membersChars rest

end

def text (value : Json α) : String := String.ofList value.chars

end RegionDrawing.Json
