import RegionDrawing.Json.Tree

/-! # Reading JSON texts

A strict reader: no comments, no trailing commas, no leading zeros, nothing but blanks behind the
value. `Tree.parse?` gives the tree of a text.
-/
namespace RegionDrawing.Json.Reader

def isBlank (c : Char) : Bool := c = ' ' || c = '\n' || c = '\t' || c = '\r'

def skipBlanks (s : List Char) : List Char := s.dropWhile isBlank

/-- The number that follows `value` when `digits` are appended to it. -/
def digitsValue (value : Nat) (digits : List Char) : Nat :=
  digits.foldl (fun n c => 10 * n + (c.toNat - '0'.toNat)) value

def digits? (s : List Char) : Option (List Char × List Char) :=
  match s.span Char.isDigit with
  | ([], _) => none
  | split => some split

/-- The digits before the point: a zero stands alone. -/
def wholePart? : List Char → Option (List Char × List Char)
  | '0' :: rest => some (['0'], rest)
  | s => digits? s

def fraction? : List Char → Option (List Char × List Char)
  | '.' :: rest => digits? rest
  | s => some ([], s)

def exponent? (s : List Char) : Option (Option Int × List Char) :=
  let value (negative : Bool) (rest : List Char) : Option (Option Int × List Char) :=
    (digits? rest).map fun (digits, rest) =>
      let n : Int := digitsValue 0 digits
      (some (if negative then -n else n), rest)
  match s with
  | c :: rest =>
    if c = 'e' || c = 'E' then
      match rest with
      | '+' :: rest => value false rest
      | '-' :: rest => value true rest
      | rest => value false rest
    else some (none, s)
  | [] => some (none, s)

def numeral? (s : List Char) : Option (Numeral × List Char) := do
  let (negative, s) := match s with
    | '-' :: rest => (true, rest)
    | s => (false, s)
  let (whole, s) ← wholePart? s
  let (fraction, s) ← fraction? s
  let (exponent, s) ← exponent? s
  let value := digitsValue (digitsValue 0 whole) fraction
  let decimal := ⟨negative, value, exponent.getD 0 - (fraction.length : Int)⟩
  some (⟨decimal, fraction.isEmpty && exponent.isNone⟩, s)

def hexDigit? (c : Char) : Option Nat :=
  if c.isDigit then some (c.toNat - '0'.toNat)
  else if 'a' ≤ c && c ≤ 'f' then some (c.toNat - 'a'.toNat + 10)
  else if 'A' ≤ c && c ≤ 'F' then some (c.toNat - 'A'.toNat + 10)
  else none

def escape? : Char → Option Nat
  | '"' => some 0x22
  | '\\' => some 0x5c
  | '/' => some 0x2f
  | 'b' => some 0x08
  | 'f' => some 0x0c
  | 'n' => some 0x0a
  | 'r' => some 0x0d
  | 't' => some 0x09
  | _ => none

/-- The codes of a string up to its closing quote. Characters below the blank must be escaped. -/
def stringCodes? : List Char → Option (List Nat × List Char)
  | [] => none
  | '"' :: rest => some ([], rest)
  | '\\' :: 'u' :: a :: b :: c :: d :: rest => do
    let code := ((((← hexDigit? a) * 16 + (← hexDigit? b)) * 16 + (← hexDigit? c)) * 16
      + (← hexDigit? d))
    let (codes, rest) ← stringCodes? rest
    some (code :: codes, rest)
  | '\\' :: letter :: rest => do
    let code ← escape? letter
    let (codes, rest) ← stringCodes? rest
    some (code :: codes, rest)
  | c :: rest => do
    if c.toNat < 0x20 || c = '\\' then none
    let (codes, rest) ← stringCodes? rest
    some (c.toNat :: codes, rest)

/-- The characters of a list of codes, two halves of a surrogate pair making one character. -/
def characters? : List Nat → Option (List Char)
  | [] => some []
  | code :: rest =>
    if code < 0xd800 || 0xdfff < code then (characters? rest).map (Char.ofNat code :: ·)
    else match rest with
      | low :: rest =>
        if code < 0xdc00 && 0xdc00 ≤ low && low ≤ 0xdfff then
          (characters? rest).map
            (Char.ofNat (0x10000 + (code - 0xd800) * 0x400 + (low - 0xdc00)) :: ·)
        else none
      | [] => none

def string? (s : List Char) : Option (Option String × List Char) :=
  (stringCodes? s).map fun (codes, rest) => ((characters? codes).map String.ofList, rest)

mutual

/-- A value at the front of a text. The text itself limits the recursion: two steps of `fuel` for
each of its characters are more than enough. -/
def value? : Nat → List Char → Option (Tree × List Char)
  | 0, _ => none
  | fuel + 1, s =>
    match skipBlanks s with
    | 'n' :: 'u' :: 'l' :: 'l' :: rest => some (.null, rest)
    | 't' :: 'r' :: 'u' :: 'e' :: rest => some (.bool true, rest)
    | 'f' :: 'a' :: 'l' :: 's' :: 'e' :: rest => some (.bool false, rest)
    | '"' :: rest => (string? rest).map fun (s, rest) => (.str s, rest)
    | '[' :: rest =>
      match skipBlanks rest with
      | ']' :: rest => some (.arr [], rest)
      | rest => (items? fuel rest).map fun (items, rest) => (.arr items, rest)
    | '{' :: rest =>
      match skipBlanks rest with
      | '}' :: rest => some (.obj [], rest)
      | rest => (members? fuel rest).map fun (members, rest) => (.obj members, rest)
    | s => (numeral? s).map fun (n, rest) => (.num n, rest)

def items? : Nat → List Char → Option (List Tree × List Char)
  | 0, _ => none
  | fuel + 1, s => do
    let (item, s) ← value? fuel s
    match skipBlanks s with
    | ',' :: rest => (items? fuel rest).map fun (items, rest) => (item :: items, rest)
    | ']' :: rest => some ([item], rest)
    | _ => none

def members? : Nat → List Char → Option (List (Option String × Tree) × List Char)
  | 0, _ => none
  | fuel + 1, s => do
    let '"' :: s := skipBlanks s | none
    let (key, s) ← string? s
    let ':' :: s := skipBlanks s | none
    let (value, s) ← value? fuel s
    match skipBlanks s with
    | ',' :: rest =>
      (members? fuel rest).map fun (members, rest) => ((key, value) :: members, rest)
    | '}' :: rest => some ([(key, value)], rest)
    | _ => none

end

end RegionDrawing.Json.Reader

namespace RegionDrawing.Json.Tree

/-- The tree of a text that is one value between blanks. -/
def parse? (text : String) : Option Tree :=
  let s := text.toList
  match Reader.value? (2 * s.length + 2) s with
  | some (tree, rest) => if (Reader.skipBlanks rest).isEmpty then some tree else none
  | none => none

end RegionDrawing.Json.Tree
