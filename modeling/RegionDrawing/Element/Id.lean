import RegionDrawing.Json.Reader

/-! # Element ids

Ids of 32 hexadecimal digits. They are written in lower case with hyphens and read in several
spellings.
-/
namespace RegionDrawing

structure ElementId where
  digits : Vector (Fin 16) 32
  deriving DecidableEq, Repr

namespace ElementId

/-- The numbers of digits in front of the hyphens. -/
def groups : List Nat := [8, 4, 4, 4]

/-- Sets a hyphen behind each group; what is left follows the last one. -/
def hyphenate : List Nat → List Char → List Char
  | [], s => s
  | n :: groups, s => s.take n ++ '-' :: hyphenate groups (s.drop n)

/-- Takes out the hyphens, which have to stand behind the groups. -/
def unhyphenate? : List Nat → List Char → Option (List Char)
  | [], s => some s
  | n :: groups, s =>
    match s.drop n with
    | '-' :: rest => (unhyphenate? groups rest).map (s.take n ++ ·)
    | _ => none

def digit? (c : Char) : Option (Fin 16) := (Json.Reader.hexDigit? c).map (Fin.ofNat 16)

def ofDigits? (s : List Char) : Option ElementId := do
  let digits ← s.mapM digit?
  if h : digits.length = 32 then some ⟨⟨digits.toArray, by simpa using h⟩⟩ else none

def ofHyphenated? (s : List Char) : Option ElementId := unhyphenate? groups s >>= ofDigits?

/-- What stands in front of an id that is written as a name. -/
def nameScheme : List Char := ['u', 'r', 'n', ':', 'u', 'u', 'i', 'd', ':']

/-- The rest of a name behind its scheme, whose letters may be of either case. -/
def afterScheme? (s : List Char) : Option (List Char) :=
  if (s.take nameScheme.length).map Char.toLower = nameScheme then some (s.drop nameScheme.length)
  else none

/-- Reads plain digits or hyphenated ones, the latter also in braces or as a name. -/
def ofChars? : List Char → Option ElementId
  | '{' :: rest => if rest.getLast? = some '}' then ofHyphenated? rest.dropLast else none
  | s =>
    match afterScheme? s with
    | some rest => ofHyphenated? rest
    | none => ofDigits? s <|> ofHyphenated? s

def parse? (text : String) : Option ElementId := ofChars? text.toList

def chars (id : ElementId) : List Char :=
  hyphenate groups (id.digits.toList.map fun digit => Nat.digitChar digit.val)

def text (id : ElementId) : String := String.ofList id.chars

def nil : ElementId := ⟨Vector.replicate 32 0⟩

end ElementId

end RegionDrawing
