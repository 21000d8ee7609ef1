import RegionDrawing.Geometry.Point

/-! # Canvas commands

Painting is described by a list of commands in canvas pixels. A canvas carries them out one after
the other. It may refuse some of them; the first refusal ends the painting.
-/
namespace RegionDrawing.Canvas

inductive Command (α : Type) where
  | save
  | restore
  | beginPath
  | moveTo (p : Point α)
  | lineTo (p : Point α)
  | bezierTo (control₁ control₂ p : Point α)
  | closePath
  | circle (center : Point α) (radius : α)
  | fill
  | stroke
  | strokeStyle (color : String)
  | fillStyle (color : String)
  | lineWidth (width : α)
  | lineDash (segments : List α)
  | font (font : String)
  | text (text : String) (p : Point α)
  deriving BEq, DecidableEq, Repr

inductive FallibleCall where
  | circle
  | dash
  | text
  deriving DecidableEq, Repr

def FallibleCall.name : FallibleCall → String
  | circle => "circle"
  | dash => "dash"
  | text => "text"

/-- A refusal, with the number of fallible calls before it. -/
structure Refusal where
  call : FallibleCall
  index : Nat
  deriving DecidableEq, Repr

def Refusal.message (refusal : Refusal) : String :=
  s!"canvas call failed: {refusal.call.name} {refusal.index} rejected"

variable {α : Type}

def Command.fallible? : Command α → Option FallibleCall
  | circle .. => some .circle
  | lineDash .. => some .dash
  | text .. => some .text
  | _ => none

/-- What came of a painting: the commands carried out, and the refusal that ended it. -/
structure Painting (α : Type) where
  commands : List (Command α)
  refusal : Option Refusal
  deriving BEq, DecidableEq, Repr

/-- Carries commands out behind `index` fallible ones. -/
def paintFrom (refuses : Nat → Bool) : Nat → List (Command α) → Painting α
  | _, [] => ⟨[], none⟩
  | index, command :: rest =>
    match command.fallible? with
    | none =>
      let painting := paintFrom refuses index rest
      ⟨command :: painting.commands, painting.refusal⟩
    | some call =>
      if refuses index then ⟨[], some ⟨call, index⟩⟩
      else
        let painting := paintFrom refuses (index + 1) rest
        ⟨command :: painting.commands, painting.refusal⟩

/-- Carries commands out on a canvas that refuses fallible ones by their number. -/
def paint (refuses : Nat → Bool) (commands : List (Command α)) : Painting α :=
  paintFrom refuses 0 commands

def strokeCount (commands : List (Command α)) : Nat :=
  commands.countP fun
    | .stroke => true
    | _ => false

def usesDash (commands : List (Command α)) : Bool :=
  commands.any fun
    | .lineDash segments => !segments.isEmpty
    | _ => false

def texts (commands : List (Command α)) : List String :=
  commands.filterMap fun
    | .text text _ => some text
    | _ => none

end RegionDrawing.Canvas
