import RegionDrawing.Canvas.Pen

/-! # Surfaces

A surface is a canvas as painting code meets it: it is asked for one command after the other and
records those that it carries out. A fallible one may be refused. Then it is not recorded, and the
drawing ends with the refusal, however deep in its pieces it was.
-/
namespace RegionDrawing.Canvas

structure Surface (α : Type) where
  /-- Which fallible calls are refused, by their number. -/
  refuses : Nat → Bool
  /-- The number of fallible calls so far. -/
  calls : Nat := 0
  recorded : List (Command α) := []

/-- What works on a surface and may end with a refusal. -/
abbrev Drawing (α : Type) := EStateM Refusal (Surface α)

variable {α : Type}

/-- Asks the surface for a command. -/
def call (command : Command α) : Drawing α Unit := fun surface =>
  let recorded := surface.recorded ++ [command]
  match command.fallible? with
  | none => .ok () { surface with recorded }
  | some call =>
    let calls := surface.calls + 1
    if surface.refuses surface.calls then .error ⟨call, surface.calls⟩ { surface with calls }
    else .ok () { surface with calls, recorded }

/-- What comes of a drawing on a fresh surface that refuses fallible calls by their number. -/
def draw (refuses : Nat → Bool) (drawing : Drawing α Unit) : Painting α :=
  match drawing.run { refuses } with
  | .ok _ surface => ⟨surface.recorded, none⟩
  | .error refusal surface => ⟨surface.recorded, some refusal⟩

namespace Drawing

def pen (pen : Pen α) : Drawing α Unit := do
  call (.strokeStyle pen.stroke)
  call (.fillStyle pen.fill)
  call (.lineWidth pen.width)

def solid : Drawing α Unit := call (.lineDash [])

variable [Scalar α]

def dashed (view : View α) : Drawing α Unit := call (.lineDash (previewDash.map view.pixels))

def polyline (points : List (Point α)) (closed : Bool) (view : View α) : Drawing α Unit := do
  call .beginPath
  match points with
  | [] => pure ()
  | first :: rest =>
    call (.moveTo (view.screen first))
    forM rest fun p => call (.lineTo (view.screen p))
    if closed then call .closePath

def spans (spans : List (Spline.Span α)) (closed : Bool) (view : View α) : Drawing α Unit := do
  call .beginPath
  match spans with
  | [] => pure ()
  | first :: _ =>
    call (.moveTo (view.screen first.start))
    forM spans fun s =>
      call (.bezierTo (view.screen s.control₁) (view.screen s.control₂) (view.screen s.stop))
    if closed then call .closePath

def handles (points : List (Point α)) (color : String) (view : View α) : Drawing α Unit := do
  call .save
  call (.fillStyle color)
  call (.strokeStyle handleOutline)
  call (.lineWidth 1)
  forM points fun p => do
    call .beginPath
    call (.circle (view.screen p) (view.pixels handleRadius))
    call .fill
    call .stroke
  call .restore

def label (text : String) (anchor : Point α) (color : String) (view : View α) : Drawing α Unit := do
  if text.isEmpty then pure ()
  else
    let p := view.screen anchor
    call .save
    call (.font labelFont)
    call (.fillStyle color)
    call (.text text ⟨p.x, p.y - labelOffset⟩)
    call .restore

end Drawing

end RegionDrawing.Canvas
