import RegionDrawing.Geometry.Point

/-! # Splines

Smooth curves through a list of points. A span between two neighbours is a cubic whose tangents
follow the points before and after it. Spans are drawn as Bézier curves and measured by sampling;
both take the same four points for the same span.
-/
namespace RegionDrawing.Spline

variable {α : Type} [Scalar α]

/-- The four points that shape a span: it runs from `start` to `stop`. -/
structure Controls (α : Type) where
  before : Point α
  start : Point α
  stop : Point α
  after : Point α

/-- A span in the form of a Bézier curve. -/
structure Span (α : Type) where
  start : Point α
  control₁ : Point α
  control₂ : Point α
  stop : Point α
  deriving BEq, DecidableEq, Repr

/-- Only a closed list of at least three points is joined at its ends. -/
def wraps (points : List (Point α)) (closed : Bool) : Bool := closed && 2 < points.length

def spanCount (n : Nat) (wrap : Bool) : Nat :=
  if n ≤ 1 then 0 else if n = 2 then 1 else if wrap then n else n - 1

/-- The positions of the four points that shape span `i` through `n` points. A joined curve goes
around, an open one repeats its ends. -/
def positions (n i : Nat) (wrap : Bool) : Nat × Nat × Nat × Nat :=
  if wrap then ((i + n - 1) % n, i, (i + 1) % n, (i + 2) % n)
  else (i - 1, i, i + 1, min (i + 2) (n - 1))

def controls (points : List (Point α)) (i : Nat) (wrap : Bool) : Controls α :=
  let (before, start, stop, after) := positions points.length i wrap
  let point (position : Nat) : Point α := points.getD position Point.origin
  ⟨point before, point start, point stop, point after⟩

def allControls (points : List (Point α)) (closed : Bool) : List (Controls α) :=
  let wrap := wraps points closed
  (List.range (spanCount points.length wrap)).map fun i => controls points i wrap

/-- The Bézier form of a span: its inner points lie a third of a tangent from its ends. -/
def Controls.span (c : Controls α) (tension : α) : Span α :=
  let k := tension / 3
  { start := c.start
    control₁ := ⟨c.start.x + (c.stop.x - c.before.x) * k, c.start.y + (c.stop.y - c.before.y) * k⟩
    control₂ := ⟨c.stop.x - (c.after.x - c.start.x) * k, c.stop.y - (c.after.y - c.start.y) * k⟩
    stop := c.stop }

def spans (points : List (Point α)) (closed : Bool) (tension : α) : List (Span α) :=
  (allControls points closed).map fun c => c.span tension

def Controls.pointAt (c : Controls α) (t tension : α) : Point α :=
  let t2 := t * t
  let t3 := t2 * t
  let h00 := 2 * t3 - 3 * t2 + 1
  let h10 := t3 - 2 * t2 + t
  let h01 := -2 * t3 + 3 * t2
  let h11 := t3 - t2
  let m1x := tension * (c.stop.x - c.before.x)
  let m1y := tension * (c.stop.y - c.before.y)
  let m2x := tension * (c.after.x - c.start.x)
  let m2y := tension * (c.after.y - c.start.y)
  ⟨h00 * c.start.x + h10 * m1x + h01 * c.stop.x + h11 * m2x,
    h00 * c.start.y + h10 * m1y + h01 * c.stop.y + h11 * m2y⟩

/-- Steps per span; asking for none gives one. -/
def stepCount (samples : Nat) : Nat := max samples 1

def sampleCount (spans samples : Nat) : Nat := spans * stepCount samples + 1

/-- The points of a span behind its first one, in equal steps of the parameter. -/
def Controls.samples (c : Controls α) (tension : α) (steps : Nat) : List (Point α) :=
  (List.range steps).map fun s => c.pointAt (((s + 1 : Nat) : α) / (steps : α)) tension

/-- The curve as a polyline. A list without spans is its own curve. -/
def sample (points : List (Point α)) (closed : Bool) (tension : α) (samples : Nat) :
    List (Point α) :=
  match points, allControls points closed with
  | first :: _, c :: rest =>
    first :: (c :: rest).flatMap fun c => c.samples tension (stepCount samples)
  | points, _ => points

end RegionDrawing.Spline
