import RegionDrawing.Geometry.Point
import RegionDrawing.Json.Fields
import RegionDrawing.Json.Reader

/-! # Settings

The thresholds of gestures, the shape of curves and the defaults of boxes. Settings are read from
a JSON text in which every field may be absent; `Settings.fault?` finds the first field outside
its range.
-/
namespace RegionDrawing

structure Settings (α : Type) where
  /-- Both sides of a dragged shape have to exceed this. -/
  minSize : α
  /-- Ends of a polyline that are closer than this are joined. -/
  autoCloseDistance : α
  vertexReach : α
  hitTolerance : α
  splineTension : α
  splineSamples : Nat
  boxDepth : α
  boxVanishing : Point α
  boxHitMargin : α
  deriving BEq, DecidableEq, Repr

inductive SettingsError (α : Type) where
  | unreadable
  | outOfRange (field : String) (value : α)
  deriving DecidableEq, Repr

namespace Settings

variable {α : Type}

section
variable [Scalar α]

def default : Settings α where
  minSize := 0.01
  autoCloseDistance := 0.02
  vertexReach := 0.03
  hitTolerance := 0.01
  splineTension := 0.5
  splineSamples := 16
  boxDepth := 0.3
  boxVanishing := ⟨0.5, 0.5⟩
  boxHitMargin := 0.02

/-- A value that a field has and whether it may have it. -/
structure Check (α : Type) where
  field : String
  value : α
  holds : Bool

def Check.distance (field : String) (value : α) : Check α :=
  ⟨field, value, Scalar.isFinite value && 0 ≤ value⟩

def Check.fraction (field : String) (value : α) : Check α := ⟨field, value, Scalar.inUnit value⟩

/-- All checks, in the order in which faults are reported. -/
def checks (s : Settings α) : List (Check α) :=
  [.distance "min_size" s.minSize,
    .distance "auto_close_distance" s.autoCloseDistance,
    .distance "vertex_grab_threshold" s.vertexReach,
    .distance "hit_tolerance" s.hitTolerance,
    .distance "box_hit_margin" s.boxHitMargin,
    .fraction "spline_tension" s.splineTension,
    .fraction "box_default_depth" s.boxDepth,
    .fraction "box_vanishing_point.x" s.boxVanishing.x,
    .fraction "box_vanishing_point.y" s.boxVanishing.y,
    ⟨"spline_samples", 0, s.splineSamples != 0⟩]

def fault? (s : Settings α) : Option (SettingsError α) :=
  (s.checks.find? fun check => !check.holds).map fun check => .outOfRange check.field check.value

def validated (s : Settings α) : Except (SettingsError α) (Settings α) :=
  match s.fault? with
  | some fault => .error fault
  | none => .ok s

end

variable [WrittenScalar α]

open Json (required defaulted)

def fieldNames : List String :=
  ["min_size", "auto_close_distance", "vertex_grab_threshold", "hit_tolerance", "spline_tension",
    "spline_samples", "box_default_depth", "box_vanishing_point", "box_hit_margin"]

def pointOfTree? (tree : Json.Tree) : Option (Point α) := do
  let [x, y] ← tree.fields? ["x", "y"] .ignored | none
  some ⟨← required Json.Tree.scalar? x, ← required Json.Tree.scalar? y⟩

/-- The settings of a tree, absent fields with their defaults. Unknown fields are refused. -/
def ofTree? (tree : Json.Tree) : Option (Settings α) := do
  let [minSize, autoClose, reach, tolerance, tension, samples, depth, vanishing, margin] ←
    tree.fields? fieldNames .refused | none
  let number (fallback : α) := defaulted fallback Json.Tree.scalar?
  some {
    minSize := ← number default.minSize minSize
    autoCloseDistance := ← number default.autoCloseDistance autoClose
    vertexReach := ← number default.vertexReach reach
    hitTolerance := ← number default.hitTolerance tolerance
    splineTension := ← number default.splineTension tension
    splineSamples :=
      ← defaulted (default : Settings α).splineSamples Json.Tree.unsigned64? samples
    boxDepth := ← number default.boxDepth depth
    boxVanishing := ← defaulted default.boxVanishing pointOfTree? vanishing
    boxHitMargin := ← number default.boxHitMargin margin }

def ofText (text : String) : Except (SettingsError α) (Settings α) :=
  match Json.Tree.parse? text >>= ofTree? with
  | some settings => settings.validated
  | none => .error .unreadable

end Settings

/-- Numbers in messages: always positional, and whole numbers without a point. -/
def messageLayout : Layout where
  positional _ := true
  pointZero := false
  tie := .up

def SettingsError.message {α : Type} [WrittenScalar α] : SettingsError α → String
  | unreadable => "config parse failed"
  | outOfRange field value =>
    s!"config field {field} out of range: {WrittenScalar.text messageLayout value}"

end RegionDrawing
