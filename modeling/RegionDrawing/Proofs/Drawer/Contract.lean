import RegionDrawing.Proofs.Geometry.FiniteDrag
import RegionDrawing.Proofs.Session.Drag

/-! # What built-in drawers owe the session

The session drops a completed gesture without a word if its shape is missing or cannot be stored. A
built-in drawer under settings without a fault never lets that happen: an outcome is complete
exactly if it has a shape, and the shape is of the drawer's kind and can be stored. Which event ends
a gesture depends on the drawer, and no other event does.
-/
namespace RegionDrawing

/-- The events of a gesture of which a drawer is told. -/
inductive Phase where
  | start
  | move
  | finish
  | complete
  deriving DecidableEq, Repr

variable {α : Type}

def Drawer.outcome (drawer : Drawer α) : Phase → DrawingContext α → Outcome α
  | .start => drawer.start
  | .move => drawer.move
  | .finish => drawer.finish
  | .complete => drawer.complete

namespace ShapeKind

/-- Whether a kind of shape is given by a list of points. -/
def IsOutline (kind : ShapeKind) : Prop := kind = .polygon ∨ kind = .path

/-- When the drawer for a kind of shape is done: with a drag at its release if both sides exceed
the least size, with a list of at least two points at a double click. -/
def Completes [Scalar α] (kind : ShapeKind) (settings : Settings α) (context : DrawingContext α) :
    Phase → Prop
  | .start | .move => False
  | .finish => (kind = .rect ∨ kind = .box) ∧ ∃ start, context.start = some start ∧
      (Rect.dragged start context.current context.event.modifiers.shift).exceeds settings.minSize
  | .complete => kind.IsOutline ∧ 2 ≤ context.points.length

end ShapeKind

variable [Scalar α]

/-- Whether the pointer has coordinates, which are clamped to the media, and the start and the
points of a gesture are finite. -/
structure DrawingContext.IsFinite (context : DrawingContext α) : Prop where
  event : context.event.position.isDefined
  start : ∀ start, context.start = some start → start.isFinite
  points : ∀ p ∈ context.points, p.isFinite

/-- What a session relies on in the outcome of an event for a drawer: it is complete exactly if it
has a shape, and only when the drawer is done; that shape can be stored; shape and preview are of
the drawer's kind; and only the start of a list replaces the points. -/
structure Outcome.Keeps (outcome : Outcome α) (kind : ShapeKind) (settings : Settings α)
    (context : DrawingContext α) (phase : Phase) : Prop where
  shape_iff : outcome.complete = true ↔ outcome.shape.isSome = true
  shape : ∀ shape, outcome.shape = some shape → shape.isValid = true ∧ shape.kind = kind
  preview : ∀ preview, outcome.preview = some preview → preview.kind = kind
  complete_iff : outcome.complete = true ↔ kind.Completes settings context phase
  points_iff : outcome.points.isSome = true ↔ phase = .start ∧ kind.IsOutline

namespace Outcome

variable {kind : ShapeKind} {settings : Settings α} {context : DrawingContext α} {phase : Phase}

theorem keeps_discarded (h : ¬ kind.Completes settings context phase) (hphase : phase ≠ .start) :
    (discarded : Outcome α).Keeps kind settings context phase :=
  ⟨by simp [discarded], nofun, nofun, by simp [discarded, h], by simp [discarded, hphase]⟩

theorem keeps_pending {preview : Preview α} (hpreview : preview.kind = kind)
    (h : ¬ kind.Completes settings context phase) (hphase : phase ≠ .start) :
    (pending preview).Keeps kind settings context phase := by
  refine ⟨by simp [pending], nofun, ?_, by simp [pending, h], by simp [pending, hphase]⟩
  rintro _ ⟨⟩
  exact hpreview

theorem keeps_completed {shape : Shape α} (hvalid : shape.isValid) (hkind : shape.kind = kind)
    (h : kind.Completes settings context phase) (hphase : phase ≠ .start) :
    (completed shape).Keeps kind settings context phase := by
  refine ⟨by simp [completed], ?_, nofun, by simp [completed, h], by simp [completed, hphase]⟩
  rintro _ ⟨⟩
  exact ⟨hvalid, hkind⟩

end Outcome

namespace DragKind

def shapeKind : DragKind → ShapeKind
  | rect => .rect
  | box => .box

theorem shapeKind_cases (kind : DragKind) : kind.shapeKind = .rect ∨ kind.shapeKind = .box := by
  cases kind with
  | rect => exact .inl rfl
  | box => exact .inr rfl

theorem not_isOutline (kind : DragKind) : ¬ kind.shapeKind.IsOutline := by
  cases kind <;> exact fun h => h.elim nofun nofun

omit [Scalar α] in
theorem kind_shape (kind : DragKind) (settings : Settings α) (bounds : Rect α) :
    (kind.shape settings bounds).kind = kind.shapeKind := by cases kind <;> rfl

variable {settings : Settings α} {context : DrawingContext α} {start : Point α}

theorem completes_iff (kind : DragKind) (settings : Settings α) (h : context.start = some start) :
    kind.shapeKind.Completes settings context .finish ↔
      (Rect.dragged start context.current context.event.modifiers.shift).exceeds
        settings.minSize := by
  simp only [ShapeKind.Completes, kind.shapeKind_cases, h, Option.some.injEq, true_and,
    exists_eq_left']

theorem not_completes (kind : DragKind) (h : context.start = none) :
    ¬ kind.shapeKind.Completes settings context .finish := by
  rintro ⟨_, start, hstart, _⟩
  rw [h] at hstart
  cases hstart

theorem keeps_start (kind : DragKind) :
    ((kind.drawer settings).outcome .start context).Keeps kind.shapeKind settings context
      .start := by
  have hpoints : ¬ (Phase.start = .start ∧ kind.shapeKind.IsOutline) :=
    fun h => kind.not_isOutline h.2
  cases kind
  all_goals
    refine ⟨iff_of_false Bool.false_ne_true Bool.false_ne_true, ?_, ?_,
      iff_of_false Bool.false_ne_true id, iff_of_false Bool.false_ne_true hpoints⟩
    · rintro _ ⟨⟩
    · rintro _ ⟨⟩
      rfl

/-- The finish is where it matters that a dragged rectangle is always a proper one. -/
theorem keeps {settings : Settings Float} {context : DrawingContext Float}
    (hsettings : settings.fault? = none) (hcontext : context.IsFinite) (kind : DragKind)
    (phase : Phase) :
    ((kind.drawer settings).outcome phase context).Keeps kind.shapeKind settings context
      phase := by
  cases phase with
  | start => exact kind.keeps_start
  | move =>
    cases hstart : context.start with
    | none =>
      show ((kind.drawer settings).move context).Keeps _ _ _ _
      rw [kind.move_drawer_of_none settings hstart]
      exact Outcome.keeps_discarded id (by decide)
    | some start =>
      show ((kind.drawer settings).move context).Keeps _ _ _ _
      rw [kind.move_drawer settings hstart]
      exact Outcome.keeps_pending (kind.kind_shape _ _) id (by decide)
  | finish =>
    show ((kind.drawer settings).finish context).Keeps _ _ _ _
    cases hstart : context.start with
    | none =>
      rw [kind.finish_drawer_of_none settings hstart]
      exact Outcome.keeps_discarded (kind.not_completes hstart) (by decide)
    | some start =>
      have hcompletes := kind.completes_iff settings hstart
      rw [kind.finish_drawer settings hstart]
      split
      · next hsize =>
        have hproper := Rect.isProper_dragged_of_isFinite (hcontext.start start hstart)
          (Point.inMedia_clamped hcontext.event) context.event.modifiers.shift
        exact Outcome.keeps_completed (kind.isValid_shape hsettings hproper)
          (kind.kind_shape _ _) (hcompletes.mpr hsize) (by decide)
      · next hsize => exact Outcome.keeps_discarded (mt hcompletes.mp hsize) (by decide)
  | complete =>
    have hdiscarded : (kind.drawer settings).complete context = .discarded := by
      cases kind <;> rfl
    show ((kind.drawer settings).complete context).Keeps _ _ _ _
    rw [hdiscarded]
    exact Outcome.keeps_discarded (fun h => kind.not_isOutline h.1) (by decide)

end DragKind

namespace OutlineKind

def shapeKind : OutlineKind → ShapeKind
  | polygon => .polygon
  | path => .path

theorem isOutline (kind : OutlineKind) : kind.shapeKind.IsOutline := by
  cases kind with
  | polygon => exact .inl rfl
  | path => exact .inr rfl

omit [Scalar α] in
theorem kind_shape (kind : OutlineKind) (outline : Outline α) :
    (kind.shape outline).kind = kind.shapeKind := by cases kind <;> rfl

variable {settings : Settings α} {context : DrawingContext α}

theorem not_completes_finish (kind : OutlineKind) :
    ¬ kind.shapeKind.Completes settings context .finish := by
  rintro ⟨h, _⟩
  cases kind <;> exact h.elim nofun nofun

theorem keeps_move (kind : OutlineKind) {phase : Phase}
    (h : ¬ kind.shapeKind.Completes settings context phase) (hphase : phase ≠ .start) :
    (PolylineDrawer.move kind context).Keeps kind.shapeKind settings context phase := by
  rw [PolylineDrawer.move]
  split
  · exact Outcome.keeps_discarded h hphase
  · exact Outcome.keeps_pending (kind.kind_shape _) h hphase

theorem keeps (hcontext : context.IsFinite) (kind : OutlineKind) (phase : Phase) :
    ((polylineDrawer kind settings).outcome phase context).Keeps kind.shapeKind settings context
      phase := by
  cases phase with
  | start =>
    refine ⟨iff_of_false Bool.false_ne_true Bool.false_ne_true, ?_, ?_,
      iff_of_false Bool.false_ne_true id, iff_of_true rfl ⟨rfl, kind.isOutline⟩⟩
    · rintro _ ⟨⟩
    · rintro _ ⟨⟩
      exact kind.kind_shape _
  | move => exact kind.keeps_move id (by decide)
  | finish => exact kind.keeps_move kind.not_completes_finish (by decide)
  | complete =>
    show (PolylineDrawer.complete kind settings context).Keeps _ _ _ _
    rw [PolylineDrawer.complete]
    split
    · next hshort => exact Outcome.keeps_discarded (fun h => absurd h.2 (by omega)) (by decide)
    · next hlong =>
      exact Outcome.keeps_completed
        (kind.isValid_shape (by omega) hcontext.points _) (kind.kind_shape _)
        ⟨kind.isOutline, by omega⟩ (by decide)

end OutlineKind

/-- Whatever a built-in drawer under settings without a fault is told of an event with coordinates,
over a gesture of finite points. -/
theorem builtInDrawer_keeps {settings : Settings Float} {context : DrawingContext Float}
    (hsettings : settings.fault? = none) (hcontext : context.IsFinite) (kind : ShapeKind)
    (phase : Phase) :
    ((builtInDrawer kind settings).outcome phase context).Keeps
      (builtInDrawer kind settings).info.kind settings context phase := by
  cases kind with
  | rect => exact DragKind.rect.keeps hsettings hcontext phase
  | polygon => exact OutlineKind.polygon.keeps hcontext phase
  | path => exact OutlineKind.path.keeps hcontext phase
  | box => exact DragKind.box.keeps hsettings hcontext phase

end RegionDrawing
