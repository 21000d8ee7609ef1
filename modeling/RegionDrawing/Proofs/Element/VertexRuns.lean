import RegionDrawing.Binary64.Scalar
import RegionDrawing.Drawer.Polyline
import RegionDrawing.VertexEditor
import RegionDrawing.Proofs.Binary64.Rational
import RegionDrawing.Proofs.Geometry.Media
import RegionDrawing.Proofs.Geometry.NearestVertex

/-! # Runs of a vertex editor

Presses, drags and releases may come in any order. The drags that are made while a vertex is held
decide the geometry: the last one of a vertex gives its place and all other vertices stay where
they were.
-/
namespace RegionDrawing

variable {α : Type} [Scalar α]

namespace Polyline

def moveVertices (points : List (Point α)) (drags : List (Nat × Point α)) : List (Point α) :=
  drags.foldl (fun points drag => moveVertex points drag.1 drag.2) points

variable {points : List (Point α)} {drags : List (Nat × Point α)} {position : Nat}

theorem moveVertices_append (points : List (Point α)) (drags others : List (Nat × Point α)) :
    moveVertices points (drags ++ others) = moveVertices (moveVertices points drags) others :=
  List.foldl_append

theorem length_moveVertices (points : List (Point α)) (drags : List (Nat × Point α)) :
    (moveVertices points drags).length = points.length := by
  induction drags generalizing points with
  | nil => rfl
  | cons drag rest ih => exact (ih _).trans List.length_set

theorem getElem?_moveVertices_of_untouched (h : ∀ drag ∈ drags, drag.1 ≠ position) :
    (moveVertices points drags)[position]? = points[position]? := by
  induction drags generalizing points with
  | nil => rfl
  | cons drag rest ih =>
    calc (moveVertices (moveVertex points drag.1 drag.2) rest)[position]?
        = (moveVertex points drag.1 drag.2)[position]? :=
          ih fun other hother => h other (List.mem_cons_of_mem _ hother)
      _ = points[position]? := List.getElem?_set_ne (h drag List.mem_cons_self)

/-- The last move of a vertex decides its place. -/
theorem getElem?_moveVertices_of_last {before behind : List (Nat × Point α)} {target : Point α}
    (hposition : position < points.length) (h : ∀ drag ∈ behind, drag.1 ≠ position) :
    (moveVertices points (before ++ (position, target) :: behind))[position]? =
      some target.clamped := by
  rw [moveVertices_append]
  have hlt : position < (moveVertices points before).length := by
    rw [length_moveVertices]
    exact hposition
  calc (moveVertices (moveVertex (moveVertices points before) position target) behind)[position]?
      = (moveVertex (moveVertices points before) position target)[position]? :=
        getElem?_moveVertices_of_untouched h
    _ = some target.clamped := List.getElem?_set_self hlt

end Polyline

namespace VertexEditor

/-- One of the calls that an editor takes after it has begun. -/
inductive Call (α : Type) where
  | press (p : Point α)
  | drag (p : Point α)
  | release

def after (editor : VertexEditor α) : Call α → VertexEditor α
  | .press p => (editor.press p).1
  | .drag p => (editor.drag p).1
  | .release => editor.release

def run (editor : VertexEditor α) (calls : List (Call α)) : VertexEditor α :=
  calls.foldl after editor

/-- The vertex that a call drags, if it holds one, with the place that it is dragged to. -/
def dragged? (editor : VertexEditor α) : Call α → Option (Nat × Point α)
  | .drag p => editor.held.map (·, p)
  | _ => none

def drags (editor : VertexEditor α) : List (Call α) → List (Nat × Point α)
  | [] => []
  | call :: calls => (editor.dragged? call).toList ++ drags (editor.after call) calls

/-- An editor has an outline of its kind and holds one of the vertices, if any. -/
structure Holds (editor : VertexEditor α) (kind : OutlineKind) (outline : Outline α) : Prop where
  shape : editor.shape = kind.shape outline
  held : ∀ position, editor.held = some position → position < outline.points.length

theorem moved_shape (kind : OutlineKind) (outline : Outline α) (position : Nat) (p : Point α) :
    moved (kind.shape outline) position p =
      kind.shape ⟨Polyline.moveVertex outline.points position p, outline.closed⟩ := by
  cases kind <;> rfl

variable {editor : VertexEditor α} {kind : OutlineKind} {outline : Outline α}

namespace Holds

omit [Scalar α] in
theorem points (h : editor.Holds kind outline) : editor.points = outline.points := by
  rw [VertexEditor.points, h.shape]
  cases kind <;> rfl

theorem drag (h : editor.Holds kind outline) (p : Point α) :
    (editor.drag p).2 = editor.held.map fun position =>
      kind.shape ⟨Polyline.moveVertex outline.points position p, outline.closed⟩ := by
  unfold VertexEditor.drag
  cases editor.held with
  | none => rfl
  | some position =>
    simp only [h.shape, moved_shape]
    rfl

theorem press (h : editor.Holds kind outline) (p : Point α) :
    (editor.press p).2 = Polyline.nearestVertex? outline.points p editor.reach := by
  rw [VertexEditor.press, h.points]

theorem after (h : editor.Holds kind outline) (call : Call α) :
    (editor.after call).Holds kind
      ⟨Polyline.moveVertices outline.points (editor.dragged? call).toList, outline.closed⟩ := by
  cases call with
  | press p =>
    refine ⟨h.shape, fun position hpress => ?_⟩
    rw [← h.points]
    exact Polyline.nearestVertex?_lt hpress
  | drag p =>
    obtain ⟨hshape, hlt⟩ := h
    unfold VertexEditor.after VertexEditor.drag dragged?
    cases hheld : editor.held with
    | none => exact ⟨hshape, fun _ hother => absurd (hheld.symm.trans hother) nofun⟩
    | some position =>
      simp only [hshape, moved_shape]
      refine ⟨rfl, fun other hother => ?_⟩
      rw [Polyline.length_moveVertices]
      exact hlt other (hheld.trans hother)
  | release => exact ⟨h.shape, fun position hposition => nomatch hposition⟩

omit [Scalar α] in
theorem lt_of_dragged? (h : editor.Holds kind outline) {call : Call α} {drag : Nat × Point α}
    (hdrag : editor.dragged? call = some drag) : drag.1 < outline.points.length := by
  cases call with
  | press p => cases hdrag
  | drag p =>
    obtain ⟨position, hheld, rfl⟩ := Option.map_eq_some_iff.mp hdrag
    exact h.held position hheld
  | release => cases hdrag

theorem run (h : editor.Holds kind outline) (calls : List (Call α)) :
    (editor.run calls).Holds kind
      ⟨Polyline.moveVertices outline.points (editor.drags calls), outline.closed⟩ := by
  induction calls generalizing editor outline with
  | nil => exact h
  | cons call rest ih =>
    have hrest := ih (h.after call)
    rw [drags, Polyline.moveVertices_append]
    exact hrest

theorem lt_of_mem_drags (h : editor.Holds kind outline) {calls : List (Call α)}
    {drag : Nat × Point α} (hdrag : drag ∈ editor.drags calls) :
    drag.1 < outline.points.length := by
  induction calls generalizing editor outline with
  | nil => cases hdrag
  | cons call rest ih =>
    rcases List.mem_append.mp hdrag with hdrag | hdrag
    · exact h.lt_of_dragged? (Option.mem_toList.mp hdrag)
    · have hlt := ih (h.after call) hdrag
      rw [Polyline.length_moveVertices] at hlt
      exact hlt

end Holds

theorem after_id_reach (editor : VertexEditor α) (call : Call α) :
    (editor.after call).id = editor.id ∧ (editor.after call).reach = editor.reach := by
  cases call with
  | press p => exact ⟨rfl, rfl⟩
  | drag p =>
    rw [after, drag]
    cases editor.held <;> exact ⟨rfl, rfl⟩
  | release => exact ⟨rfl, rfl⟩

theorem run_id_reach (editor : VertexEditor α) (calls : List (Call α)) :
    (editor.run calls).id = editor.id ∧ (editor.run calls).reach = editor.reach := by
  induction calls generalizing editor with
  | nil => exact ⟨rfl, rfl⟩
  | cons call rest ih =>
    obtain ⟨hid, hreach⟩ := editor.after_id_reach call
    obtain ⟨hrestId, hrestReach⟩ := ih (editor.after call)
    exact ⟨hrestId.trans hid, hrestReach.trans hreach⟩

omit [Scalar α] in
theorem begin?_eq_some {element : Element α} (h : element.shape = kind.shape outline) (reach : α) :
    begin? element reach = some ⟨element.id, kind.shape outline, reach, none⟩ := by
  unfold begin?
  rw [h]
  cases kind <;> rfl

/-- Editing touches only what is dragged. A vertex that is never dragged stays, one that is has the
nearest place on the media to its last drag, and kind, closing and number of vertices never change.
What is held is a vertex: the nearest one in reach of the last press, where the vertices are taken
from the geometry at that moment, or none if all are out of reach. -/
theorem run_touches_dragged [LawfulScalar α] [LawfulOrder α] {element : Element α}
    (h : element.shape = kind.shape outline) (reach : α) :
    ∃ editor, begin? element reach = some editor ∧ ∀ calls : List (Call α),
      ∃ points, (editor.run calls).id = element.id ∧
        (editor.run calls).shape = kind.shape ⟨points, outline.closed⟩ ∧
        points.length = outline.points.length ∧
        (∀ position, (editor.run calls).held = some position → position < points.length) ∧
        (∀ position, (∀ drag ∈ editor.drags calls, drag.1 ≠ position) →
          points[position]? = outline.points[position]?) ∧
        (∀ before position target behind,
          editor.drags calls = before ++ (position, target) :: behind →
          (∀ drag ∈ behind, drag.1 ≠ position) →
          points[position]? = some target.clamped ∧
            (target.isFinite → target.clamped.inMedia)) ∧
        (∀ p, ((editor.run calls).drag p).2 = (editor.run calls).held.map fun position =>
          kind.shape ⟨Polyline.moveVertex points position p, outline.closed⟩) ∧
        ∀ p, ((editor.run calls).press p).1 =
            { editor.run calls with held := ((editor.run calls).press p).2 } ∧
          (∀ position, ((editor.run calls).press p).2 = some position →
            Polyline.IsNearest points p reach position) ∧
          (((editor.run calls).press p).2 = none ↔ ∀ q ∈ points, q.distance p > reach) := by
  refine ⟨_, begin?_eq_some h reach, fun calls => ?_⟩
  generalize hbegun : (⟨element.id, kind.shape outline, reach, none⟩ : VertexEditor α) = editor
  have hholds : editor.Holds kind outline := by
    rw [← hbegun]
    exact ⟨rfl, fun position hposition => nomatch hposition⟩
  have hid : (editor.run calls).id = element.id := by
    rw [(editor.run_id_reach calls).1, ← hbegun]
  have hreach : (editor.run calls).reach = reach := by
    rw [(editor.run_id_reach calls).2, ← hbegun]
  have hrun := hholds.run calls
  refine ⟨_, hid, hrun.shape, Polyline.length_moveVertices _ _, hrun.held, ?_, ?_, hrun.drag, ?_⟩
  · intro position huntouched
    exact Polyline.getElem?_moveVertices_of_untouched huntouched
  · intro before position target behind hdrags hlast
    have hmem : (position, target) ∈ editor.drags calls := by
      rw [hdrags]
      exact List.mem_append_right _ List.mem_cons_self
    rw [hdrags]
    refine ⟨Polyline.getElem?_moveVertices_of_last (hholds.lt_of_mem_drags hmem) hlast, ?_⟩
    exact fun hfinite => Point.inMedia_clamped (Point.isDefined_of_isFinite hfinite)
  · intro p
    refine ⟨rfl, ?_⟩
    rw [hrun.press, hreach]
    exact ⟨fun position => Polyline.isNearest_of_nearestVertex?,
      Polyline.nearestVertex?_eq_none_iff⟩

def triangle : Outline Float := ⟨[⟨0.25, 0.25⟩, ⟨0.75, 0.25⟩, ⟨0.5, 0.75⟩], true⟩

/-- Drags the first vertex twice, the second time beyond a corner of the media, and lets go. -/
def dragToCorner : List (Call Float) :=
  [.drag ⟨0.5, 0.5⟩, .press ⟨0.25, 0.28⟩, .drag ⟨0.5, 0.5⟩, .drag ⟨1.5, -0.5⟩, .release,
    .drag ⟨0.1, 0.1⟩]

/-- The vertex lies in the corner, where the next press finds it, and no longer where it was first
taken hold of. The others have not moved. -/
theorem dragToCorner_touches_first :
    let element : Element Float := ⟨ElementId.nil, "", none, none, 0, 0, .polygon triangle⟩
    element.shape = OutlineKind.polygon.shape triangle ∧
      ∃ editor points, begin? element 0.0625 = some editor ∧
        (editor.run dragToCorner).shape = .polygon ⟨points, true⟩ ∧
        points[0]? = some ⟨1, 0⟩ ∧ points[1]? = some ⟨0.75, 0.25⟩ ∧
        points[2]? = some ⟨0.5, 0.75⟩ ∧
        Polyline.IsNearest points ⟨1, 0.03⟩ 0.0625 0 ∧
        ∀ q ∈ points, q.distance ⟨0.25, 0.28⟩ > 0.0625 := by
  intro element
  have helement : element.shape = OutlineKind.polygon.shape triangle := rfl
  refine ⟨helement, ?_⟩
  obtain ⟨editor, hbegin, hall⟩ := run_touches_dragged helement 0.0625
  obtain ⟨points, _, hshape, _, _, huntouched, hlast, _, hpress⟩ := hall dragToCorner
  obtain rfl : ⟨ElementId.nil, .polygon triangle, 0.0625, none⟩ = editor :=
    Option.some.inj hbegin
  have hdrags : drags ⟨ElementId.nil, .polygon triangle, 0.0625, none⟩ dragToCorner =
      [(0, ⟨0.5, 0.5⟩), (0, ⟨1.5, -0.5⟩)] := by decide +kernel
  rw [hdrags] at huntouched
  obtain ⟨hcorner, _⟩ := hlast [(0, ⟨0.5, 0.5⟩)] 0 ⟨1.5, -0.5⟩ [] hdrags nofun
  refine ⟨_, points, hbegin, hshape, ?_, ?_, ?_, ?_, ?_⟩
  · rw [hcorner]
    decide +kernel
  · rw [huntouched 1 (by decide +kernel)]
    decide +kernel
  · rw [huntouched 2 (by decide +kernel)]
    decide +kernel
  · exact (hpress ⟨1, 0.03⟩).2.1 0 (by decide +kernel)
  · exact (hpress ⟨0.25, 0.28⟩).2.2.mp (by decide +kernel)

end VertexEditor

end RegionDrawing
