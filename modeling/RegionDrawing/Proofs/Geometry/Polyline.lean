import Mathlib
import RegionDrawing.Proofs.Geometry.Affine
import RegionDrawing.Proofs.Geometry.Crossing

/-! # Picking outlines

What is near an outline is near a point between two of its vertices, and what a ring contains lies
in the bounds of its vertices.
-/
namespace RegionDrawing.Polyline

variable {α : Type}

theorem near_eq_any [Scalar α] {points : List (Point α)} (h : points.length ≠ 1) (closed : Bool)
    (p : Point α) (tolerance : α) :
    near points closed p tolerance =
      (edges points closed).any fun e => p.distanceToSegment e.1 e.2 ≤ tolerance := by
  unfold near
  split
  · exact absurd rfl h
  · rfl

variable [FieldScalar α] [ExactScalar α] {points : List (Point α)} {p : Point α} {closed : Bool}

theorem contains_of_near {tolerance : α} (h : near points closed p tolerance) :
    ((Rect.enclosing points).expanded tolerance).contains p := by
  unfold near at h
  split at h
  · next only =>
    apply Rect.contains_expanded (Rect.contains_enclosing List.mem_cons_self)
    rw [Point.distance_comm]
    exact of_decide_eq_true h
  · obtain ⟨⟨a, b⟩, hedge, hnear⟩ := List.any_eq_true.mp h
    obtain ⟨ha, hb⟩ := mem_of_mem_edges hedge
    obtain ⟨_, ⟨t, hzero, hone, rfl⟩, hdistance⟩ := p.exists_distanceToSegment a b
    rw [decide_eq_true_eq, ← hdistance] at hnear
    exact Rect.contains_expanded (Rect.contains_lerp (Rect.contains_enclosing ha)
      (Rect.contains_enclosing hb) hzero hone) hnear

/-- What a ring contains lies in the bounds of its vertices, also where the ring crosses itself: the
bounds are four half planes. -/
theorem contains_of_interiorContains (h : interiorContains points p) :
    (Rect.enclosing points).contains p := by
  let r := Rect.enclosing points
  have hvertex : ∀ q ∈ points, (r.x ≤ q.x ∧ q.x ≤ r.right) ∧ r.y ≤ q.y ∧ q.y ≤ r.bottom :=
    fun q hq => Rect.contains_iff.mp (Rect.contains_enclosing hq)
  have hleft := halfPlane_of_interiorContains (u := 1) (v := 0) (w := -r.x) h
    fun q hq => by linarith [(hvertex q hq).1.1]
  have hright := halfPlane_of_interiorContains (u := -1) (v := 0) (w := r.right) h
    fun q hq => by linarith [(hvertex q hq).1.2]
  have htop := halfPlane_of_interiorContains (u := 0) (v := 1) (w := -r.y) h
    fun q hq => by linarith [(hvertex q hq).2.1]
  have hbottom := halfPlane_of_interiorContains (u := 0) (v := -1) (w := r.bottom) h
    fun q hq => by linarith [(hvertex q hq).2.2]
  rw [Rect.contains_iff]
  constructor
  · constructor <;> linarith
  · constructor <;> linarith

end RegionDrawing.Polyline
