import Mathlib
import RegionDrawing.Proofs.Geometry.Polyline
import RegionDrawing.Proofs.Scalar.Real

/-! # Near an outline

A point is near an outline if some point of an edge is within the tolerance. This holds as long as
no edge is too short to project on without being a single point, and then it does not matter how the
outline is listed.
-/
namespace RegionDrawing.Polyline

variable {α : Type}

theorem near_rotate [Scalar α] {points : List (Point α)} (h : 2 < points.length) (p : Point α)
    (tolerance : α) (k : Nat) :
    near (points.rotate k) true p tolerance = near points true p tolerance := by
  rw [near_eq_any (by rw [List.length_rotate]; omega), near_eq_any (by omega),
    (edges_rotate h k).any_eq]

variable [FieldScalar α] [ExactScalar α] {points : List (Point α)} {closed : Bool}

theorem distanceToSegment_le_iff {p a b : Point α} {tolerance : α} (h : a.IsMeasured b) :
    p.distanceToSegment a b ≤ tolerance ↔ ∃ q, q.OnSegment a b ∧ p.distance q ≤ tolerance := by
  obtain ⟨⟨q, hq, hdistance⟩, hleast⟩ := Point.isLeast_distanceToSegment (p := p) h
  constructor
  · exact fun hle => ⟨q, hq, hdistance.trans_le hle⟩
  · rintro ⟨q, hq, hle⟩
    exact (hleast ⟨q, hq, rfl⟩).trans hle

/-- Whether no edge of an outline is too short to project on, apart from single points. -/
def AllMeasured (points : List (Point α)) (closed : Bool) : Prop :=
  ∀ a b, IsEdge points closed a b → a.IsMeasured b

theorem AllMeasured.reverse (h : AllMeasured points closed) : AllMeasured points.reverse closed :=
  fun a b hedge => (h b a (isEdge_reverse_iff.mp hedge)).symm

theorem near_iff (htwo : 2 ≤ points.length) (h : AllMeasured points closed) (p : Point α)
    (tolerance : α) : near points closed p tolerance = true ↔
      ∃ a b q, IsEdge points closed a b ∧ q.OnSegment a b ∧ p.distance q ≤ tolerance := by
  rw [near_eq_any (by omega), List.any_eq_true]
  constructor
  · rintro ⟨⟨a, b⟩, hmem, hnear⟩
    have hedge := mem_edges_iff.mp hmem
    rw [decide_eq_true_eq, distanceToSegment_le_iff (h a b hedge)] at hnear
    obtain ⟨q, hq, hle⟩ := hnear
    exact ⟨a, b, q, hedge, hq, hle⟩
  · rintro ⟨a, b, q, hedge, hq, hle⟩
    refine ⟨(a, b), mem_edges_iff.mpr hedge, ?_⟩
    rw [decide_eq_true_eq, distanceToSegment_le_iff (h a b hedge)]
    exact ⟨q, hq, hle⟩

theorem near_reverse (htwo : 2 ≤ points.length) (h : AllMeasured points closed) (p : Point α)
    (tolerance : α) :
    near points.reverse closed p tolerance = near points closed p tolerance := by
  rw [Bool.eq_iff_iff, near_iff (by rwa [List.length_reverse]) h.reverse, near_iff htwo h]
  constructor
  · rintro ⟨a, b, q, hedge, hq, hle⟩
    exact ⟨b, a, q, isEdge_reverse_iff.mp hedge, hq.symm, hle⟩
  · rintro ⟨a, b, q, hedge, hq, hle⟩
    exact ⟨b, a, q, isEdge_reverse_iff.mpr hedge, hq.symm, hle⟩

/-- The distance to a segment is the distance to one of its points. It is the least one if the
segment is long enough to project on or a single point, and else larger than the least one by no
more than the length of the segment. So an outline without edges that are too short is near a point
exactly if a point of some edge is within the tolerance, in whichever direction the outline is
listed, and from whichever vertex if it is closed. -/
theorem outline_near_within_tolerance (p : Point α) :
    (∀ a b : Point α,
      (∃ q, q.OnSegment a b ∧ p.distance q = p.distanceToSegment a b) ∧
      ∃ least, IsLeast (p.segmentDistances a b) least ∧
        (a = b ∨ 1 / 2 ^ 52 < a.distance b ^ 2 → p.distanceToSegment a b = least) ∧
        p.distanceToSegment a b ≤ least + a.distance b) ∧
    ∀ (points : List (Point α)) (closed : Bool), 2 ≤ points.length → AllMeasured points closed →
      ∀ tolerance,
        (near points closed p tolerance = true ↔
          ∃ a b q, IsEdge points closed a b ∧ q.OnSegment a b ∧ p.distance q ≤ tolerance) ∧
        near points.reverse closed p tolerance = near points closed p tolerance ∧
        (closed → 2 < points.length → ∀ k,
          near (points.rotate k) closed p tolerance = near points closed p tolerance) := by
  constructor
  · intro a b
    obtain ⟨least, hleast⟩ := p.exists_isLeast_segmentDistances a b
    exact ⟨p.exists_distanceToSegment a b, least, hleast,
      fun hmeasured => (Point.isLeast_distanceToSegment hmeasured).unique hleast,
      Point.distanceToSegment_le_add hleast.1⟩
  · intro points closed htwo hmeasured tolerance
    refine ⟨near_iff htwo hmeasured p tolerance, near_reverse htwo hmeasured p tolerance, ?_⟩
    rintro rfl hthree k
    exact near_rotate hthree p tolerance k

/-- A closed triangle is near a point beside its closing edge, also listed backwards. -/
theorem closing_edge_near :
    let points : List (Point ℝ) := [⟨0, 0⟩, ⟨1, 0⟩, ⟨0, 1⟩]
    let p : Point ℝ := ⟨-1 / 4, 1 / 2⟩
    2 ≤ points.length ∧ AllMeasured points true ∧ near points true p (1 / 4) = true ∧
      near points.reverse true p (1 / 4) = true := by
  intro points p
  have hmeasured : AllMeasured points true := by
    intro a b hedge
    have hlist : edges points true =
        [(⟨0, 0⟩, ⟨1, 0⟩), (⟨1, 0⟩, ⟨0, 1⟩), (⟨0, 1⟩, ⟨0, 0⟩)] := rfl
    rw [← mem_edges_iff, hlist] at hedge
    simp only [List.mem_cons, Prod.mk.injEq, List.not_mem_nil, or_false] at hedge
    right
    rw [sq, Point.distance_mul_self]
    rcases hedge with ⟨rfl, rfl⟩ | ⟨rfl, rfl⟩ | ⟨rfl, rfl⟩ <;> norm_num [Point.squaredLength]
  have hclosing : IsEdge points true ⟨0, 1⟩ ⟨0, 0⟩ := .inr ⟨rfl, by decide, rfl, rfl⟩
  have hmiddle : (⟨0, 1 / 2⟩ : Point ℝ).OnSegment ⟨0, 1⟩ ⟨0, 0⟩ := by
    refine ⟨1 / 2, by norm_num, by norm_num, ?_⟩
    norm_num [Point.lerp]
  have hdistance : p.distance ⟨0, 1 / 2⟩ ≤ 1 / 4 := by
    refine Real.sqrt_le_iff.mpr ⟨by norm_num, ?_⟩
    norm_num [p]
  obtain ⟨hnear, hreverse, -⟩ :=
    (outline_near_within_tolerance p).2 points true (by decide) hmeasured (1 / 4)
  have hat := hnear.mpr ⟨_, _, _, hclosing, hmiddle, hdistance⟩
  exact ⟨by decide, hmeasured, hat, hreverse.trans hat⟩

end RegionDrawing.Polyline
