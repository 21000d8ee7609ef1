import Mathlib
import RegionDrawing.Proofs.Geometry.Crossing

/-! # Convex rings

A convex ring passes each level at most once on the way up and once on the way down, and a point
on the inner side of all edges has vertices above and below its level. So the ray from such a point
crosses exactly one edge, also where a vertex or a whole edge is level with the point.
-/
namespace RegionDrawing.Polyline

variable {α : Type} [FieldScalar α] {points : List (Point α)} {p a b c d u v w : Point α}
  {orientation : α}

/-- Whether the vertices of a ring are in strictly convex position: on each edge all but its two
ends lie strictly on the side for which `Point.side` has the sign of `orientation`. The sign is the
same for all edges and tells in which direction the ring is listed. -/
def IsConvexRing (points : List (Point α)) (orientation : α) : Prop :=
  ∀ i < points.length, ∀ k < points.length, k ≠ i → k ≠ (i + 1) % points.length →
    0 < orientation * (vertex points i).side (vertex points (i + 1)) (vertex points k)

/-- Two edges that rise through one level, neither of them behind the other, meet it in one point,
so the lower end of the second lies on the line of the first: at a level the side of the point
between two ends is that of both, weighed by their distances from the level. -/
theorem Rises.side_eq_zero (h : Rises p a b) (h' : Rises p c d)
    (hc : 0 ≤ orientation * a.side b c) (hd : 0 ≤ orientation * a.side b d)
    (ha : 0 ≤ orientation * c.side d a) (hb : 0 ≤ orientation * c.side d b) :
    orientation * a.side b c = 0 := by
  have hupper : 0 < d.y - p.y := sub_pos.mpr h'.2
  have hlower : 0 ≤ p.y - c.y := sub_nonneg.mpr h'.1
  have hupper' : 0 ≤ b.y - p.y := sub_nonneg.mpr h.2.le
  have hlower' : 0 ≤ p.y - a.y := sub_nonneg.mpr h.1
  have hopposite : (d.y - p.y) * (orientation * a.side b c) +
      (p.y - c.y) * (orientation * a.side b d) +
      ((b.y - p.y) * (orientation * c.side d a) +
        (p.y - a.y) * (orientation * c.side d b)) = 0 := by
    simp only [Point.side]
    ring
  have hzero : (d.y - p.y) * (orientation * a.side b c) = 0 := by
    have h₁ := mul_nonneg hupper.le hc
    have h₂ := mul_nonneg hlower hd
    have h₃ := mul_nonneg hupper' ha
    have h₄ := mul_nonneg hlower' hb
    linarith
  exact (mul_eq_zero.mp hzero).resolve_left hupper.ne'

/-- The height of a point over a vertex between two edges, from its sides of both. -/
theorem mul_height_eq (orientation : α) (u v w p : Point α) :
    orientation * v.side w u * (p.y - v.y) =
      orientation * v.side w p * (u.y - v.y) + orientation * u.side v p * (w.y - v.y) := by
  simp only [Point.side]
  ring

section
variable (h : 0 < orientation * v.side w u) (hp : 0 < orientation * v.side w p)
  (hp' : 0 < orientation * u.side v p)
include h hp hp'

theorem le_of_angle (hu : v.y ≤ u.y) (hw : v.y ≤ w.y) : v.y ≤ p.y := by
  refine sub_nonneg.mp (nonneg_of_mul_nonneg_right ?_ h)
  rw [mul_height_eq]
  exact add_nonneg (mul_nonneg hp.le (sub_nonneg.mpr hu)) (mul_nonneg hp'.le (sub_nonneg.mpr hw))

/-- In the angle at a vertex that is no lower than its neighbours nothing is as high. -/
theorem lt_of_angle (hu : u.y ≤ v.y) (hw : w.y ≤ v.y) : p.y < v.y := by
  by_contra hle
  have hheight := mul_nonneg h.le (sub_nonneg.mpr (not_lt.mp hle))
  have hfirst := mul_nonpos_of_nonneg_of_nonpos hp.le (sub_nonpos.mpr hu)
  have hsecond := mul_nonpos_of_nonneg_of_nonpos hp'.le (sub_nonpos.mpr hw)
  rw [mul_height_eq] at hheight
  have hu : orientation * v.side w p * (u.y - v.y) = 0 := by linarith
  have hw : orientation * u.side v p * (w.y - v.y) = 0 := by linarith
  rw [Point.side, (mul_eq_zero.mp hu).resolve_left hp.ne',
    (mul_eq_zero.mp hw).resolve_left hp'.ne', mul_zero, zero_mul, sub_zero, mul_zero] at h
  exact h.false

end

/-- Whether the way from `a` to `b` passes the level of `p`, upward if the orientation is positive
and downward if it is negative. -/
def Passes (orientation : α) (p a b : Point α) : Prop :=
  0 < orientation ∧ Rises p a b ∨ orientation < 0 ∧ Rises p b a

theorem rayCrosses_iff_passes (h : 0 < orientation * a.side b p) :
    rayCrosses p b a ↔ Passes orientation p a b := by
  rw [rayCrosses_iff, Passes, Point.side_swap a b]
  rcases mul_pos_iff.mp h with ⟨hpositive, hside⟩ | ⟨hnegative, hside⟩
  · simp [hpositive, hpositive.not_gt, hside, hside.le]
  · simp [hnegative, hnegative.not_gt, hside, hside.le]

theorem add_mod_ne {n i k : Nat} (hpos : 0 < k) (hlt : k < n) : (i + k) % n ≠ i % n :=
  fun h => (Nat.le_of_dvd hpos (Nat.add_modEq_left_iff.mp h)).not_gt hlt

namespace IsConvexRing

variable (h : IsConvexRing points orientation) {i j k : Nat} (hi : i < points.length)
include h

include hi in
theorem side_nonneg (k : Nat) :
    0 ≤ orientation * (vertex points i).side (vertex points (i + 1)) (vertex points k) := by
  rw [← vertex_mod points k]
  have hk : k % points.length < points.length := Nat.mod_lt _ (Nat.zero_lt_of_lt hi)
  by_cases hstart : k % points.length = i
  · simp [hstart, Point.side]
  · by_cases hstop : k % points.length = (i + 1) % points.length
    · rw [hstop, vertex_mod]
      simp [Point.side, mul_comm]
    · exact (h i hi _ hk hstart hstop).le

include hi in
theorem end_of_side_eq_zero
    (hside : orientation * (vertex points i).side (vertex points (i + 1)) (vertex points k) = 0) :
    k % points.length = i ∨ k % points.length = (i + 1) % points.length := by
  by_contra hneither
  rw [not_or] at hneither
  have hpos := h i hi _ (Nat.mod_lt _ (Nat.zero_lt_of_lt hi)) hneither.1 hneither.2
  rw [vertex_mod] at hpos
  exact hpos.ne' hside

include hi in
theorem rises_unique (hj : j < points.length)
    (hrises : Rises p (vertex points i) (vertex points (i + 1)))
    (hrises' : Rises p (vertex points j) (vertex points (j + 1))) : i = j := by
  have hzero := hrises.side_eq_zero hrises' (h.side_nonneg hi _) (h.side_nonneg hi _)
    (h.side_nonneg hj _) (h.side_nonneg hj _)
  rcases h.end_of_side_eq_zero hi hzero with heq | heq
  · rw [← heq, Nat.mod_eq_of_lt hj]
  · rw [← vertex_mod points j, heq, vertex_mod] at hrises'
    exact absurd hrises.2 hrises'.1.not_gt

include hi in
theorem falls_unique (hj : j < points.length)
    (hfalls : Rises p (vertex points (i + 1)) (vertex points i))
    (hfalls' : Rises p (vertex points (j + 1)) (vertex points j)) : i = j := by
  have hside : ∀ {i : Nat}, i < points.length → ∀ k,
      0 ≤ -orientation * (vertex points (i + 1)).side (vertex points i) (vertex points k) := by
    intro i hi k
    rw [Point.side_swap, neg_mul_neg]
    exact h.side_nonneg hi k
  have hzero := hfalls.side_eq_zero hfalls' (hside hi _) (hside hi _) (hside hj _) (hside hj _)
  rw [Point.side_swap, neg_mul_neg] at hzero
  rcases h.end_of_side_eq_zero hi hzero with heq | heq
  · rw [← vertex_mod points (j + 1), heq] at hfalls'
    exact absurd hfalls.2 hfalls'.1.not_gt
  · have hmod : i + 1 ≡ j + 1 [MOD points.length] := heq.symm
    exact (Nat.ModEq.add_right_cancel' 1 hmod).eq_of_lt_of_lt hi hj

include hi in
theorem passes_unique (hj : j < points.length)
    (hpasses : Passes orientation p (vertex points i) (vertex points (i + 1)))
    (hpasses' : Passes orientation p (vertex points j) (vertex points (j + 1))) : i = j := by
  rcases hpasses with ⟨hpositive, hrises⟩ | ⟨hnegative, hfalls⟩
  · rcases hpasses' with ⟨-, hrises'⟩ | ⟨hnegative, -⟩
    · exact h.rises_unique hi hj hrises hrises'
    · exact absurd hpositive hnegative.not_gt
  · rcases hpasses' with ⟨hpositive, -⟩ | ⟨-, hfalls'⟩
    · exact absurd hpositive hnegative.not_gt
    · exact h.falls_unique hi hj hfalls hfalls'

variable (hthree : 3 ≤ points.length)
include hthree

theorem angle_pos (i : Nat) : 0 < orientation *
    (vertex points (i + 1)).side (vertex points (i + 2)) (vertex points i) := by
  have hlt : ∀ i, i % points.length < points.length := fun i => Nat.mod_lt i (by omega)
  have hstart : i % points.length ≠ (i + 1) % points.length :=
    (add_mod_ne Nat.one_pos (by omega)).symm
  have hstop : i % points.length ≠ ((i + 1) % points.length + 1) % points.length := by
    rw [Nat.mod_add_mod]
    exact (add_mod_ne Nat.two_pos (by omega)).symm
  have hangle := h _ (hlt (i + 1)) _ (hlt i) hstart hstop
  rwa [vertex_mod_add_one, vertex_mod, vertex_mod] at hangle

variable (hinner : ∀ i < points.length,
  0 < orientation * (vertex points i).side (vertex points (i + 1)) p)
include hinner

/-- A point on the inner side of all edges is above or level with one vertex and below another. -/
theorem exists_levels :
    ∃ low high, (vertex points low).y ≤ p.y ∧ p.y < (vertex points high).y := by
  have hpos : 0 < points.length := by omega
  have hedge := forall_edge (P := fun a b => 0 < orientation * a.side b p)
    (List.ne_nil_of_length_pos hpos) hinner
  have hleast : ∀ f : Point α → α, ∃ i, ∀ k,
      f (vertex points (i + 1)) ≤ f (vertex points k) := by
    intro f
    obtain ⟨i, -, hleast⟩ := Finset.exists_min_image (Finset.range points.length)
      (fun i => f (vertex points i)) ⟨0, Finset.mem_range.mpr hpos⟩
    refine ⟨i + (points.length - 1), fun k => ?_⟩
    rw [Nat.add_assoc, Nat.sub_add_cancel hpos, vertex_add_length, ← vertex_mod points k]
    exact hleast _ (Finset.mem_range.mpr (Nat.mod_lt k hpos))
  obtain ⟨low, hlow⟩ := hleast Point.y
  obtain ⟨high, hhigh⟩ := hleast fun q => -q.y
  refine ⟨low + 1, high + 1, ?_, ?_⟩
  · exact le_of_angle (h.angle_pos hthree low) (hedge _) (hedge _) (hlow _) (hlow _)
  · exact lt_of_angle (h.angle_pos hthree high) (hedge _) (hedge _)
      (neg_le_neg_iff.mp (hhigh _)) (neg_le_neg_iff.mp (hhigh _))

theorem exists_passes :
    ∃ i < points.length, Passes orientation p (vertex points i) (vertex points (i + 1)) := by
  have hpos : 0 < points.length := by omega
  have hne := List.ne_nil_of_length_pos hpos
  obtain ⟨low, high, hlow, hhigh⟩ := h.exists_levels hthree hinner
  rcases lt_or_gt_of_ne (left_ne_zero_of_mul (hinner 0 hpos).ne') with hnegative | hpositive
  · obtain ⟨i, hi, habove, hbelow⟩ := exists_edge (f := fun q => q.y ≤ p.y) hne hhigh.not_ge hlow
    exact ⟨i, hi, .inr ⟨hnegative, hbelow, not_le.mp habove⟩⟩
  · obtain ⟨i, hi, hbelow, habove⟩ := exists_edge (f := fun q => p.y < q.y) hne hlow.not_gt hhigh
    exact ⟨i, hi, .inl ⟨hpositive, not_lt.mp hbelow, habove⟩⟩

/-- The ray from a point on the inner side of all edges crosses exactly one of them. -/
theorem countP_rayCrosses :
    (ringEdges points).countP (fun e => rayCrosses p e.1 e.2) = 1 := by
  obtain ⟨i, hi, hpasses⟩ := h.exists_passes hthree hinner
  have hsame : (List.range points.length).countP
      ((fun e => rayCrosses p e.1 e.2) ∘ fun i => (vertex points (i + 1), vertex points i)) =
      (List.range points.length).count i := by
    apply List.countP_congr
    intro j hj
    have hj := List.mem_range.mp hj
    rw [Function.comp_apply, rayCrosses_iff_passes (hinner j hj), beq_iff_eq]
    exact ⟨fun hpasses' => h.passes_unique hj hi hpasses' hpasses, fun heq => heq ▸ hpasses⟩
  rw [(ringEdges_perm_range points).countP_eq, List.countP_map, hsame,
    List.count_eq_one_of_mem List.nodup_range (List.mem_range.mpr hi)]

end IsConvexRing

theorem side_nonneg_of_interiorContains (h : interiorContains points p)
    (hall : ∀ q ∈ points, 0 ≤ orientation * a.side b q) : 0 ≤ orientation * a.side b p := by
  have haffine : ∀ q : Point α, orientation * a.side b q =
      -orientation * (b.y - a.y) * q.x + orientation * (b.x - a.x) * q.y +
        orientation * ((b.y - a.y) * a.x - (b.x - a.x) * a.y) := by
    intro q
    rw [Point.side]
    ring
  rw [haffine]
  exact halfPlane_of_interiorContains h fun q hq => (hall q hq).trans_eq (haffine q)

/-- A convex ring, listed in either direction, contains each point strictly on the inner side of all
its edges and none strictly on the outer side of some edge, whatever vertices and edges are level
with the point. -/
theorem convex_ring_contains_inside (hthree : 3 ≤ points.length)
    (hconvex : IsConvexRing points orientation) (p : Point α) :
    ((∀ i < points.length,
        0 < orientation * (vertex points i).side (vertex points (i + 1)) p) →
      interiorContains points p = true) ∧
    ((∃ i < points.length,
        orientation * (vertex points i).side (vertex points (i + 1)) p < 0) →
      interiorContains points p = false) := by
  constructor
  · intro hinner
    rw [interiorContains_eq, hconvex.countP_rayCrosses hthree hinner]
    rfl
  · rintro ⟨i, hi, houter⟩
    rw [← Bool.not_eq_true]
    intro hinside
    refine houter.not_ge (side_nonneg_of_interiorContains hinside fun q hq => ?_)
    obtain ⟨k, rfl⟩ := (mem_iff_vertex (List.ne_nil_of_length_pos (by omega))).mp hq
    exact hconvex.side_nonneg hi k

/-- A quadrilateral with a level edge, a point in it that is level with a vertex, and one beside it
that is level with the edge. -/
theorem quadrilateral_contains_inside :
    let points : List (Point ℝ) := [⟨0, 0⟩, ⟨1, 0⟩, ⟨1, 1 / 2⟩, ⟨0, 1⟩]
    3 ≤ points.length ∧ IsConvexRing points 1 ∧
      interiorContains points ⟨1 / 2, 1 / 2⟩ = true ∧
      interiorContains points ⟨-1, 0⟩ = false := by
  intro points
  have hconvex : IsConvexRing points 1 := by
    intro i hi k hk hstart hstop
    change i < 4 at hi
    change k < 4 at hk
    change k ≠ (i + 1) % 4 at hstop
    interval_cases i <;> interval_cases k <;>
      simp_all <;> norm_num [points, vertex, Point.side]
  have hthree : 3 ≤ points.length := by decide
  refine ⟨hthree, hconvex, (convex_ring_contains_inside hthree hconvex _).1 ?_,
    (convex_ring_contains_inside hthree hconvex _).2 ⟨3, by decide, ?_⟩⟩
  · intro i hi
    change i < 4 at hi
    interval_cases i <;> norm_num [points, vertex, Point.side]
  · norm_num [points, vertex, Point.side]

end RegionDrawing.Polyline
