import Mathlib
import RegionDrawing.Geometry.Spline
import RegionDrawing.Proofs.Scalar.Exact

/-! # Sampled splines

A sampled curve goes through all the points that it is drawn through.
-/
namespace RegionDrawing.Spline

variable {α : Type} [FieldScalar α] {points : List (Point α)} {p : Point α} {closed : Bool}

theorem Controls.pointAt_one (c : Controls α) (tension : α) : c.pointAt 1 tension = c.stop := by
  obtain ⟨before, start, ⟨x, y⟩, after⟩ := c
  simp only [pointAt, Point.mk.injEq]
  constructor <;> ring

theorem Controls.stop_mem_samples (c : Controls α) (tension : α) {steps : Nat} (h : 0 < steps) :
    c.stop ∈ c.samples tension steps := by
  apply List.mem_map.mpr
  refine ⟨steps - 1, List.mem_range.mpr (by omega), ?_⟩
  have hsteps : (steps : α) ≠ 0 := Nat.cast_ne_zero.mpr h.ne'
  rw [Nat.sub_add_cancel h, div_self hsteps, c.pointAt_one]

omit [FieldScalar α] in
theorem controls_stop [Scalar α] {i : Nat} (h : i + 1 < points.length) (wrap : Bool) :
    (controls points i wrap).stop = points[i + 1] := by
  have hpoint : points.getD (i + 1) Point.origin = points[i + 1] := List.getD_eq_getElem _ _ h
  cases wrap with
  | false => exact hpoint
  | true =>
    show points.getD ((i + 1) % points.length) Point.origin = points[i + 1]
    rw [Nat.mod_eq_of_lt h, hpoint]

omit [FieldScalar α] in
theorem lt_spanCount {n i : Nat} (h : i + 1 < n) (wrap : Bool) : i < spanCount n wrap := by
  unfold spanCount
  split
  · omega
  · split
    · omega
    · split <;> omega

/-- The sampled curve goes through each of its points: a span ends in each but the first. -/
theorem mem_sample (h : p ∈ points) (tension : α) (samples : Nat) :
    p ∈ sample points closed tension samples := by
  obtain ⟨i, hi, rfl⟩ := List.mem_iff_getElem.mp h
  unfold sample
  split
  · next first rest c others hcontrols =>
    cases i with
    | zero => exact List.mem_cons_self
    | succ i =>
      have hspan : controls (first :: rest) i (wraps (first :: rest) closed) ∈ c :: others := by
        rw [← hcontrols]
        exact List.mem_map_of_mem (List.mem_range.mpr (lt_spanCount hi _))
      apply List.mem_cons_of_mem
      apply List.mem_flatMap.mpr
      refine ⟨_, hspan, ?_⟩
      rw [← controls_stop hi (wraps (first :: rest) closed)]
      exact Controls.stop_mem_samples _ tension (Nat.le_max_right samples 1)
  · exact List.getElem_mem hi

end RegionDrawing.Spline
