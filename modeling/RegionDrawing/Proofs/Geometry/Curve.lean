import Mathlib
import RegionDrawing.Proofs.Geometry.Spline
import RegionDrawing.Proofs.Scalar.Real

/-! # Drawn and sampled curves

A curve is drawn by its Bézier spans and measured by points of its spans in another form. Both
forms give the same points, span by span and parameter by parameter, so what is measured is what
is drawn.
-/
namespace RegionDrawing.Spline

variable {α : Type} [FieldScalar α] {points : List (Point α)} {closed : Bool} {i : Nat}

/-- The point of a cubic Bézier curve at a parameter. -/
def Span.pointAt (s : Span α) (t : α) : Point α :=
  let weigh (a b c d : α) :=
    (1 - t) ^ 3 * a + 3 * (1 - t) ^ 2 * t * b + 3 * (1 - t) * t ^ 2 * c + t ^ 3 * d
  ⟨weigh s.start.x s.control₁.x s.control₂.x s.stop.x,
    weigh s.start.y s.control₁.y s.control₂.y s.stop.y⟩

theorem Controls.pointAt_span (c : Controls α) (t tension : α) :
    (c.span tension).pointAt t = c.pointAt t tension := by
  simp only [Span.pointAt, span, pointAt, Point.mk.injEq]
  constructor <;> ring

theorem Controls.pointAt_zero (c : Controls α) (tension : α) : c.pointAt 0 tension = c.start := by
  obtain ⟨before, ⟨x, y⟩, stop, after⟩ := c
  simp only [pointAt, Point.mk.injEq]
  constructor <;> ring

section
omit [FieldScalar α]
variable [Scalar α]

theorem length_allControls (points : List (Point α)) (closed : Bool) :
    (allControls points closed).length = spanCount points.length (wraps points closed) := by
  simp only [allControls, List.length_map, List.length_range]

theorem length_spans (points : List (Point α)) (closed : Bool) (tension : α) :
    (spans points closed tension).length = spanCount points.length (wraps points closed) := by
  rw [spans, List.length_map, length_allControls]

theorem getElem_allControls (h : i < (allControls points closed).length) :
    (allControls points closed)[i] = controls points i (wraps points closed) := by
  simp only [allControls, List.getElem_map, List.getElem_range]

theorem getElem_spans {tension : α} (h : i < (spans points closed tension).length) :
    (spans points closed tension)[i] = (controls points i (wraps points closed)).span tension := by
  simp only [spans, List.getElem_map, getElem_allControls]

omit [Scalar α] in
theorem spanCount_wraps (h : 2 ≤ points.length) (closed : Bool) :
    spanCount points.length (wraps points closed) =
      if closed ∧ 2 < points.length then points.length else points.length - 1 := by
  simp only [spanCount, wraps, Bool.and_eq_true, decide_eq_true_eq]
  split
  · omega
  · split
    · next htwo => simp [htwo]
    · rfl

omit [Scalar α] in
theorem spanCount_le (n : Nat) (wrap : Bool) : spanCount n wrap ≤ n := by
  unfold spanCount
  split
  · omega
  · split
    · omega
    · split <;> omega

theorem controls_start_succ {wrap : Bool} (h : i + 1 < spanCount points.length wrap) :
    (controls points (i + 1) wrap).start = (controls points i wrap).stop := by
  have hlt : i + 1 < points.length := h.trans_le (spanCount_le _ _)
  rw [controls_stop hlt]
  cases wrap <;> exact List.getD_eq_getElem _ _ hlt

end

section
omit [FieldScalar α]
variable [Scalar α]

theorem Controls.length_samples (c : Controls α) (tension : α) (steps : Nat) :
    (c.samples tension steps).length = steps := by
  simp only [samples, List.length_map, List.length_range]

theorem length_flatMap_samples (all : List (Controls α)) (tension : α) (steps : Nat) :
    (all.flatMap fun c => c.samples tension steps).length = all.length * steps := by
  simp only [List.length_flatMap, Controls.length_samples, List.map_const', List.sum_replicate,
    smul_eq_mul]

theorem sample_eq (h : 2 ≤ points.length) (closed : Bool) (tension : α) (samples : Nat) :
    sample points closed tension samples =
      (controls points 0 (wraps points closed)).start ::
        (allControls points closed).flatMap fun c => c.samples tension (stepCount samples) := by
  have hlength := length_allControls points closed
  match points, h with
  | first :: second :: rest, _ =>
    have hpos : 0 < (allControls (first :: second :: rest) closed).length := by
      rw [hlength]
      exact lt_spanCount (by simp) _
    unfold sample
    split
    · next first' _ c others hpoints hcontrols =>
      cases hpoints
      rw [hcontrols]
      cases wraps (first :: second :: rest) closed <;> rfl
    · next hnone =>
      obtain ⟨c, others, hcontrols⟩ := List.exists_cons_of_length_pos hpos
      exact absurd hcontrols (hnone first (second :: rest) c others rfl)

theorem length_sample (h : 2 ≤ points.length) (closed : Bool) (tension : α) (samples : Nat) :
    (sample points closed tension samples).length =
      sampleCount (spanCount points.length (wraps points closed)) samples := by
  rw [sample_eq h, List.length_cons, length_flatMap_samples, length_allControls, sampleCount]

theorem sample_of_length_le_one (h : points.length ≤ 1) (closed : Bool) (tension : α)
    (samples : Nat) : sample points closed tension samples = points := by
  match points, h with
  | [], _ | [_], _ => rfl

end

theorem Controls.getElem?_samples (c : Controls α) (tension : α) {steps s : Nat}
    (h : s < steps) :
    (c.samples tension steps)[s]? = some (c.pointAt (((s + 1 : Nat) : α) / (steps : α)) tension) := by
  simp only [samples, List.getElem?_map, List.getElem?_range h, Option.map_some]

theorem getElem?_flatMap_samples (all : List (Controls α)) (tension : α) {steps s : Nat}
    (h : s < steps) (i : Nat) :
    (all.flatMap fun c => c.samples tension steps)[i * steps + s]? =
      all[i]?.bind fun c => (c.samples tension steps)[s]? := by
  induction all generalizing i with
  | nil => rfl
  | cons c rest ih =>
    rw [List.flatMap_cons, List.getElem?_append, Controls.length_samples]
    cases i with
    | zero => rw [Nat.zero_mul, Nat.zero_add, if_pos h, List.getElem?_cons_zero, Option.bind_some]
    | succ i =>
      have hlater : (i + 1) * steps + s = i * steps + s + steps := by ring
      rw [hlater, if_neg (by omega), Nat.add_sub_cancel, ih, List.getElem?_cons_succ]

/-- The samples of a span are in equal steps of its parameter, from its start to its stop. -/
theorem getElem?_sample (h : 2 ≤ points.length)
    (hi : i < spanCount points.length (wraps points closed)) (tension : α) {samples s : Nat}
    (hs : s ≤ stepCount samples) :
    (sample points closed tension samples)[i * stepCount samples + s]? =
      some ((controls points i (wraps points closed)).pointAt
        ((s : α) / (stepCount samples : α)) tension) := by
  have hsteps : 0 < stepCount samples := Nat.le_max_right samples 1
  have hcontrols : ∀ {j : Nat}, j < spanCount points.length (wraps points closed) →
      (allControls points closed)[j]? = some (controls points j (wraps points closed)) := by
    intro j hj
    have hlt : j < (allControls points closed).length := by rwa [length_allControls]
    rw [List.getElem?_eq_getElem hlt, getElem_allControls]
  rw [sample_eq h]
  cases s with
  | succ s =>
    rw [← Nat.add_assoc, List.getElem?_cons_succ, getElem?_flatMap_samples _ _ (by omega),
      hcontrols hi, Option.bind_some, Controls.getElem?_samples _ _ (by omega)]
  | zero =>
    rw [Nat.cast_zero, zero_div, Controls.pointAt_zero, Nat.add_zero]
    cases i with
    | zero => rw [Nat.zero_mul, List.getElem?_cons_zero]
    | succ i =>
      have hlast : (i + 1) * stepCount samples =
          i * stepCount samples + (stepCount samples - 1) + 1 := by
        rw [Nat.add_mul, Nat.one_mul]
        omega
      have hne : (stepCount samples : α) ≠ 0 := Nat.cast_ne_zero.mpr hsteps.ne'
      rw [hlast, List.getElem?_cons_succ, getElem?_flatMap_samples _ _ (by omega),
        hcontrols (by omega), Option.bind_some, Controls.getElem?_samples _ _ (by omega),
        Nat.sub_add_cancel hsteps, div_self hne, Controls.pointAt_one, controls_start_succ hi]

theorem getElem?_sample_stop (h : 2 ≤ points.length)
    (hi : i < spanCount points.length (wraps points closed)) (tension : α) (samples : Nat) :
    (sample points closed tension samples)[(i + 1) * stepCount samples]? =
      some (controls points i (wraps points closed)).stop := by
  have hne : (stepCount samples : α) ≠ 0 := by
    have hsteps : 0 < stepCount samples := Nat.le_max_right samples 1
    exact Nat.cast_ne_zero.mpr hsteps.ne'
  rw [Nat.succ_mul, getElem?_sample h hi tension le_rfl, div_self hne, Controls.pointAt_one]

theorem head?_sample (h : 2 ≤ points.length) (closed : Bool) (tension : α) (samples : Nat) :
    (sample points closed tension samples).head? = points.head? := by
  obtain ⟨first, rest, rfl⟩ := List.exists_cons_of_length_pos (Nat.zero_lt_of_lt h)
  rw [sample_eq h, List.head?_cons, List.head?_cons]
  cases wraps (first :: rest) closed <;> rfl

theorem getElem?_sample_point (h : 2 ≤ points.length) (closed : Bool) (tension : α)
    (samples : Nat) (hi : i < points.length) :
    (sample points closed tension samples)[i * stepCount samples]? = some points[i] := by
  cases i with
  | zero =>
    rw [Nat.zero_mul, ← List.head?_eq_getElem?, head?_sample h, List.head?_eq_getElem?,
      List.getElem?_eq_getElem hi]
  | succ i => rw [getElem?_sample_stop h (lt_spanCount hi _), controls_stop hi]

theorem getLast?_sample (h : 2 < points.length) (tension : α) (samples : Nat) :
    (sample points true tension samples).getLast? = points.head? := by
  obtain ⟨first, rest, rfl⟩ := List.exists_cons_of_length_pos (Nat.zero_lt_of_lt h)
  have hcount : spanCount (first :: rest).length (wraps (first :: rest) true) = rest.length + 1 :=
    (spanCount_wraps h.le true).trans (if_pos ⟨rfl, h⟩)
  have hwraps : wraps (first :: rest) true = true := decide_eq_true h
  rw [List.getLast?_eq_getElem?, length_sample h.le, sampleCount, Nat.add_sub_cancel, hcount,
    getElem?_sample_stop h.le (hcount ▸ rest.length.lt_succ_self), hwraps, List.head?_cons,
    Option.some_inj]
  show (first :: rest).getD ((rest.length + 1) % (first :: rest).length) Point.origin = first
  rw [List.length_cons, Nat.mod_self, List.getD_cons_zero]

/-- The curve that is drawn and the curve that is sampled have the same spans, and each drawn span
goes through the points of the span that is sampled, parameter by parameter. So the samples of two
or more points are points of the drawn curve: each span has as many as were asked for, in equal
steps from its start to its stop. -/
theorem drawn_curve_is_sampled (points : List (Point α)) (closed : Bool) (tension : α)
    {samples : Nat} (hsamples : 1 ≤ samples) :
    let drawn := spans points closed tension
    let sampled := sample points closed tension samples
    drawn.length = spanCount points.length (wraps points closed) ∧
    (allControls points closed).length = drawn.length ∧
    (∀ i (hi : i < drawn.length) t,
      drawn[i].pointAt t = (controls points i (wraps points closed)).pointAt t tension) ∧
    (2 ≤ points.length →
      sampled.length = drawn.length * samples + 1 ∧
      ∀ i (hi : i < drawn.length), ∀ s ≤ samples,
        sampled[i * samples + s]? = some (drawn[i].pointAt ((s : α) / (samples : α)))) := by
  intro drawn sampled
  have hcount : drawn.length = spanCount points.length (wraps points closed) :=
    length_spans points closed tension
  have hsteps : stepCount samples = samples := Nat.max_eq_left hsamples
  have hpoint : ∀ i (hi : i < drawn.length) t,
      drawn[i].pointAt t = (controls points i (wraps points closed)).pointAt t tension := by
    intro i hi t
    rw [getElem_spans hi, Controls.pointAt_span]
  refine ⟨hcount, (length_allControls points closed).trans hcount.symm, hpoint, ?_⟩
  intro htwo
  constructor
  · rw [length_sample htwo, sampleCount, hsteps, hcount]
  · intro i hi s hs
    have hsample := getElem?_sample htwo (hcount ▸ hi) tension (hsteps.symm ▸ hs)
    rw [hsteps] at hsample
    rw [hpoint, hsample]

/-- In a closed curve through three corners of the media, sampled in halves, the middle of the span
that joins the ends is the sixth of seven samples. -/
theorem joining_span_sampled :
    let points : List (Point ℝ) := [⟨0, 0⟩, ⟨1, 0⟩, ⟨0, 1⟩]
    1 ≤ 2 ∧ (sample points true (1 / 2) 2).length = 7 ∧
      (sample points true (1 / 2) 2)[5]? = some ⟨-1 / 8, 9 / 16⟩ := by
  intro points
  obtain ⟨-, -, hpoint, hsampled⟩ :=
    drawn_curve_is_sampled points true (1 / 2) (by decide : 1 ≤ 2)
  obtain ⟨hlength, hsample⟩ := hsampled (by decide)
  refine ⟨by decide, hlength, ?_⟩
  have hfifth := hsample 2 (by decide) 1 (by decide)
  rw [hpoint] at hfifth
  refine hfifth.trans ?_
  norm_num [points, controls, positions, wraps, Controls.pointAt]

end RegionDrawing.Spline
