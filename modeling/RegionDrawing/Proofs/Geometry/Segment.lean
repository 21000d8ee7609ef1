import Mathlib
import RegionDrawing.Geometry.Polyline
import RegionDrawing.Proofs.Scalar.Exact

/-! # Segments

The distance from a point to a segment is computed by projecting the point on the line of the
segment. It is the least distance from the point to the points of the segment, except that a
segment too short to project on is taken for its first end, which makes the distance larger by no
more than the length of the segment.
-/
namespace RegionDrawing.Point

variable {α : Type} [FieldScalar α] {p q a b : Point α} {t : α}

/-- Whether a point lies on the segment between two others, which may be its ends. -/
def OnSegment (q a b : Point α) : Prop := ∃ t, 0 ≤ t ∧ t ≤ 1 ∧ q = a.lerp b t

namespace OnSegment

theorem left (a b : Point α) : a.OnSegment a b := by
  refine ⟨0, le_rfl, zero_le_one, ?_⟩
  simp only [lerp, mul_zero, add_zero]

theorem symm (h : q.OnSegment a b) : q.OnSegment b a := by
  obtain ⟨t, hzero, hone, rfl⟩ := h
  refine ⟨1 - t, sub_nonneg.mpr hone, sub_le_self 1 hzero, ?_⟩
  simp only [lerp, mk.injEq]
  constructor <;> ring

theorem level (h : q.OnSegment a b) : min a.y b.y ≤ q.y ∧ q.y ≤ max a.y b.y := by
  obtain ⟨t, hzero, hone, rfl⟩ := h
  have hheight : (a.lerp b t).y = (1 - t) • a.y + t • b.y := by
    rw [lerp, smul_eq_mul, smul_eq_mul]
    ring
  have hrest : 0 ≤ 1 - t := sub_nonneg.mpr hone
  rw [hheight]
  exact ⟨Convex.min_le_combo _ _ hrest hzero (sub_add_cancel 1 t),
    Convex.combo_le_max _ _ hrest hzero (sub_add_cancel 1 t)⟩

end OnSegment

def squaredLength (a b : Point α) : α := (b.x - a.x) * (b.x - a.x) + (b.y - a.y) * (b.y - a.y)

theorem squaredLength_nonneg (a b : Point α) : 0 ≤ squaredLength a b :=
  add_nonneg (mul_self_nonneg _) (mul_self_nonneg _)

theorem squaredLength_eq_zero_iff : squaredLength a b = 0 ↔ a = b := by
  obtain ⟨x, y⟩ := a
  obtain ⟨x', y'⟩ := b
  rw [squaredLength, mul_self_add_mul_self_eq_zero, sub_eq_zero, sub_eq_zero, mk.injEq, eq_comm,
    @eq_comm _ y']

/-- How far along a segment, in parts of it, its line is nearest to a point. -/
def footOn (p a b : Point α) : α :=
  ((p.x - a.x) * (b.x - a.x) + (p.y - a.y) * (b.y - a.y)) / squaredLength a b

/-- The two legs from a point on a line over the foot of a perpendicular. -/
theorem squaredLength_lerp (h : squaredLength a b ≠ 0) (p : Point α) (t : α) :
    squaredLength (a.lerp b t) p =
      squaredLength a b * (t - p.footOn a b) ^ 2 + squaredLength (a.lerp b (p.footOn a b)) p := by
  have hfoot : squaredLength a b * p.footOn a b =
      (p.x - a.x) * (b.x - a.x) + (p.y - a.y) * (b.y - a.y) := mul_div_cancel₀ _ h
  simp only [squaredLength, lerp] at *
  linear_combination (2 * t - 2 * p.footOn a b) * hfoot

variable [ExactScalar α]

theorem distance_nonneg (p q : Point α) : 0 ≤ p.distance q := ExactScalar.hypot_nonneg _ _

theorem distance_mul_self (p q : Point α) : p.distance q * p.distance q = squaredLength q p :=
  ExactScalar.hypot_mul_self _ _

theorem distance_le_iff :
    p.distance a ≤ q.distance b ↔ squaredLength a p ≤ squaredLength b q := by
  rw [← distance_mul_self, ← distance_mul_self,
    mul_self_le_mul_self_iff (distance_nonneg p a) (distance_nonneg q b)]

theorem distance_comm (p q : Point α) : p.distance q = q.distance p := by
  refine (mul_self_inj (distance_nonneg p q) (distance_nonneg q p)).mp ?_
  rw [distance_mul_self, distance_mul_self, squaredLength, squaredLength]
  ring

theorem distance_triangle (p q r : Point α) : p.distance r ≤ p.distance q + q.distance r := by
  refine (abs_le_of_sq_le_sq' ?_ (add_nonneg (distance_nonneg p q) (distance_nonneg q r))).2
  have hproduct : (p.x - q.x) * (q.x - r.x) + (p.y - q.y) * (q.y - r.y) ≤
      p.distance q * q.distance r := Scalar.mul_add_mul_le_hypot_mul_hypot _ _ _ _
  have hpq := distance_mul_self p q
  have hqr := distance_mul_self q r
  have hpr := distance_mul_self p r
  simp only [squaredLength] at hpq hqr hpr
  linarith

theorem OnSegment.distance_le (h : q.OnSegment a b) : q.distance a ≤ a.distance b := by
  obtain ⟨t, hzero, hone, rfl⟩ := h
  have hscaled : squaredLength a (a.lerp b t) = t ^ 2 * squaredLength a b := by
    simp only [squaredLength, lerp]
    ring
  rw [distance_comm a b, distance_le_iff, hscaled]
  exact mul_le_of_le_one_left (squaredLength_nonneg a b) (pow_le_one₀ hzero hone)

def segmentDistances (p a b : Point α) : Set α := {d | ∃ q, q.OnSegment a b ∧ p.distance q = d}

/-- Of the points of a segment the one next to the foot of the perpendicular is the nearest. -/
theorem isLeast_distance_footOn (h : squaredLength a b ≠ 0) :
    IsLeast (p.segmentDistances a b)
      (p.distance (a.lerp b (Scalar.clampUnit (p.footOn a b)))) := by
  obtain ⟨hzero, hone⟩ := Scalar.clampUnit_mem (p.footOn a b)
  refine ⟨⟨_, ⟨_, hzero, hone, rfl⟩, rfl⟩, ?_⟩
  rintro _ ⟨_, ⟨t, hzero, hone, rfl⟩, rfl⟩
  have hnearer := sq_le_sq.mpr (Scalar.abs_clampUnit_sub_le (a := p.footOn a b) hzero hone)
  rw [distance_le_iff, squaredLength_lerp h, squaredLength_lerp h p t]
  exact add_le_add (mul_le_mul_of_nonneg_left hnearer (squaredLength_nonneg a b)) le_rfl

omit [ExactScalar α] in
theorem isLeast_distance_self (p a : Point α) : IsLeast (p.segmentDistances a a) (p.distance a) := by
  refine ⟨⟨a, .left a a, rfl⟩, ?_⟩
  rintro _ ⟨_, ⟨t, -, -, rfl⟩, rfl⟩
  simp only [lerp, sub_self, zero_mul, add_zero, le_refl]

theorem exists_isLeast_segmentDistances (p a b : Point α) :
    ∃ least, IsLeast (p.segmentDistances a b) least := by
  by_cases h : a = b
  · subst h
    exact ⟨_, isLeast_distance_self p a⟩
  · exact ⟨_, isLeast_distance_footOn (mt squaredLength_eq_zero_iff.mp h)⟩

/-- Whether a segment has no length at all or is long enough to project on. -/
def IsMeasured (a b : Point α) : Prop := a = b ∨ 1 / 2 ^ 52 < a.distance b ^ 2

theorem IsMeasured.symm (h : IsMeasured a b) : IsMeasured b a := by
  rw [IsMeasured, distance_comm, eq_comm]
  exact h

omit [ExactScalar α] in
theorem distanceToSegment_eq (p a b : Point α) :
    p.distanceToSegment a b = if squaredLength a b ≤ 1 / 2 ^ 52 then p.distance a
      else p.distance (a.lerp b (Scalar.clampUnit (p.footOn a b))) := by
  have hlimit : ((1 <<< 52 : Nat) : α) = 2 ^ 52 := by
    rw [Nat.one_shiftLeft, Nat.cast_pow, Nat.cast_ofNat]
  simp only [distanceToSegment, hlimit, Nat.cast_one]
  rfl

omit [ExactScalar α] in
theorem exists_distanceToSegment (p a b : Point α) :
    ∃ q, q.OnSegment a b ∧ p.distance q = p.distanceToSegment a b := by
  rw [distanceToSegment_eq]
  split
  · exact ⟨a, .left a b, rfl⟩
  · obtain ⟨hzero, hone⟩ := Scalar.clampUnit_mem (p.footOn a b)
    exact ⟨_, ⟨_, hzero, hone, rfl⟩, rfl⟩

theorem isLeast_distanceToSegment (h : IsMeasured a b) :
    IsLeast (p.segmentDistances a b) (p.distanceToSegment a b) := by
  rw [distanceToSegment_eq]
  rcases h with rfl | h
  · rw [if_pos (by simp [squaredLength_eq_zero_iff.mpr rfl])]
    exact isLeast_distance_self p a
  · rw [distance_comm, sq, distance_mul_self] at h
    rw [if_neg h.not_ge]
    exact isLeast_distance_footOn (lt_trans (by positivity) h).ne'

theorem distanceToSegment_le_add {d : α} (hd : d ∈ p.segmentDistances a b) :
    p.distanceToSegment a b ≤ d + a.distance b := by
  rw [distanceToSegment_eq]
  split
  · obtain ⟨q, hq, rfl⟩ := hd
    exact (distance_triangle p q a).trans (add_le_add le_rfl hq.distance_le)
  · next h =>
    have hlong : squaredLength a b ≠ 0 := (lt_trans (by positivity) (not_le.mp h)).ne'
    exact ((isLeast_distance_footOn hlong).2 hd).trans
      (le_add_of_nonneg_right (distance_nonneg a b))

end RegionDrawing.Point
