import Mathlib
import RegionDrawing.Proofs.Geometry.Edges
import RegionDrawing.Proofs.Geometry.Segment
import RegionDrawing.Proofs.Scalar.Real

/-! # Rays and rings

The interior of a ring is counted out along the ray to the right of a point. An edge is crossed if
it passes the level of the point with the point on its left on the way up, where a vertex at that
level counts as below. So the count does not depend on the direction of an edge, and a further
vertex on an edge leaves it odd or even as it was.
-/
namespace RegionDrawing

variable {α : Type} [FieldScalar α]

/-- On which side of the line from `a` to `b` a point lies: positive on one side, negative on the
other and zero on the line. -/
def Point.side (a b p : Point α) : α := (b.x - a.x) * (p.y - a.y) - (b.y - a.y) * (p.x - a.x)

theorem Point.side_swap (a b p : Point α) : b.side a p = -a.side b p := by
  simp only [side]
  ring

theorem Point.side_lerp (a b p : Point α) (t : α) : a.side (a.lerp b t) p = t * a.side b p := by
  simp only [side, lerp]
  ring

theorem Point.side_of_lerp (a b p : Point α) (t : α) :
    (a.lerp b t).side b p = (1 - t) * a.side b p := by
  simp only [side, lerp]
  ring

namespace Polyline

variable {points : List (Point α)} {p q a b : Point α}

/-- Whether the way from `a` to `b` leads from the level of `p` or below to above it. -/
def Rises (p a b : Point α) : Prop := a.y ≤ p.y ∧ p.y < b.y

theorem Rises.not_swap (h : Rises p a b) : ¬ Rises p b a := fun h' => h'.1.not_gt h.2

theorem changes_iff :
    (decide (a.y > p.y) != decide (b.y > p.y)) = true ↔ Rises p a b ∨ Rises p b a := by
  simp only [Rises, bne_iff_ne, ne_eq, decide_eq_decide, gt_iff_lt, ← not_lt]
  tauto

/-- The point at which a rising edge meets the level is to the right of a point at that level
exactly if that point is on the left of the edge. -/
theorem Rises.lt_meeting_iff (h : Rises p a b) :
    p.x < (b.x - a.x) * (p.y - a.y) / (b.y - a.y) + a.x ↔ 0 < a.side b p := by
  have hpos : 0 < b.y - a.y := sub_pos.mpr (h.1.trans_lt h.2)
  rw [← sub_lt_iff_lt_add, lt_div_iff₀ hpos, Point.side, sub_pos, mul_comm]

theorem Rises.meeting_swap (h : Rises p a b) :
    (a.x - b.x) * (p.y - b.y) / (a.y - b.y) + b.x =
      (b.x - a.x) * (p.y - a.y) / (b.y - a.y) + a.x := by
  have hne : b.y - a.y ≠ 0 := (sub_pos.mpr (h.1.trans_lt h.2)).ne'
  have hne' : a.y - b.y ≠ 0 := (sub_neg.mpr (h.1.trans_lt h.2)).ne
  field_simp
  ring

theorem rayCrosses_iff (p a b : Point α) :
    rayCrosses p a b ↔ Rises p a b ∧ 0 < a.side b p ∨ Rises p b a ∧ 0 < b.side a p := by
  rw [rayCrosses, Bool.and_eq_true, changes_iff, decide_eq_true_eq, or_and_right]
  apply or_congr (and_congr_right Rises.lt_meeting_iff) (and_congr_right _)
  intro h
  rw [h.meeting_swap, h.lt_meeting_iff]

theorem Rises.rayCrosses_iff (h : Rises p a b) : rayCrosses p a b ↔ 0 < a.side b p := by
  simp only [Polyline.rayCrosses_iff, h, h.not_swap, true_and, false_and, or_false]

theorem rayCrosses_eq_false (h : ¬ Rises p a b) (h' : ¬ Rises p b a) :
    rayCrosses p a b = false := by
  rw [← Bool.not_eq_true, rayCrosses_iff]
  rintro (⟨hrises, -⟩ | ⟨hrises, -⟩)
  · exact h hrises
  · exact h' hrises

theorem rayCrosses_comm (p a b : Point α) : rayCrosses p a b = rayCrosses p b a := by
  rw [Bool.eq_iff_iff, rayCrosses_iff, rayCrosses_iff, or_comm]

theorem rayCrosses_self (p a : Point α) : rayCrosses p a a = false :=
  rayCrosses_eq_false (fun h => h.1.not_gt h.2) (fun h => h.1.not_gt h.2)

/-- Of the two parts of a rising edge one rises too, and is crossed exactly if the edge is. -/
theorem Rises.rayCrosses_split (h : Rises p a b) (hq : q.OnSegment a b) :
    rayCrosses p a b = (rayCrosses p a q != rayCrosses p q b) := by
  obtain ⟨t, hzero, hone, rfl⟩ := hq
  have hheight : (a.lerp b t).y = a.y + (b.y - a.y) * t := rfl
  by_cases hlevel : p.y < (a.lerp b t).y
  · have hrises : Rises p a (a.lerp b t) := ⟨h.1, hlevel⟩
    have hpos : 0 < t := by
      apply lt_of_le_of_ne hzero
      rintro rfl
      rw [hheight, mul_zero, add_zero] at hlevel
      exact h.1.not_gt hlevel
    have hrest : rayCrosses p (a.lerp b t) b = false :=
      rayCrosses_eq_false (fun hrest => hrest.1.not_gt hlevel) (fun hrest => hrest.1.not_gt h.2)
    rw [hrest, Bool.bne_false, Bool.eq_iff_iff, h.rayCrosses_iff, hrises.rayCrosses_iff,
      Point.side_lerp, mul_pos_iff_of_pos_left hpos]
  · have hrises : Rises p (a.lerp b t) b := ⟨not_lt.mp hlevel, h.2⟩
    have hpos : 0 < 1 - t := by
      apply sub_pos.mpr (lt_of_le_of_ne hone _)
      rintro rfl
      rw [hheight, mul_one, add_sub_cancel] at hlevel
      exact hlevel h.2
    have hrest : rayCrosses p a (a.lerp b t) = false :=
      rayCrosses_eq_false (fun hrest => hlevel hrest.2) (fun hrest => h.1.not_gt hrest.2)
    rw [hrest, Bool.false_bne, Bool.eq_iff_iff, h.rayCrosses_iff, hrises.rayCrosses_iff,
      Point.side_of_lerp, mul_pos_iff_of_pos_left hpos]

theorem not_rises_of_onSegment (h : ¬ Rises p a b) (h' : ¬ Rises p b a) (hq : q.OnSegment a b) :
    ¬ Rises p a q ∧ ¬ Rises p q a := by
  obtain ⟨hlow, hhigh⟩ := hq.level
  rcases le_or_gt a.y p.y with ha | ha
  · have hb : b.y ≤ p.y := not_lt.mp fun hb => h ⟨ha, hb⟩
    have hlevel : q.y ≤ p.y := hhigh.trans (max_le ha hb)
    exact ⟨fun hrises => hlevel.not_gt hrises.2, fun hrises => ha.not_gt hrises.2⟩
  · have hb : p.y < b.y := not_le.mp fun hb => h' ⟨hb, ha⟩
    have hlevel : p.y < q.y := (lt_min ha hb).trans_le hlow
    exact ⟨fun hrises => hrises.1.not_gt ha, fun hrises => hrises.1.not_gt hlevel⟩

theorem rayCrosses_split (hq : q.OnSegment a b) :
    rayCrosses p a b = (rayCrosses p a q != rayCrosses p q b) := by
  by_cases h : Rises p a b
  · exact h.rayCrosses_split hq
  · by_cases h' : Rises p b a
    · rw [rayCrosses_comm, h'.rayCrosses_split hq.symm, rayCrosses_comm p b q,
        rayCrosses_comm p q a, bne_comm]
    · obtain ⟨haq, hqa⟩ := not_rises_of_onSegment h h' hq
      obtain ⟨hbq, hqb⟩ := not_rises_of_onSegment h' h hq.symm
      rw [rayCrosses_eq_false h h', rayCrosses_eq_false haq hqa, rayCrosses_eq_false hqb hbq]
      rfl

/-- Rings of fewer than three vertices go back the way they came, so only the count matters. -/
theorem interiorContains_eq (points : List (Point α)) (p : Point α) :
    interiorContains points p =
      decide ((ringEdges points).countP (fun e => rayCrosses p e.1 e.2) % 2 = 1) := by
  have hshort : points.length < 3 →
      (ringEdges points).countP (fun e => rayCrosses p e.1 e.2) % 2 = 0 := by
    intro h
    match points, h with
    | [], _ => rfl
    | [a], _ => simp [ringEdges, rayCrosses_self]
    | [a, b], _ =>
      have hboth : ringEdges [a, b] = [(a, b), (b, a)] := rfl
      simp only [hboth, List.countP_cons, List.countP_nil, rayCrosses_comm p b a]
      split <;> rfl
  by_cases h : points.length < 3
  · simp [interiorContains, hshort h]
  · simp [interiorContains, Nat.le_of_not_lt h]

/-- A rising edge in a half plane, met at the level of a point outside it, is met on the side of
that point on which the half plane is. -/
theorem Rises.side_of_halfPlane {u v w : α} (h : Rises p a b) (ha : 0 ≤ u * a.x + v * a.y + w)
    (hb : 0 ≤ u * b.x + v * b.y + w) (hp : u * p.x + v * p.y + w < 0) : 0 < u * a.side b p := by
  have hlow : 0 ≤ (b.y - p.y) * (u * a.x + v * a.y + w) :=
    mul_nonneg (sub_nonneg.mpr h.2.le) ha
  have hhigh : 0 ≤ (p.y - a.y) * (u * b.x + v * b.y + w) := mul_nonneg (sub_nonneg.mpr h.1) hb
  have houtside : (b.y - a.y) * (u * p.x + v * p.y + w) < 0 :=
    mul_neg_of_pos_of_neg (sub_pos.mpr (h.1.trans_lt h.2)) hp
  calc 0
    _ < (b.y - p.y) * (u * a.x + v * a.y + w) + (p.y - a.y) * (u * b.x + v * b.y + w) -
        (b.y - a.y) * (u * p.x + v * p.y + w) := by linarith
    _ = u * a.side b p := by
      rw [Point.side]
      ring

/-- What a ring contains lies in each half plane in which all its vertices lie: from outside all or
none of the edges that pass the level are crossed, and on its way around a ring passes it an even
number of times. -/
theorem halfPlane_of_interiorContains {u v w : α} (h : interiorContains points p)
    (hall : ∀ q ∈ points, 0 ≤ u * q.x + v * q.y + w) : 0 ≤ u * p.x + v * p.y + w := by
  by_contra houtside
  rw [not_le] at houtside
  have hodd : (ringEdges points).countP (fun e => rayCrosses p e.1 e.2) % 2 = 1 := by
    rwa [interiorContains_eq, decide_eq_true_eq] at h
  have hside : ∀ {a b : Point α}, a ∈ points → b ∈ points → Rises p a b →
      (0 < a.side b p ↔ 0 < u) := by
    intro a b ha hb hrises
    have hpos := hrises.side_of_halfPlane (hall a ha) (hall b hb) houtside
    constructor
    · exact fun hs => pos_of_mul_pos_left hpos hs.le
    · exact fun hu => pos_of_mul_pos_right hpos hu.le
  have hcrossings : (ringEdges points).countP (fun e => rayCrosses p e.1 e.2) =
      (ringEdges points).countP fun e =>
        (decide (e.1.y > p.y) != decide (e.2.y > p.y)) && decide (0 < u) := by
    apply List.countP_congr
    rintro ⟨a, b⟩ he
    obtain ⟨ha, hb⟩ := mem_of_mem_ringEdges he
    rw [rayCrosses_iff, Bool.and_eq_true, changes_iff, decide_eq_true_eq, or_and_right]
    exact or_congr (and_congr_right (hside ha hb)) (and_congr_right (hside hb ha))
  rw [hcrossings] at hodd
  cases hright : decide (0 < u) with
  | false => simp [hright] at hodd
  | true =>
    have heven := countP_ring_changes (fun q => decide (q.y > p.y)) points
    simp only [hright, Bool.and_true] at hodd
    omega

theorem interiorContains_rotate (points : List (Point α)) (k : Nat) (p : Point α) :
    interiorContains (points.rotate k) p = interiorContains points p := by
  rw [interiorContains_eq, interiorContains_eq, (ringEdges_rotate points k).countP_eq]

theorem interiorContains_reverse (points : List (Point α)) (p : Point α) :
    interiorContains points.reverse p = interiorContains points p := by
  have hturned : (fun e : Point α × Point α => rayCrosses p e.1 e.2) ∘ Prod.swap =
      fun e => rayCrosses p e.1 e.2 := funext fun e => rayCrosses_comm p e.2 e.1
  rw [interiorContains_eq, interiorContains_eq, (ringEdges_reverse points).countP_eq,
    List.countP_map, hturned]

theorem interiorContains_insertIdx {i : Nat} (hi : i < points.length)
    (hq : q.OnSegment (vertex points i) (vertex points (i + 1))) (p : Point α) :
    interiorContains (points.insertIdx (i + 1) q) p = interiorContains points p := by
  obtain ⟨others, hring, hinserted⟩ := ringEdges_insertIdx hi q
  rw [interiorContains_eq, interiorContains_eq, hring.countP_eq, hinserted.countP_eq,
    List.countP_cons, List.countP_cons, List.countP_cons, rayCrosses_split hq.symm, decide_eq_decide]
  cases rayCrosses p (vertex points (i + 1)) q <;> cases rayCrosses p q (vertex points i) <;> simp
  omega

/-- Whether a ring contains a point depends on its outline and not on how that is listed: from
another vertex, backwards, or with a further vertex on an edge, where one on the closing edge can
stand at either end of the list. -/
theorem interior_ignores_listing (points : List (Point α)) (p : Point α) :
    (∀ k, interiorContains (points.rotate k) p = interiorContains points p) ∧
    interiorContains points.reverse p = interiorContains points p ∧
    (∀ i < points.length, ∀ q : Point α, q.OnSegment (vertex points i) (vertex points (i + 1)) →
      interiorContains (points.insertIdx (i + 1) q) p = interiorContains points p) ∧
    ∀ q : Point α, q.OnSegment (vertex points (points.length - 1)) (vertex points 0) →
      interiorContains (q :: points) p = interiorContains points p := by
  refine ⟨fun k => interiorContains_rotate points k p, interiorContains_reverse points p,
    fun i hi q hq => interiorContains_insertIdx hi hq p, ?_⟩
  intro q hq
  rcases Nat.eq_zero_or_pos points.length with hnil | hpos
  · rw [List.length_eq_zero_iff.mp hnil]
    rfl
  · have hlength : points.length - 1 + 1 = points.length := Nat.sub_add_cancel hpos
    have haround : vertex points points.length = vertex points 0 := by
      rw [← vertex_add_length points 0, Nat.zero_add]
    have hend := interiorContains_insertIdx (Nat.sub_one_lt_of_lt hpos)
      (by rwa [hlength, haround]) p
    rw [hlength] at hend
    rw [← hend, ← interiorContains_rotate (points.insertIdx _ q) points.length,
      rotate_insertIdx le_rfl, List.rotate_length]

/-- A triangle and a point in it, level with the middle of the closing edge, which becomes a vertex
at either end of the list. -/
theorem vertex_on_closing_edge_ignored :
    let points : List (Point ℝ) := [⟨0, 0⟩, ⟨1, 0⟩, ⟨0, 1⟩]
    let middle : Point ℝ := ⟨0, 1 / 2⟩
    let p : Point ℝ := ⟨1 / 4, 1 / 2⟩
    2 < points.length ∧ middle.OnSegment (vertex points 2) (vertex points 0) ∧
      interiorContains points p ∧ interiorContains (points.insertIdx 3 middle) p ∧
      interiorContains (middle :: points) p := by
  intro points middle p
  have hmiddle : middle.OnSegment (vertex points 2) (vertex points 0) := by
    refine ⟨1 / 2, by norm_num, by norm_num, ?_⟩
    norm_num [points, middle, vertex, Point.lerp]
  have hinside : interiorContains points p := by
    norm_num [points, p, interiorContains, ringEdges, rayCrosses]
  have haround : vertex points 3 = vertex points 0 := vertex_add_length points 0
  obtain ⟨-, -, hbehind, hfront⟩ := interior_ignores_listing points p
  exact ⟨by decide, hmiddle, hinside,
    (hbehind 2 (by decide) middle (haround ▸ hmiddle)).trans hinside,
    (hfront middle hmiddle).trans hinside⟩

end Polyline

end RegionDrawing
