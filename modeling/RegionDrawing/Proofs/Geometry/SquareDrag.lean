import Mathlib
import RegionDrawing.Proofs.Geometry.OnMedia
import RegionDrawing.Proofs.Scalar.Real

/-! # Square drags

A square drag keeps its start as a corner and follows the pointer on each axis. Its side is the
largest one that is no longer than the drag and does not lead off the media. A plain drag spans
its start and the pointer, whichever of the two comes first.
-/
namespace RegionDrawing.Rect

variable {α : Type} [FieldScalar α] {start current : Point α} {left up : Bool} {side : α}

/-- The square with a corner in `start` that lies to the left or right of it, above or below. -/
def squareAt (start : Point α) (left up : Bool) (side : α) : Rect α :=
  ⟨if left then start.x - side else start.x, if up then start.y - side else start.y, side, side⟩

def roomToward (backward : Bool) (a : α) : α := if backward then a else 1 - a

/-- The longer distance of a drag, as far as the media leaves room in its direction. -/
def squareSide (start current : Point α) : α :=
  min (min (max |current.x - start.x| |current.y - start.y|)
    (roomToward (decide (current.x < start.x)) start.x))
    (roomToward (decide (current.y < start.y)) start.y)

theorem right_squareAt (start : Point α) (left up : Bool) (side : α) :
    (squareAt start left up side).right = if left then start.x else start.x + side := by
  cases left with
  | false => rfl
  | true => exact sub_add_cancel _ _

theorem bottom_squareAt (start : Point α) (left up : Bool) (side : α) :
    (squareAt start left up side).bottom = if up then start.y else start.y + side := by
  cases up with
  | false => rfl
  | true => exact sub_add_cancel _ _

theorem mem_corners_squareAt (start : Point α) (left up : Bool) (side : α) :
    start ∈ (squareAt start left up side).corners := by
  rw [mem_corners_iff, right_squareAt, bottom_squareAt]
  cases left <;> cases up <;> simp [squareAt]

/-- A square with a corner on the media stays on it as far as there is room on both axes. -/
theorem squareAt_liesIn_media_iff (hstart : start.inMedia) :
    (squareAt start left up side).LiesIn media ↔
      side ≤ roomToward left start.x ∧ side ≤ roomToward up start.y := by
  obtain ⟨⟨hx, hx'⟩, hy, hy'⟩ := Point.inMedia_iff.mp hstart
  have haxis {a : α} (h : 0 ≤ a) (h' : a ≤ 1) (backward : Bool) :
      (0 ≤ if backward then a - side else a) ∧ (if backward then a else a + side) ≤ 1 ↔
        side ≤ roomToward backward a := by
    cases backward with
    | false =>
      simp only [Bool.false_eq_true, if_false, roomToward, h, true_and]
      exact le_sub_iff_add_le'.symm
    | true => simp only [if_true, roomToward, h', and_true, sub_nonneg]
  rw [← haxis hx hx', ← haxis hy hy']
  constructor
  · rintro ⟨hleft, hright, htop, hbottom⟩
    rw [right_squareAt] at hright
    rw [bottom_squareAt] at hbottom
    simp only [media, Rect.right, Rect.bottom, zero_add] at hright hbottom
    exact ⟨⟨hleft, hright⟩, htop, hbottom⟩
  · rintro ⟨⟨hleft, hright⟩, htop, hbottom⟩
    refine ⟨hleft, ?_, htop, ?_⟩
    · rw [right_squareAt]
      simpa only [media, Rect.right, zero_add] using hright
    · rw [bottom_squareAt]
      simpa only [media, Rect.bottom, zero_add] using hbottom

theorem squareAt_eq_iff {left' up' : Bool} :
    squareAt start left up side = squareAt start left' up' side ↔
      side = 0 ∨ left = left' ∧ up = up' := by
  have haxis (a : α) (backward backward' : Bool) :
      (if backward then a - side else a) = (if backward' then a - side else a) ↔
        side = 0 ∨ backward = backward' := by
    have hback : a = a - side ↔ side = 0 := by rw [eq_comm, sub_eq_self]
    cases backward <;> cases backward' <;> simp [hback]
  rw [squareAt, squareAt, mk.injEq, haxis, haxis, or_and_left]
  simp only [and_true]

theorem roomToward_nonneg {a : α} (h : 0 ≤ a ∧ a ≤ 1) (backward : Bool) :
    0 ≤ roomToward backward a := by
  cases backward with
  | false => exact sub_nonneg.mpr h.2
  | true => exact h.1

theorem room_eq (a b : α) :
    (if b - a ≥ 0 then 1 - a else a) = roomToward (decide (b < a)) a := by
  by_cases h : b < a
  · rw [if_neg (not_le.mpr (sub_neg.mpr h)), roomToward, if_pos (decide_eq_true h)]
  · rw [if_pos (sub_nonneg.mpr (not_lt.mp h)), roomToward, if_neg (by simpa using h)]

theorem squareSide_nonneg (hstart : start.inMedia) (current : Point α) :
    0 ≤ squareSide start current := by
  obtain ⟨hx, hy⟩ := Point.inMedia_iff.mp hstart
  have hlonger : 0 ≤ max |current.x - start.x| |current.y - start.y| :=
    (abs_nonneg _).trans (le_max_left _ _)
  exact le_min (le_min hlonger (roomToward_nonneg hx _)) (roomToward_nonneg hy _)

/-- The side of a drag is the largest one that is no longer than the drag and whose square, in the
direction of the drag, stays on the media. -/
theorem isGreatest_squareSide (hstart : start.inMedia) (current : Point α) :
    IsGreatest {side | 0 ≤ side ∧ side ≤ max |current.x - start.x| |current.y - start.y| ∧
      (squareAt start (current.x < start.x) (current.y < start.y) side).LiesIn media}
      (squareSide start current) := by
  have hnonneg := squareSide_nonneg hstart current
  constructor
  · refine ⟨hnonneg, (min_le_left _ _).trans (min_le_left _ _), ?_⟩
    rw [squareAt_liesIn_media_iff hstart]
    exact ⟨(min_le_left _ _).trans (min_le_right _ _), min_le_right _ _⟩
  · rintro side ⟨_, hlonger, hmedia⟩
    obtain ⟨hx, hy⟩ := (squareAt_liesIn_media_iff hstart).mp hmedia
    exact le_min (le_min hlonger hx) hy

variable [ExactScalar α]

theorem spanning_step (start : Point α) (left up : Bool) (hside : 0 ≤ side) :
    spanning start ⟨start.x + if left then -side else side, start.y + if up then -side else side⟩ =
      squareAt start left up side := by
  have haxis (a : α) (backward : Bool) :
      min a (a + if backward then -side else side) = (if backward then a - side else a) ∧
        |a - (a + if backward then -side else side)| = side := by
    cases backward with
    | false => simp [abs_of_nonneg hside, hside]
    | true => simp [abs_of_nonneg hside, hside, sub_eq_add_neg]
  obtain ⟨hx, hwidth⟩ := haxis start.x left
  obtain ⟨hy, hheight⟩ := haxis start.y up
  simp only [spanning, Scalar.least_eq, ExactScalar.abs_eq, hx, hwidth, hy, hheight, squareAt]

theorem dragged_eq_squareAt (hstart : start.inMedia) (current : Point α) :
    dragged start current true = squareAt start (current.x < start.x) (current.y < start.y)
      (squareSide start current) := by
  have hside := squareSide_nonneg hstart current
  have hstep (a b : α) : Scalar.copySign (squareSide start current) (b - a) =
      if decide (b < a) then -squareSide start current else squareSide start current := by
    simp only [ExactScalar.copySign_eq, abs_of_nonneg hside, sub_neg, decide_eq_true_eq]
  have hlonger : Scalar.least (Scalar.least (Scalar.greatest (Scalar.abs (current.x - start.x))
      (Scalar.abs (current.y - start.y))) (if current.x - start.x ≥ 0 then 1 - start.x else start.x))
        (if current.y - start.y ≥ 0 then 1 - start.y else start.y) = squareSide start current := by
    simp only [Scalar.least_eq, Scalar.greatest_eq, ExactScalar.abs_eq, room_eq, squareSide]
  rw [dragged, if_pos rfl]
  simp only [hlonger, hstep]
  exact spanning_step start _ _ hside

theorem spanning_comm (p q : Point α) : spanning p q = spanning q p := by
  simp only [spanning, Scalar.least_eq, ExactScalar.abs_eq, min_comm, abs_sub_comm]

theorem opposite_corners_spanning (p q : Point α) :
    ∃ i, (spanning p q).corners[i]? = some p ∧ (spanning p q).corners[(i + 2) % 4]? = some q := by
  have hright : (spanning p q).right = max p.x q.x := Scalar.least_add_abs_sub p.x q.x
  have hbottom : (spanning p q).bottom = max p.y q.y := Scalar.least_add_abs_sub p.y q.y
  obtain ⟨px, py⟩ := p
  obtain ⟨qx, qy⟩ := q
  rw [corners, hright, hbottom]
  simp only [spanning, Scalar.least_eq]
  rcases le_total px qx with hx | hx
  · rcases le_total py qy with hy | hy
    · exact ⟨0, by simp [hx, hy], by simp [hx, hy]⟩
    · exact ⟨3, by simp [hx, hy], by simp [hx, hy]⟩
  · rcases le_total py qy with hy | hy
    · exact ⟨1, by simp [hx, hy], by simp [hx, hy]⟩
    · exact ⟨2, by simp [hx, hy], by simp [hx, hy]⟩

/-- A square drag on the media has its start as a corner, follows the pointer on each axis, stays on
the media and has the largest side that is no longer than the drag and leads nowhere else. A plain
drag has its ends as opposite corners, contains them and does not depend on their order. -/
theorem drags_from_media (hstart : start.inMedia) (current : Point α) :
    let square := dragged start current true
    let plain := dragged start current false
    (square.width = square.height ∧ start ∈ square.corners ∧
      (if start.x ≤ current.x then square.x = start.x else square.right = start.x) ∧
      (if start.y ≤ current.y then square.y = start.y else square.bottom = start.y) ∧
      square.LiesIn media ∧
      IsGreatest {side | 0 ≤ side ∧ side ≤ max |current.x - start.x| |current.y - start.y| ∧
        (squareAt start (current.x < start.x) (current.y < start.y) side).LiesIn media}
        square.width) ∧
    (0 ≤ plain.width ∧ 0 ≤ plain.height ∧
      (∃ i, plain.corners[i]? = some start ∧ plain.corners[(i + 2) % 4]? = some current) ∧
      plain.contains start ∧ plain.contains current ∧ dragged current start false = plain) := by
  intro square plain
  have hsquare : square = squareAt start (current.x < start.x) (current.y < start.y)
      (squareSide start current) := dragged_eq_squareAt hstart current
  have hplain : plain = spanning start current := rfl
  have hgreatest := isGreatest_squareSide hstart current
  have hcorners := opposite_corners_spanning start current
  have hproper : plain.isProper := by
    rw [isProper_iff, hplain]
    simp only [spanning, ExactScalar.abs_eq]
    exact ⟨abs_nonneg _, abs_nonneg _⟩
  obtain ⟨hwidth, hheight⟩ := isProper_iff.mp hproper
  constructor
  · rw [hsquare]
    refine ⟨rfl, mem_corners_squareAt _ _ _ _, ?_, ?_, hgreatest.1.2.2, hgreatest⟩
    · rw [right_squareAt]
      split
      · next h => simp [squareAt, not_lt.mpr h]
      · next h => simp [not_le.mp h]
    · rw [bottom_squareAt]
      split
      · next h => simp [squareAt, not_lt.mpr h]
      · next h => simp [not_le.mp h]
  · obtain ⟨i, hi, hi'⟩ := hcorners
    exact ⟨hwidth, hheight, ⟨i, hi, hi'⟩, contains_corner hproper (List.mem_of_getElem? hi),
      contains_corner hproper (List.mem_of_getElem? hi'), spanning_comm current start⟩

/-- A steep drag up from near the right edge is shortened to the room on the right. -/
theorem steep_drag_shortened :
    let start : Point ℝ := ⟨3 / 4, 1 / 2⟩
    let current : Point ℝ := ⟨7 / 8, 0⟩
    start.inMedia ∧ dragged start current true = ⟨3 / 4, 1 / 4, 1 / 4, 1 / 4⟩ ∧
      dragged current start false = dragged start current false := by
  intro start current
  have hstart : start.inMedia := by
    rw [Point.inMedia_iff]
    norm_num [start]
  obtain ⟨⟨hsquare, _, hx, hy, hmedia, hgreatest⟩, _, _, _, _, _, hcomm⟩ :=
    drags_from_media hstart current
  rw [if_pos (by norm_num [start, current])] at hx
  rw [if_neg (by norm_num [start, current])] at hy
  have hupper : (dragged start current true).width ≤ 1 / 4 := by
    have hright := hmedia.right
    rw [right, hx] at hright
    simp only [media, right, start] at hright
    linarith
  have hlower : 1 / 4 ≤ (dragged start current true).width := by
    apply hgreatest.2
    refine ⟨by norm_num, ?_, ?_⟩
    · norm_num [start, current, abs_of_nonneg, abs_of_nonpos]
    · rw [squareAt_liesIn_media_iff hstart]
      norm_num [roomToward, start, current]
  have hwidth := le_antisymm hupper hlower
  refine ⟨hstart, ?_, hcomm⟩
  rw [bottom, ← hsquare, hwidth] at hy
  generalize dragged start current true = square at *
  obtain ⟨x, y, width, height⟩ := square
  simp only [start] at hx hy hwidth hsquare
  rw [mk.injEq]
  exact ⟨hx, by linarith, hwidth, by linarith⟩

end RegionDrawing.Rect
