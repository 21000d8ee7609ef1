import Mathlib
import RegionDrawing.Geometry.PerspectiveBox
import RegionDrawing.Proofs.Geometry.Affine
import RegionDrawing.Proofs.Geometry.Media

/-! # Rectangles and boxes on the media

A drag between points of the media spans a rectangle on the media. A square one has only the room
that the media leaves in its direction, so its far corner stays on the media too. What is projected
toward a point of the media stays on it.
-/
namespace RegionDrawing

variable {α : Type} [FieldScalar α]

theorem Scalar.least_add_abs_sub [ExactScalar α] (a b : α) :
    least a b + abs (a - b) = max a b := by
  rw [least_eq, ExactScalar.abs_eq, ← max_sub_min_eq_abs', add_sub_cancel]

namespace Point

variable {p : Point α}

theorem inMedia_iff : p.inMedia ↔ (0 ≤ p.x ∧ p.x ≤ 1) ∧ 0 ≤ p.y ∧ p.y ≤ 1 := by
  simp only [inMedia, Bool.and_eq_true, Scalar.inUnit_iff]

variable [ExactScalar α]

theorem isDefined_eq_true (p : Point α) : p.isDefined = true := by
  simp only [isDefined, Scalar.isUndefined_eq_false, Bool.not_false, Bool.and_self]

theorem clamped_inMedia (p : Point α) : p.clamped.inMedia := inMedia_clamped p.isDefined_eq_true

end Point

namespace Rect

/-- Whether a rectangle lies on the media with both sides above a size. -/
structure OnMedia (r : Rect α) (size : α) : Prop where
  left : 0 ≤ r.x
  top : 0 ≤ r.y
  right : r.right ≤ 1
  bottom : r.bottom ≤ 1
  width : size < r.width
  height : size < r.height

def media : Rect α := ⟨0, 0, 1, 1⟩

variable {r : Rect α} {p q : Point α} {size : α}

theorem contains_media_iff : media.contains p ↔ p.inMedia := by
  simp only [contains_iff, Point.inMedia_iff, media, right, bottom, zero_add]

theorem OnMedia.inMedia_of_mem_corners (h : r.OnMedia size) (hsize : 0 ≤ size)
    (hp : p ∈ r.corners) : p.inMedia := by
  have hright : r.x ≤ r.right := le_add_of_nonneg_right (hsize.trans h.width.le)
  have hbottom : r.y ≤ r.bottom := le_add_of_nonneg_right (hsize.trans h.height.le)
  obtain ⟨hx, hy⟩ := mem_corners_iff.mp hp
  rw [Point.inMedia_iff]
  constructor
  · rcases hx with hx | hx
    · exact hx ▸ ⟨h.left, hright.trans h.right⟩
    · exact hx ▸ ⟨h.left.trans hright, h.right⟩
  · rcases hy with hy | hy
    · exact hy ▸ ⟨h.top, hbottom.trans h.bottom⟩
    · exact hy ▸ ⟨h.top.trans hbottom, h.bottom⟩

variable [ExactScalar α]

theorem onMedia_spanning (hp : p.inMedia) (hq : q.inMedia) (h : (spanning p q).exceeds size) :
    (spanning p q).OnMedia size := by
  obtain ⟨⟨hpx, hpx'⟩, hpy, hpy'⟩ := Point.inMedia_iff.mp hp
  obtain ⟨⟨hqx, hqx'⟩, hqy, hqy'⟩ := Point.inMedia_iff.mp hq
  simp only [exceeds, gt_iff_lt, Bool.and_eq_true, decide_eq_true_eq] at h
  refine ⟨?_, ?_, ?_, ?_, h.1, h.2⟩
  · exact (le_min hpx hqx).trans_eq (Scalar.least_eq _ _).symm
  · exact (le_min hpy hqy).trans_eq (Scalar.least_eq _ _).symm
  · exact (Scalar.least_add_abs_sub _ _).trans_le (max_le hpx' hqx')
  · exact (Scalar.least_add_abs_sub _ _).trans_le (max_le hpy' hqy')

/-- A square drag goes no further on an axis than the media leaves room in its direction. -/
theorem copySign_mem_unit {a side : α} (d : α) (ha : 0 ≤ a ∧ a ≤ 1) (hside : 0 ≤ side)
    (hroom : side ≤ if d ≥ 0 then 1 - a else a) :
    0 ≤ a + Scalar.copySign side d ∧ a + Scalar.copySign side d ≤ 1 := by
  rw [ExactScalar.copySign_eq, abs_of_nonneg hside]
  by_cases hd : d ≥ 0
  · rw [if_pos hd] at hroom
    rw [if_neg (not_lt.mpr hd)]
    constructor <;> linarith
  · rw [if_neg hd] at hroom
    rw [if_pos (not_le.mp hd)]
    constructor <;> linarith

theorem exists_corner_dragged {start current : Point α} (hstart : start.inMedia)
    (hcurrent : current.inMedia) (square : Bool) :
    ∃ corner, dragged start current square = spanning start corner ∧ corner.inMedia := by
  cases square with
  | false => exact ⟨current, rfl, hcurrent⟩
  | true =>
    obtain ⟨hx, hy⟩ := Point.inMedia_iff.mp hstart
    have hroom : ∀ {a : α} (d : α), 0 ≤ a ∧ a ≤ 1 → 0 ≤ if d ≥ 0 then 1 - a else a := by
      intro a d ha
      split
      · exact sub_nonneg.mpr ha.2
      · exact ha.1
    refine ⟨_, if_pos rfl, Point.inMedia_iff.mpr ?_⟩
    simp only [Scalar.least_eq, Scalar.greatest_eq, ExactScalar.abs_eq]
    have hlonger : 0 ≤ max |current.x - start.x| |current.y - start.y| :=
      (abs_nonneg _).trans (le_max_left _ _)
    have hside := le_min (le_min hlonger (hroom (current.x - start.x) hx))
      (hroom (current.y - start.y) hy)
    exact ⟨copySign_mem_unit _ hx hside ((min_le_left _ _).trans (min_le_right _ _)),
      copySign_mem_unit _ hy hside (min_le_right _ _)⟩

theorem onMedia_dragged {start current : Point α} (hstart : start.inMedia)
    (hcurrent : current.inMedia) {square : Bool}
    (h : (dragged start current square).exceeds size) :
    (dragged start current square).OnMedia size := by
  obtain ⟨corner, heq, hcorner⟩ := exists_corner_dragged hstart hcurrent square
  rw [heq] at h ⊢
  exact onMedia_spanning hstart hcorner h

end Rect

/-- A box with its front on the media and a vanishing point there has all corners on the media. -/
theorem PerspectiveBox.inMedia_of_mem_corners {b : PerspectiveBox α}
    (hfront : ∀ p ∈ b.front.corners, p.inMedia) (hvanishing : b.vanishing.inMedia)
    (hdepth : Scalar.inUnit b.depth) : ∀ p ∈ b.front.corners ++ b.backCorners, p.inMedia := by
  intro p hp
  rcases List.mem_append.mp hp with hp | hp
  · exact hfront p hp
  · obtain ⟨corner, hcorner, rfl⟩ := List.mem_map.mp hp
    obtain ⟨hzero, hone⟩ := Scalar.inUnit_iff.mp hdepth
    exact Rect.contains_media_iff.mp (Rect.contains_lerp
      (Rect.contains_media_iff.mpr (hfront corner hcorner))
      (Rect.contains_media_iff.mpr hvanishing) hzero hone)

end RegionDrawing
