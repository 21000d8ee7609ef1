import Mathlib
import RegionDrawing.Geometry.Transform
import RegionDrawing.Proofs.Geometry.Bounds

/-! # Affine maps

Points, rectangles and projections are edited by different formulas that describe one affine map
of the plane. An edited rectangle is the one around the images of its corners, and contains the
image of everything in the rectangle.
-/
namespace RegionDrawing

variable {α : Type} [FieldScalar α]

namespace Point

variable {f g : Point α → Point α}

def IsAffine (f : Point α → Point α) : Prop :=
  ∃ a b c d e h : α, ∀ p, f p = ⟨a * p.x + b * p.y + c, d * p.x + e * p.y + h⟩

/-- Whether each coordinate of an image is an affine function of the same coordinate alone. -/
def IsAxial (f : Point α → Point α) : Prop :=
  ∃ a b c d : α, ∀ p, f p = ⟨a * p.x + b, c * p.y + d⟩

theorem IsAxial.isAffine (hf : IsAxial f) : IsAffine f := by
  obtain ⟨a, b, c, d, hf⟩ := hf
  exact ⟨a, 0, b, 0, c, d, fun p => by simp only [hf, zero_mul, add_zero, zero_add]⟩

theorem isAxial_id : IsAxial fun p : Point α => p :=
  ⟨1, 0, 1, 0, fun p => by simp only [one_mul, add_zero]⟩

theorem IsAxial.comp (hg : IsAxial g) (hf : IsAxial f) : IsAxial fun p => g (f p) := by
  obtain ⟨a, b, c, d, hf⟩ := hf
  obtain ⟨a', b', c', d', hg⟩ := hg
  refine ⟨a' * a, a' * b + b', c' * c, c' * d + d', fun p => ?_⟩
  simp only [hg, hf, mk.injEq]
  constructor <;> ring

theorem IsAffine.comp (hg : IsAffine g) (hf : IsAffine f) : IsAffine fun p => g (f p) := by
  obtain ⟨a, b, c, d, e, h, hf⟩ := hf
  obtain ⟨a', b', c', d', e', h', hg⟩ := hg
  refine ⟨a' * a + b' * d, a' * b + b' * e, a' * c + b' * h + c',
    d' * a + e' * d, d' * b + e' * e, d' * c + e' * h + h', fun p => ?_⟩
  simp only [hg, hf, mk.injEq]
  constructor <;> ring

theorem isAxial_scaledAbout (center : Point α) (sx sy : α) :
    IsAxial fun p => p.scaledAbout center sx sy := by
  refine ⟨sx, center.x - center.x * sx, sy, center.y - center.y * sy, fun p => ?_⟩
  simp only [scaledAbout, mk.injEq]
  constructor <;> ring

theorem isAxial_translated (dx dy : α) : IsAxial fun p => p.translated dx dy :=
  ⟨1, dx, 1, dy, fun p => by simp only [translated, one_mul]⟩

theorem isAxial_projectedToward (vanishing : Point α) (depth : α) :
    IsAxial fun p => p.projectedToward vanishing depth := by
  refine ⟨1 - depth, vanishing.x * depth, 1 - depth, vanishing.y * depth, fun p => ?_⟩
  simp only [projectedToward, lerp, mk.injEq]
  constructor <;> ring

theorem isAffine_rotatedAbout (center : Point α) (radians : α) :
    IsAffine fun p => p.rotatedAbout center radians := by
  let sin := Scalar.sin radians
  let cos := Scalar.cos radians
  refine ⟨cos, -sin, center.x - center.x * cos + center.y * sin,
    sin, cos, center.y - center.x * sin - center.y * cos, fun p => ?_⟩
  simp only [rotatedAbout, mk.injEq]
  constructor <;> ring

theorem IsAffine.map_lerp (hf : IsAffine f) (p q : Point α) (t : α) :
    f (p.lerp q t) = (f p).lerp (f q) t := by
  obtain ⟨a, b, c, d, e, h, hf⟩ := hf
  rw [hf, hf, hf, lerp, lerp, mk.injEq]
  constructor <;> ring

theorem IsAxial.x_eq (hf : IsAxial f) {p q : Point α} (h : p.x = q.x) : (f p).x = (f q).x := by
  obtain ⟨a, b, c, d, hf⟩ := hf
  rw [hf, hf, h]

theorem IsAxial.y_eq (hf : IsAxial f) {p q : Point α} (h : p.y = q.y) : (f p).y = (f q).y := by
  obtain ⟨a, b, c, d, hf⟩ := hf
  rw [hf, hf, h]

end Point

namespace Rect

open Point (IsAffine IsAxial)

variable {r s : Rect α} {p q : Point α} {points : List (Point α)} {f : Point α → Point α}

/-- A linear function is least over a rectangle in one of its corners. -/
theorem exists_corner_le (hp : r.contains p) (a b : α) :
    ∃ q ∈ r.corners, a * q.x + b * q.y ≤ a * p.x + b * p.y := by
  obtain ⟨⟨hleft, hright⟩, htop, hbottom⟩ := contains_iff.mp hp
  have hend : ∀ {c l z h : α}, l ≤ z → z ≤ h → ∃ u, (u = l ∨ u = h) ∧ c * u ≤ c * z := by
    intro c l z h hl hh
    rcases le_total 0 c with hc | hc
    · exact ⟨l, .inl rfl, mul_le_mul_of_nonneg_left hl hc⟩
    · exact ⟨h, .inr rfl, mul_le_mul_of_nonpos_left hh hc⟩
  obtain ⟨x, hx, hax⟩ := hend (c := a) hleft hright
  obtain ⟨y, hy, hby⟩ := hend (c := b) htop hbottom
  exact ⟨⟨x, y⟩, mem_corners_iff.mpr ⟨hx, hy⟩, add_le_add hax hby⟩

/-- A rectangle around the images of the corners contains the image of each point between. -/
theorem contains_image (hf : IsAffine f) (hall : ∀ q ∈ r.corners, s.contains (f q))
    (hp : r.contains p) : s.contains (f p) := by
  obtain ⟨a, b, c, d, e, h, hf⟩ := hf
  simp only [hf, contains_iff] at hall ⊢
  obtain ⟨q₁, hq₁, hleft⟩ := exists_corner_le hp a b
  obtain ⟨q₂, hq₂, hright⟩ := exists_corner_le hp (-a) (-b)
  obtain ⟨q₃, hq₃, htop⟩ := exists_corner_le hp d e
  obtain ⟨q₄, hq₄, hbottom⟩ := exists_corner_le hp (-d) (-e)
  have h₁ := (hall q₁ hq₁).1.1
  have h₂ := (hall q₂ hq₂).1.2
  have h₃ := (hall q₃ hq₃).2.1
  have h₄ := (hall q₄ hq₄).2.2
  constructor
  · constructor <;> linarith
  · constructor <;> linarith

theorem contains_lerp {a b : Point α} (ha : r.contains a) (hb : r.contains b) {t : α}
    (hzero : 0 ≤ t) (hone : t ≤ 1) : r.contains (a.lerp b t) := by
  rw [contains_iff] at ha hb ⊢
  have hbetween : ∀ {l h x y : α}, l ≤ x → x ≤ h → l ≤ y → y ≤ h →
      l ≤ x + (y - x) * t ∧ x + (y - x) * t ≤ h := by
    intro l h x y hlx hxh hly hyh
    constructor <;> nlinarith
  exact ⟨hbetween ha.1.1 ha.1.2 hb.1.1 hb.1.2, hbetween ha.2.1 ha.2.2 hb.2.1 hb.2.2⟩

theorem corners_translated (r : Rect α) (dx dy : α) :
    (r.translated dx dy).corners = r.corners.map fun p => p.translated dx dy := by
  have hright : (r.translated dx dy).right = r.right + dx := add_right_comm _ _ _
  have hbottom : (r.translated dx dy).bottom = r.bottom + dy := add_right_comm _ _ _
  simp only [corners, List.map_cons, List.map_nil, Point.translated, hright, hbottom]
  rfl

variable [ExactScalar α]

theorem enclosing_map (hf : IsAxial f) (points : List (Point α)) (h : points ≠ []) :
    enclosing (points.map f) = enclosing ((enclosing points).corners.map f) := by
  apply LiesIn.antisymm
  · rw [enclosing_liesIn_iff (mt List.map_eq_nil_iff.mp h), List.forall_mem_map]
    intro p hp
    apply contains_image hf.isAffine _ (contains_enclosing hp)
    exact fun q hq => contains_enclosing (List.mem_map_of_mem hq)
  · rw [enclosing_liesIn_iff (mt List.map_eq_nil_iff.mp (corners_ne_nil _)), List.forall_mem_map]
    intro q hq
    obtain ⟨⟨a, ha, hx⟩, b, hb, hy⟩ := exists_of_mem_corners h hq
    exact contains_of_coordinates (contains_enclosing (List.mem_map_of_mem ha))
      (contains_enclosing (List.mem_map_of_mem hb)) (hf.x_eq hx.symm) (hf.y_eq hy.symm)

theorem mem_corners_ofExtent {x y width height : α} :
    q ∈ (ofExtent x y width height).corners ↔
      (q.x = x ∨ q.x = x + width) ∧ (q.y = y ∨ q.y = y + height) := by
  have hsides : ∀ z w u : α, (u = (if w < 0 then z + w else z) ∨
      u = (if w < 0 then z + w else z) + Scalar.abs w) ↔ u = z ∨ u = z + w := by
    intro z w u
    rw [ExactScalar.abs_eq]
    split
    · next hneg => rw [abs_of_neg hneg, add_neg_cancel_right, or_comm]
    · next hnonneg => rw [abs_of_nonneg (not_lt.mp hnonneg)]
  rw [mem_corners_iff]
  exact and_congr (hsides x width q.x) (hsides y height q.y)

/-- A negative factor turns a rectangle over and leaves the set of its corners. -/
theorem mem_corners_scaledAbout {center : Point α} {sx sy : α} :
    q ∈ (r.scaledAbout center sx sy).corners ↔
      q ∈ r.corners.map fun p => p.scaledAbout center sx sy := by
  obtain ⟨x, y⟩ := q
  have hright : center.x + (r.x - center.x) * sx + r.width * sx =
      center.x + (r.right - center.x) * sx := by rw [right]; ring
  have hbottom : center.y + (r.y - center.y) * sy + r.height * sy =
      center.y + (r.bottom - center.y) * sy := by rw [bottom]; ring
  simp only [scaledAbout, topLeft, Point.scaledAbout, mem_corners_ofExtent, hright, hbottom]
  simp only [corners, List.map_cons, List.map_nil, List.mem_cons, List.not_mem_nil, or_false,
    Point.mk.injEq]
  tauto

theorem isProper_scaledAbout (r : Rect α) (center : Point α) (sx sy : α) :
    (r.scaledAbout center sx sy).isProper := by
  simp only [isProper_iff, scaledAbout, ofExtent, ExactScalar.abs_eq]
  exact ⟨abs_nonneg _, abs_nonneg _⟩

end Rect

namespace Transform

open Point (IsAffine IsAxial)

variable {r : Rect α} {p : Point α} (t : Transform α)

/-- The first stage of an edit. -/
def scaled (p : Point α) : Point α :=
  match t.scaling with
  | some s => p.scaledAbout s.center s.sx s.sy
  | none => p

/-- The second stage of an edit. -/
def rotated (p : Point α) : Point α :=
  match t.rotation with
  | some r => p.rotatedAbout r.center r.radians
  | none => p

/-- The last stage of an edit. -/
def displaced (p : Point α) : Point α :=
  match t.displacement with
  | some v => p.translated v.dx v.dy
  | none => p

def scaledRect (r : Rect α) : Rect α :=
  match t.scaling with
  | some s => r.scaledAbout s.center s.sx s.sy
  | none => r

def rotatedRect (r : Rect α) : Rect α :=
  match t.rotation with
  | some rotation => r.rotatedBounds rotation.center rotation.radians
  | none => r

def displacedRect (r : Rect α) : Rect α :=
  match t.displacement with
  | some v => r.translated v.dx v.dy
  | none => r

theorem isAxial_scaled : IsAxial t.scaled := by
  unfold IsAxial scaled
  cases t.scaling with
  | none => exact Point.isAxial_id
  | some s => exact Point.isAxial_scaledAbout ..

theorem isAffine_rotated : IsAffine t.rotated := by
  unfold IsAffine rotated
  cases t.rotation with
  | none => exact Point.isAxial_id.isAffine
  | some r => exact Point.isAffine_rotatedAbout ..

theorem isAxial_displaced : IsAxial t.displaced := by
  unfold IsAxial displaced
  cases t.displacement with
  | none => exact Point.isAxial_id
  | some v => exact Point.isAxial_translated ..

theorem isAffine_applyPoint : IsAffine t.applyPoint :=
  t.isAxial_displaced.isAffine.comp (t.isAffine_rotated.comp t.isAxial_scaled.isAffine)

theorem isAxial_applyPoint (h : t.rotation = none) : IsAxial t.applyPoint := by
  have hrotated : t.rotated = fun p => p := by
    funext p
    rw [rotated, h]
  have hcomp := t.isAxial_displaced.comp t.isAxial_scaled
  show IsAxial fun p => t.displaced (t.rotated (t.scaled p))
  rwa [hrotated]

variable [ExactScalar α]

theorem mem_corners_scaledRect (q : Point α) :
    q ∈ (t.scaledRect r).corners ↔ q ∈ r.corners.map t.scaled := by
  unfold scaledRect scaled
  cases t.scaling with
  | none => rw [List.map_id']
  | some s => exact Rect.mem_corners_scaledAbout

theorem isProper_scaledRect (h : r.isProper) : (t.scaledRect r).isProper := by
  unfold scaledRect
  cases t.scaling with
  | none => exact h
  | some s => exact Rect.isProper_scaledAbout ..

theorem rotatedRect_eq (h : r.isProper) :
    t.rotatedRect r = Rect.enclosing (r.corners.map t.rotated) := by
  unfold rotatedRect rotated
  cases t.rotation with
  | none => rw [List.map_id', Rect.enclosing_corners h]
  | some rotation => rfl

theorem displacedRect_eq (h : r.isProper) :
    t.displacedRect r = Rect.enclosing (r.corners.map t.displaced) := by
  unfold displacedRect displaced
  cases t.displacement with
  | none => rw [List.map_id', Rect.enclosing_corners h]
  | some v =>
    rw [← Rect.corners_translated, Rect.enclosing_corners]
    have hsides := Rect.isProper_iff.mp h
    exact Rect.isProper_iff.mpr hsides

/-- An edited rectangle is the one around the images of its corners. -/
theorem applyRect_eq_enclosing (h : r.isProper) :
    t.applyRect r = Rect.enclosing (r.corners.map t.applyPoint) := by
  have hcorners : ∀ q, q ∈ (t.scaledRect r).corners.map t.rotated ↔
      q ∈ (r.corners.map t.scaled).map t.rotated := by
    intro q
    simp only [List.mem_map (f := t.rotated), mem_corners_scaledRect]
  calc t.displacedRect (t.rotatedRect (t.scaledRect r))
      = t.displacedRect (Rect.enclosing ((r.corners.map t.scaled).map t.rotated)) := by
        rw [t.rotatedRect_eq (t.isProper_scaledRect h), Rect.enclosing_congr hcorners]
    _ = Rect.enclosing (((r.corners.map t.scaled).map t.rotated).map t.displaced) := by
        rw [t.displacedRect_eq (Rect.isProper_enclosing _),
          ← Rect.enclosing_map t.isAxial_displaced _ (by simp [Rect.corners])]
    _ = Rect.enclosing (r.corners.map t.applyPoint) := by
        rw [List.map_map, List.map_map]
        rfl

theorem isProper_applyRect (h : r.isProper) : (t.applyRect r).isProper := by
  rw [t.applyRect_eq_enclosing h]
  exact Rect.isProper_enclosing _

theorem contains_applyRect (h : r.isProper) (hp : r.contains p) :
    (t.applyRect r).contains (t.applyPoint p) := by
  rw [t.applyRect_eq_enclosing h]
  exact Rect.contains_image t.isAffine_applyPoint
    (fun q hq => Rect.contains_enclosing (List.mem_map_of_mem hq)) hp

end Transform

end RegionDrawing
