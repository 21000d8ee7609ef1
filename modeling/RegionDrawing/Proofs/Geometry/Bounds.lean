import Mathlib
import RegionDrawing.Geometry.Rect
import RegionDrawing.Proofs.Scalar.Exact
import RegionDrawing.Proofs.Scalar.Sums

/-! # Bounds of points

The rectangle around a list of points is the least one that contains them, and each of its edges
goes through one of them.
-/
namespace RegionDrawing

variable {α : Type} [FieldScalar α]

namespace Scalar

variable [ExactScalar α] {β : Type} (f : β → α)

theorem le_foldl_least_iff (items : List β) (a b : α) :
    b ≤ items.foldl (fun m q => least m (f q)) a ↔ b ≤ a ∧ ∀ q ∈ items, b ≤ f q := by
  induction items generalizing a with
  | nil => simp
  | cons q rest ih =>
    rw [List.foldl_cons, ih, least_eq, le_min_iff, List.forall_mem_cons, and_assoc]

theorem foldl_greatest_le_iff (items : List β) (a b : α) :
    items.foldl (fun m q => greatest m (f q)) a ≤ b ↔ a ≤ b ∧ ∀ q ∈ items, f q ≤ b := by
  induction items generalizing a with
  | nil => simp
  | cons q rest ih =>
    rw [List.foldl_cons, ih, greatest_eq, max_le_iff, List.forall_mem_cons, and_assoc]

omit [FieldScalar α] [ExactScalar α] in
theorem exists_eq_foldl (choose : α → α → α) (h : ∀ a b, choose a b = a ∨ choose a b = b)
    (items : List β) (p : β) :
    ∃ q ∈ p :: items, f q = items.foldl (fun m q => choose m (f q)) (f p) := by
  induction items generalizing p with
  | nil => exact ⟨p, List.mem_cons_self, rfl⟩
  | cons q rest ih =>
    rw [List.foldl_cons]
    rcases h (f p) (f q) with h | h
    · obtain ⟨r, hr, heq⟩ := ih p
      rw [h]
      exact ⟨r, List.cons_subset_cons p (List.subset_cons_self q rest) hr, heq⟩
    · obtain ⟨r, hr, heq⟩ := ih q
      rw [h]
      exact ⟨r, List.mem_cons_of_mem p hr, heq⟩

end Scalar

namespace Rect

variable {r s : Rect α} {p q : Point α} {points : List (Point α)}

theorem contains_iff :
    r.contains p ↔ (r.x ≤ p.x ∧ p.x ≤ r.right) ∧ r.y ≤ p.y ∧ p.y ≤ r.bottom := by
  simp only [contains, ge_iff_le, Bool.and_eq_true, decide_eq_true_eq, and_assoc]

theorem contains_of_coordinates {a b : Point α} (ha : r.contains a) (hb : r.contains b)
    (hx : p.x = a.x) (hy : p.y = b.y) : r.contains p := by
  rw [contains_iff] at ha hb ⊢
  rw [hx, hy]
  exact ⟨ha.1, hb.2⟩

theorem mem_corners_iff : q ∈ r.corners ↔
    (q.x = r.x ∨ q.x = r.right) ∧ (q.y = r.y ∨ q.y = r.bottom) := by
  obtain ⟨x, y⟩ := q
  simp only [corners, List.mem_cons, List.not_mem_nil, or_false, Point.mk.injEq]
  tauto

theorem corners_ne_nil (r : Rect α) : r.corners ≠ [] := List.cons_ne_nil _ _

/-- Whether a rectangle reaches no further than another one on any side. -/
structure LiesIn (r s : Rect α) : Prop where
  left : s.x ≤ r.x
  right : r.right ≤ s.right
  top : s.y ≤ r.y
  bottom : r.bottom ≤ s.bottom

theorem LiesIn.refl (r : Rect α) : r.LiesIn r := ⟨le_rfl, le_rfl, le_rfl, le_rfl⟩

theorem LiesIn.antisymm (h : r.LiesIn s) (h' : s.LiesIn r) : r = s := by
  obtain ⟨x, y, width, height⟩ := r
  obtain ⟨x', y', width', height'⟩ := s
  obtain rfl : x = x' := le_antisymm h'.left h.left
  obtain rfl : y = y' := le_antisymm h'.top h.top
  have hright : x + width = x + width' := le_antisymm h.right h'.right
  have hbottom : y + height = y + height' := le_antisymm h.bottom h'.bottom
  rw [add_left_cancel hright, add_left_cancel hbottom]

theorem LiesIn.contains (h : r.LiesIn s) (hp : r.contains p) : s.contains p := by
  rw [contains_iff] at hp ⊢
  exact ⟨⟨h.left.trans hp.1.1, hp.1.2.trans h.right⟩, h.top.trans hp.2.1, hp.2.2.trans h.bottom⟩

theorem right_enclosing (first : Point α) (rest : List (Point α)) :
    (enclosing (first :: rest)).right =
      rest.foldl (fun m q => Scalar.greatest m q.x) first.x :=
  add_sub_cancel _ _

theorem bottom_enclosing (first : Point α) (rest : List (Point α)) :
    (enclosing (first :: rest)).bottom =
      rest.foldl (fun m q => Scalar.greatest m q.y) first.y :=
  add_sub_cancel _ _

theorem exists_of_mem_corners (h : points ≠ []) (hq : q ∈ (enclosing points).corners) :
    (∃ p ∈ points, p.x = q.x) ∧ ∃ p ∈ points, p.y = q.y := by
  obtain ⟨first, rest, rfl⟩ := List.exists_cons_of_ne_nil h
  rw [mem_corners_iff, right_enclosing, bottom_enclosing] at hq
  obtain ⟨hx, hy⟩ := hq
  constructor
  · rcases hx with hx | hx
    · rw [hx]
      exact Scalar.exists_eq_foldl Point.x Scalar.least Scalar.least_eq_or rest first
    · rw [hx]
      exact Scalar.exists_eq_foldl Point.x Scalar.greatest Scalar.greatest_eq_or rest first
  · rcases hy with hy | hy
    · rw [hy]
      exact Scalar.exists_eq_foldl Point.y Scalar.least Scalar.least_eq_or rest first
    · rw [hy]
      exact Scalar.exists_eq_foldl Point.y Scalar.greatest Scalar.greatest_eq_or rest first

variable {margin : α}

theorem right_expanded (r : Rect α) (margin : α) :
    (r.expanded margin).right = r.right + margin := by
  simp only [right, expanded]
  ring

theorem bottom_expanded (r : Rect α) (margin : α) :
    (r.expanded margin).bottom = r.bottom + margin := by
  simp only [bottom, expanded]
  ring

theorem contains_expanded_iff : (r.expanded margin).contains p ↔
    (r.x - margin ≤ p.x ∧ p.x ≤ r.right + margin) ∧
      r.y - margin ≤ p.y ∧ p.y ≤ r.bottom + margin := by
  rw [contains_iff, right_expanded, bottom_expanded]
  rfl

theorem LiesIn.expanded (h : r.LiesIn s) (margin : α) :
    (r.expanded margin).LiesIn (s.expanded margin) := by
  constructor
  · exact sub_le_sub_right h.left margin
  · rw [right_expanded, right_expanded]
    exact add_le_add_left h.right margin
  · exact sub_le_sub_right h.top margin
  · rw [bottom_expanded, bottom_expanded]
    exact add_le_add_left h.bottom margin

theorem liesIn_expanded (r : Rect α) (h : 0 ≤ margin) : r.LiesIn (r.expanded margin) := by
  constructor
  · exact sub_le_self _ h
  · rw [right_expanded]
    exact le_add_of_nonneg_right h
  · exact sub_le_self _ h
  · rw [bottom_expanded]
    exact le_add_of_nonneg_right h

variable [ExactScalar α]

theorem contains_expanded (hq : r.contains q) (h : p.distance q ≤ margin) :
    (r.expanded margin).contains p := by
  obtain ⟨⟨hleft, hright⟩, htop, hbottom⟩ := contains_iff.mp hq
  obtain ⟨hx, hx'⟩ := abs_le.mp ((Scalar.abs_le_hypot_left _ _).trans h)
  obtain ⟨hy, hy'⟩ := abs_le.mp ((Scalar.abs_le_hypot_right _ _).trans h)
  rw [contains_expanded_iff]
  constructor
  · constructor <;> linarith
  · constructor <;> linarith

theorem isProper_iff : r.isProper ↔ 0 ≤ r.width ∧ 0 ≤ r.height := by
  simp only [isProper, ExactScalar.isFinite_eq, ge_iff_le, Bool.and_eq_true, decide_eq_true_eq,
    true_and]

theorem contains_corner (h : r.isProper) (hq : q ∈ r.corners) : r.contains q := by
  obtain ⟨hwidth, hheight⟩ := isProper_iff.mp h
  have hright : r.x ≤ r.right := le_add_of_nonneg_right hwidth
  have hbottom : r.y ≤ r.bottom := le_add_of_nonneg_right hheight
  obtain ⟨hx, hy⟩ := mem_corners_iff.mp hq
  rw [contains_iff]
  constructor
  · rcases hx with hx | hx
    · exact ⟨hx.ge, hx.trans_le hright⟩
    · exact ⟨hright.trans_eq hx.symm, hx.le⟩
  · rcases hy with hy | hy
    · exact ⟨hy.ge, hy.trans_le hbottom⟩
    · exact ⟨hbottom.trans_eq hy.symm, hy.le⟩

/-- The rectangle around some points is the least one that contains all of them. -/
theorem enclosing_liesIn_iff (h : points ≠ []) :
    (enclosing points).LiesIn s ↔ ∀ p ∈ points, s.contains p := by
  obtain ⟨first, rest, rfl⟩ := List.exists_cons_of_ne_nil h
  simp only [contains_iff, List.forall_mem_cons]
  constructor
  · rintro ⟨hleft, hright, htop, hbottom⟩
    have hleft := (Scalar.le_foldl_least_iff ..).mp hleft
    have htop := (Scalar.le_foldl_least_iff ..).mp htop
    rw [right_enclosing, Scalar.foldl_greatest_le_iff] at hright
    rw [bottom_enclosing, Scalar.foldl_greatest_le_iff] at hbottom
    exact ⟨⟨⟨hleft.1, hright.1⟩, htop.1, hbottom.1⟩, fun p hp =>
      ⟨⟨hleft.2 p hp, hright.2 p hp⟩, htop.2 p hp, hbottom.2 p hp⟩⟩
  · rintro ⟨⟨⟨hleft, hright⟩, htop, hbottom⟩, hrest⟩
    constructor
    · exact (Scalar.le_foldl_least_iff ..).mpr ⟨hleft, fun q hq => (hrest q hq).1.1⟩
    · rw [right_enclosing]
      exact (Scalar.foldl_greatest_le_iff ..).mpr ⟨hright, fun q hq => (hrest q hq).1.2⟩
    · exact (Scalar.le_foldl_least_iff ..).mpr ⟨htop, fun q hq => (hrest q hq).2.1⟩
    · rw [bottom_enclosing]
      exact (Scalar.foldl_greatest_le_iff ..).mpr ⟨hbottom, fun q hq => (hrest q hq).2.2⟩

theorem contains_enclosing (h : p ∈ points) : (enclosing points).contains p :=
  (enclosing_liesIn_iff (List.ne_nil_of_mem h)).mp (.refl _) p h

theorem isProper_enclosing (points : List (Point α)) : (enclosing points).isProper := by
  rw [isProper_iff]
  cases points with
  | nil => exact ⟨le_rfl, le_rfl⟩
  | cons first rest =>
    have hcontains : (enclosing (first :: rest)).contains first :=
      contains_enclosing List.mem_cons_self
    have hfirst := contains_iff.mp hcontains
    exact ⟨le_add_iff_nonneg_right _ |>.mp (hfirst.1.1.trans hfirst.1.2),
      le_add_iff_nonneg_right _ |>.mp (hfirst.2.1.trans hfirst.2.2)⟩

theorem enclosing_congr {points' : List (Point α)} (h : ∀ p, p ∈ points ↔ p ∈ points') :
    enclosing points = enclosing points' := by
  by_cases hnil : points = []
  · have hnil' : points' = [] :=
      List.eq_nil_iff_forall_not_mem.mpr fun p hp => by simpa [hnil] using (h p).mpr hp
    rw [hnil, hnil']
  · have hnil' : points' ≠ [] := by
      rintro rfl
      exact hnil (List.eq_nil_iff_forall_not_mem.mpr fun p hp => by simpa using (h p).mp hp)
    apply LiesIn.antisymm
    · exact (enclosing_liesIn_iff hnil).mpr fun p hp => contains_enclosing ((h p).mp hp)
    · exact (enclosing_liesIn_iff hnil').mpr fun p hp => contains_enclosing ((h p).mpr hp)

theorem enclosing_corners (h : r.isProper) : enclosing r.corners = r := by
  have hall : ∀ x y, (x = r.x ∨ x = r.right) → (y = r.y ∨ y = r.bottom) →
      (enclosing r.corners).contains ⟨x, y⟩ :=
    fun x y hx hy => contains_enclosing (mem_corners_iff.mpr ⟨hx, hy⟩)
  apply LiesIn.antisymm
  · exact (enclosing_liesIn_iff r.corners_ne_nil).mpr fun q hq => contains_corner h hq
  · have hleast := contains_iff.mp (hall r.x r.y (.inl rfl) (.inl rfl))
    have hgreatest := contains_iff.mp (hall r.right r.bottom (.inr rfl) (.inr rfl))
    exact ⟨hleast.1.1, hgreatest.1.2, hleast.2.1, hgreatest.2.2⟩

end Rect

end RegionDrawing
