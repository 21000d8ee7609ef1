import Mathlib
import RegionDrawing.Proofs.Binary64.Negation
import RegionDrawing.Proofs.Geometry.Curve

/-! # Joints of a curve

The spans of a curve take their points from the list alone and follow one another in it. Where one
ends the next begins in the same direction, also across the seam of a joined curve. An open curve
that is listed backwards has the same spans backwards.
-/
namespace RegionDrawing.Spline

variable {β : Type} [Scalar β] {points : List (Point β)} {closed wrap : Bool} {n i : Nat}

theorem succ_lt_of_lt_spanCount (h : i < spanCount n false) : i + 1 < n := by
  unfold spanCount at h
  split at h
  · omega
  · split at h
    · omega
    · exact Nat.add_lt_of_lt_sub h

theorem length_spans_eq (points : List (Point β)) (closed : Bool) (tension : β) :
    (spans points closed tension).length =
      if points.length < 2 then 0 else if points.length = 2 then 1
      else if closed then points.length else points.length - 1 := by
  rw [length_spans]
  unfold spanCount wraps
  cases closed with
  | false => grind
  | true => grind

def InRange (n i : Nat) (wrap : Bool) : Prop :=
  let (before, start, stop, after) := positions n i wrap
  before < n ∧ start < n ∧ stop < n ∧ after < n

theorem inRange_of_lt_spanCount (h : i < spanCount n wrap) : InRange n i wrap := by
  cases wrap with
  | true =>
    have hlt : i < n := h.trans_le (spanCount_le n true)
    have hpos : 0 < n := Nat.zero_lt_of_lt hlt
    exact ⟨Nat.mod_lt _ hpos, hlt, Nat.mod_lt _ hpos, Nat.mod_lt _ hpos⟩
  | false =>
    have hlt : i + 1 < n := succ_lt_of_lt_spanCount h
    refine ⟨?_, Nat.lt_of_succ_lt hlt, hlt, ?_⟩
    · show i - 1 < n
      omega
    · show min (i + 2) (n - 1) < n
      omega

theorem getElem?_start (h : i < spanCount points.length wrap) :
    points[i]? = some (controls points i wrap).start := by
  have hlt : i < points.length := h.trans_le (spanCount_le _ _)
  have hstart : (controls points i wrap).start = points.getD i Point.origin := by
    cases wrap <;> rfl
  rw [hstart, List.getD_eq_getElem _ _ hlt, List.getElem?_eq_getElem hlt]

theorem getElem?_stop (h : i < spanCount points.length (wraps points closed)) :
    points[if closed then (i + 1) % points.length else i + 1]? =
      some (controls points i (wraps points closed)).stop := by
  rcases Nat.lt_or_ge (i + 1) points.length with hlt | hlast
  · rw [Nat.mod_eq_of_lt hlt, ite_self, controls_stop hlt, List.getElem?_eq_getElem hlt]
  · cases hwraps : wraps points closed with
    | false =>
      rw [hwraps] at h
      exact absurd (succ_lt_of_lt_spanCount h) hlast.not_gt
    | true =>
      rw [hwraps] at h
      have hpos : 0 < points.length := Nat.zero_lt_of_lt (h.trans_le (spanCount_le _ _))
      have hmod : (i + 1) % points.length < points.length := Nat.mod_lt _ hpos
      rw [if_pos (Bool.and_eq_true_iff.mp hwraps).1, List.getElem?_eq_getElem hmod]
      exact congrArg some (List.getD_eq_getElem _ _ hmod).symm

/-- Whether a span continues another one through the same points. -/
def Controls.Joins (c d : Controls β) : Prop :=
  d.before = c.start ∧ d.start = c.stop ∧ d.stop = c.after

theorem controls_joins_wrapped (h : i < points.length) :
    (controls points i true).Joins (controls points ((i + 1) % points.length) true) := by
  have hbefore : ((i + 1) % points.length + points.length - 1) % points.length = i := by
    rcases Nat.lt_or_ge (i + 1) points.length with hlt | hlast
    · rw [Nat.mod_eq_of_lt hlt, Nat.add_right_comm, Nat.add_sub_cancel, Nat.add_mod_right,
        Nat.mod_eq_of_lt h]
    · have hend : i + 1 = points.length := by omega
      rw [hend, Nat.mod_self, Nat.zero_add, ← hend, Nat.add_sub_cancel, hend,
        Nat.mod_eq_of_lt h]
  have hstop : ((i + 1) % points.length + 1) % points.length = (i + 2) % points.length :=
    Nat.mod_add_mod _ _ _
  refine ⟨?_, rfl, ?_⟩
  · exact congrArg (points.getD · Point.origin) hbefore
  · exact congrArg (points.getD · Point.origin) hstop

theorem controls_joins_succ (h : i + 1 < spanCount points.length wrap) :
    (controls points i wrap).Joins (controls points (i + 1) wrap) := by
  cases wrap with
  | true =>
    have hlt : i + 1 < points.length := h.trans_le (spanCount_le _ _)
    have hjoins := controls_joins_wrapped (Nat.lt_of_succ_lt hlt)
    rwa [Nat.mod_eq_of_lt hlt] at hjoins
  | false =>
    have hlt : i + 2 < points.length := succ_lt_of_lt_spanCount h
    have hafter : min (i + 2) (points.length - 1) = i + 2 := by omega
    exact ⟨rfl, rfl, (congrArg (points.getD · Point.origin) hafter).symm⟩

def Span.departure (s : Span β) : Point β :=
  ⟨s.control₁.x - s.start.x, s.control₁.y - s.start.y⟩

def Span.arrival (s : Span β) : Point β :=
  ⟨s.stop.x - s.control₂.x, s.stop.y - s.control₂.y⟩

/-- Whether a span continues another one without a corner. -/
def Span.Joins (s t : Span β) : Prop := s.stop = t.start ∧ s.arrival = t.departure

theorem Controls.Joins.span {α : Type} [FieldScalar α] {c d : Controls α} (h : c.Joins d)
    (tension : α) : (c.span tension).Joins (d.span tension) := by
  obtain ⟨hbefore, hstart, hstop⟩ := h
  refine ⟨hstart.symm, ?_⟩
  simp only [Span.arrival, Span.departure, Controls.span, hbefore, hstart, hstop, sub_sub_cancel,
    add_sub_cancel_left]

theorem spans_joins_succ {α : Type} [FieldScalar α] {points : List (Point α)} {tension : α}
    (h : i + 1 < (spans points closed tension).length) :
    (spans points closed tension)[i].Joins (spans points closed tension)[i + 1] := by
  rw [getElem_spans, getElem_spans]
  rw [length_spans] at h
  exact (controls_joins_succ h).span tension

theorem spans_joins_seam {α : Type} [FieldScalar α] {points : List (Point α)}
    (h : 2 < points.length) (tension : α) :
    ∃ first last, (spans points true tension).head? = some first ∧
      (spans points true tension).getLast? = some last ∧ last.Joins first := by
  have hwraps : wraps points true = true := decide_eq_true h
  have hlength : (spans points true tension).length = points.length :=
    (length_spans points true tension).trans ((spanCount_wraps h.le true).trans (if_pos ⟨rfl, h⟩))
  have hlast : points.length - 1 < points.length := by omega
  have hjoins := controls_joins_wrapped hlast
  rw [Nat.sub_add_cancel (by omega), Nat.mod_self] at hjoins
  refine ⟨_, _, ?_, ?_, hjoins.span tension⟩
  · rw [List.head?_eq_getElem?, List.getElem?_eq_getElem (by omega), getElem_spans, hwraps]
  · rw [List.getLast?_eq_getElem?, hlength, List.getElem?_eq_getElem (by omega), getElem_spans,
      hwraps]

def Controls.reversed (c : Controls β) : Controls β := ⟨c.after, c.stop, c.start, c.before⟩

def Span.reversed (s : Span β) : Span β := ⟨s.stop, s.control₂, s.control₁, s.start⟩

theorem controls_reverse (h : i + 1 < points.length) :
    controls points.reverse i false =
      (controls points (points.length - 2 - i) false).reversed := by
  have hpoint {j k : Nat} (hjk : j + k + 1 = points.length) :
      points.reverse.getD j Point.origin = points.getD k Point.origin := by
    rw [List.getD_reverse j (by omega)]
    congr 1
    omega
  have hbefore : i - 1 + min (points.length - 2 - i + 2) (points.length - 1) + 1 =
      points.length := by omega
  have hafter : min (i + 2) (points.length - 1) + (points.length - 2 - i - 1) + 1 =
      points.length := by omega
  simp only [controls, positions, Controls.reversed, List.length_reverse, Bool.false_eq_true,
    if_false, hpoint hbefore, hpoint hafter, Controls.mk.injEq, true_and, and_true]
  exact ⟨hpoint (by omega), hpoint (by omega)⟩

theorem allControls_reverse (points : List (Point β)) :
    allControls points.reverse false =
      ((allControls points false).map Controls.reversed).reverse := by
  apply List.ext_getElem
  · simp only [List.length_reverse, List.length_map, length_allControls]
    rfl
  · intro i hi hi'
    rw [length_allControls, List.length_reverse] at hi
    have hlt : i + 1 < points.length := succ_lt_of_lt_spanCount hi
    have hcount : spanCount points.length false = points.length - 1 :=
      (spanCount_wraps (by omega) false).trans (if_neg nofun)
    have hindex : spanCount points.length false - 1 - i = points.length - 2 - i := by omega
    rw [getElem_allControls, List.getElem_reverse, List.getElem_map, getElem_allControls]
    simp only [List.length_map, length_allControls]
    exact (controls_reverse hlt).trans (by rw [← hindex]; rfl)

theorem Controls.span_reversed {α : Type} [FieldScalar α] (c : Controls α) (tension : α) :
    c.reversed.span tension = (c.span tension).reversed := by
  simp only [Controls.span, Controls.reversed, Span.reversed, Span.mk.injEq, Point.mk.injEq,
    true_and, and_true]
  refine ⟨⟨?_, ?_⟩, ?_, ?_⟩ <;> ring

theorem spans_reverse {α : Type} [FieldScalar α] (points : List (Point α)) (tension : α) :
    spans points.reverse false tension =
      ((spans points false tension).map Span.reversed).reverse := by
  rw [spans, spans, allControls_reverse]
  simp only [List.map_reverse, List.map_map, List.reverse_inj]
  exact List.map_congr_left fun c _ => c.span_reversed tension

/-- Numbers that are the same or compare as equal, so up to the sign of zero. -/
def Alike (a b : β) : Prop := a = b ∨ a == b

/-- Spans between the same points whose inner points are the same up to the sign of zero. -/
structure Span.Alike (s t : Span β) : Prop where
  start_eq : s.start = t.start
  x₁ : Spline.Alike s.control₁.x t.control₁.x
  y₁ : Spline.Alike s.control₁.y t.control₁.y
  x₂ : Spline.Alike s.control₂.x t.control₂.x
  y₂ : Spline.Alike s.control₂.y t.control₂.y
  stop_eq : s.stop = t.stop

/-- On machine numbers a span is reversed up to the signs of zeros: a tangent that vanishes has
lost its direction. -/
theorem Controls.span_reversed_alike (c : Controls Float) (tension : Float) :
    (c.reversed.span tension).Alike (c.span tension).reversed := by
  have hforward (a b c k : Float) : Spline.Alike (a + (b - c) * k) (a - (c - b) * k) :=
    Binary64.add_mul_sub a b c k
  have hbackward (a b c k : Float) : Spline.Alike (a - (c - b) * k) (a + (b - c) * k) :=
    (hforward a b c k).imp Eq.symm PartialEquivBEq.symm
  exact ⟨rfl, hforward _ _ _ _, hforward _ _ _ _, hbackward _ _ _ _, hbackward _ _ _ _, rfl⟩

theorem spans_reverse_alike (points : List (Point Float)) (tension : Float) :
    List.Forall₂ Span.Alike (spans points.reverse false tension)
      ((spans points false tension).map Span.reversed).reverse := by
  rw [spans, spans, allControls_reverse]
  simp only [List.map_reverse, List.map_map, List.forall₂_reverse_iff, List.forall₂_map_left_iff,
    List.forall₂_map_right_iff, List.forall₂_same]
  exact fun c _ => c.span_reversed_alike tension

/-- A curve through any list of points is a smooth chain of spans. All positions that its spans
read are in the list. There is no span through fewer than two points, one through two points, one
for each point of a joined curve and one for each gap of an open one, each from its point to the
next. In exact arithmetic no joint has a corner, nor has the seam at which a joined curve closes,
and an open curve that is listed backwards has the reversed spans in reverse order; on machine
numbers it has them up to the signs of zeros. -/
theorem spans_smooth_chain :
    (∀ (β : Type) [Scalar β] (points : List (Point β)) (closed : Bool) (tension : β),
      let all := spans points closed tension
      all.length = (if points.length < 2 then 0 else if points.length = 2 then 1
        else if closed then points.length else points.length - 1) ∧
      ∀ i (hi : i < all.length),
        all[i] = (controls points i (wraps points closed)).span tension ∧
        InRange points.length i (wraps points closed) ∧
        points[i]? = some all[i].start ∧
        points[if closed then (i + 1) % points.length else i + 1]? = some all[i].stop) ∧
    (∀ (α : Type) [FieldScalar α] (points : List (Point α)) (closed : Bool) (tension : α),
      let all := spans points closed tension
      (∀ i (hi : i + 1 < all.length), all[i].Joins all[i + 1]) ∧
      (closed → 3 ≤ points.length →
        ∃ first last, all.head? = some first ∧ all.getLast? = some last ∧ last.Joins first) ∧
      spans points.reverse false tension =
        ((spans points false tension).map Span.reversed).reverse) ∧
    ∀ (points : List (Point Float)) (tension : Float),
      List.Forall₂ Span.Alike (spans points.reverse false tension)
        ((spans points false tension).map Span.reversed).reverse := by
  refine ⟨?_, ?_, spans_reverse_alike⟩
  · intro β _ points closed tension all
    refine ⟨length_spans_eq points closed tension, ?_⟩
    intro i hi
    have hspan : all[i] = (controls points i (wraps points closed)).span tension :=
      getElem_spans hi
    have hcount : i < spanCount points.length (wraps points closed) :=
      hi.trans_eq (length_spans points closed tension)
    rw [hspan]
    exact ⟨rfl, inRange_of_lt_spanCount hcount, getElem?_start hcount, getElem?_stop hcount⟩
  · intro α _ points closed tension all
    refine ⟨fun i hi => spans_joins_succ hi, ?_, spans_reverse points tension⟩
    rintro rfl hthree
    exact spans_joins_seam hthree tension

/-- A curve that is joined through three corners of the media closes at the first of them on a
diagonal. -/
theorem triangle_closes_smoothly :
    let all : List (Span ℝ) := spans [⟨0, 0⟩, ⟨1, 0⟩, ⟨0, 1⟩] true (1 / 2)
    all.length = 3 ∧ ∃ first last, all.head? = some first ∧ all.getLast? = some last ∧
      last.Joins first ∧ first.departure = ⟨1 / 6, -1 / 6⟩ := by
  intro all
  obtain ⟨hspans, hexact, -⟩ := spans_smooth_chain
  obtain ⟨hlength, -⟩ := hspans ℝ [⟨0, 0⟩, ⟨1, 0⟩, ⟨0, 1⟩] true (1 / 2)
  obtain ⟨-, hseam, -⟩ := hexact ℝ [⟨0, 0⟩, ⟨1, 0⟩, ⟨0, 1⟩] true (1 / 2)
  obtain ⟨first, last, hfirst, hlast, hjoins⟩ := hseam rfl le_rfl
  refine ⟨hlength, first, last, hfirst, hlast, hjoins, ?_⟩
  obtain rfl := Option.some.inj hfirst
  norm_num [Span.departure, controls, positions, wraps, Controls.span]

end RegionDrawing.Spline
