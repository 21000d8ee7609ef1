import Mathlib.Order.Bounds.Basic
import RegionDrawing.Proofs.Binary64.Lengths
import RegionDrawing.Proofs.Binary64.Rational
import RegionDrawing.Proofs.Geometry.NearestVertex

/-! # The first of the nearest vertices

Distances between finite points are in one line. So the search for a vertex is a search for a least
distance: it finds the first position at which that is attained, and vertices behind it that are no
nearer do not change what it finds.
-/
namespace RegionDrawing

variable {α : Type} [Scalar α] {points : List (Point α)} {target : Point α} {reach : α}
  {position : Nat}

theorem Point.isUndefined_distance [LawfulLengths α] {p q : Point α} (hp : p.isFinite)
    (hq : q.isFinite) : Scalar.isUndefined (p.distance q) = false := by
  simp only [Point.isFinite, Bool.and_eq_true] at hp hq
  exact LawfulLengths.isUndefined_hypot _ _ (LawfulLengths.isUndefined_sub _ _ hp.1 hq.1)
    (LawfulLengths.isUndefined_sub _ _ hp.2 hq.2)

namespace Polyline

/-- The positions of the vertices at the least distance from a target. -/
def nearestPositions (points : List (Point α)) (target : Point α) : Set Nat :=
  {position | ∃ vertex, points[position]? = some vertex ∧
    ∀ p ∈ points, vertex.distance target ≤ p.distance target}

theorem nearerVertex_of_not_lt {found : Nat × α} {vertex : Point α × Nat}
    (h : ¬ vertex.1.distance target < found.2) :
    nearerVertex target reach (some found) vertex = some found := by
  simp only [nearerVertex, if_neg h, ite_self]

theorem foldl_nearerVertex_eq {best : Option (Nat × α)} {vertices : List (Point α × Nat)}
    (h : ∀ vertex ∈ vertices, nearerVertex target reach best vertex = best) :
    vertices.foldl (nearerVertex target reach) best = best := by
  induction vertices with
  | nil => rfl
  | cons vertex rest ih =>
    obtain ⟨hvertex, hrest⟩ := List.forall_mem_cons.mp h
    rw [List.foldl_cons, hvertex, ih hrest]

variable [LawfulScalar α] [LawfulOrder α]

/-- Further vertices do not change what is found if each is out of reach or no nearer. -/
theorem nearestVertex?_append {further : List (Point α)}
    (h : ∀ q ∈ further, q.distance target > reach ∨
      ∃ position vertex, nearestVertex? points target reach = some position ∧
        points[position]? = some vertex ∧ ¬ q.distance target < vertex.distance target) :
    nearestVertex? (points ++ further) target reach = nearestVertex? points target reach := by
  have hbest := isBest_foldl points target reach
  have hfound : nearestVertex? points target reach =
      (points.zipIdx.foldl (nearerVertex target reach) none).map (·.1) := rfl
  rw [nearestVertex?, List.zipIdx_append, List.foldl_append, hfound]
  rw [hfound] at h
  generalize points.zipIdx.foldl (nearerVertex target reach) none = best at h hbest
  rw [foldl_nearerVertex_eq]
  rintro ⟨q, i⟩ hmem
  rcases h q (List.fst_mem_of_mem_zipIdx hmem) with hfar | ⟨position, vertex, hposition, hvertex, hq⟩
  · exact if_pos hfar
  · obtain ⟨⟨_, distance⟩, rfl, rfl⟩ := Option.map_eq_some_iff.mp hposition
    obtain ⟨_, hdistance⟩ := hbest
    rw [hvertex, Option.map_some, Option.some.injEq] at hdistance
    exact nearerVertex_of_not_lt (hdistance ▸ hq)

variable [LawfulLengths α] (hpoints : ∀ p ∈ points, p.isFinite) (htarget : target.isFinite)

include hpoints htarget

theorem isNearest_iff : IsNearest points target reach position ↔
    IsLeast (nearestPositions points target) position ∧
      ∃ vertex, points[position]? = some vertex ∧ ¬ vertex.distance target > reach := by
  have hdefined : ∀ p ∈ points, Scalar.isUndefined (p.distance target) = false :=
    fun p hp => Point.isUndefined_distance (hpoints p hp) htarget
  constructor
  · rintro ⟨vertex, hvertex, hreach, hall⟩
    have hmem := List.mem_of_getElem? hvertex
    refine ⟨⟨⟨vertex, hvertex, ?_⟩, ?_⟩, vertex, hvertex, hreach⟩
    · intro p hp
      obtain ⟨other, hother⟩ := List.getElem?_of_mem hp
      exact LawfulScalar.le_of_not_lt _ _ (hdefined p hp) (hdefined vertex hmem)
        (hall other p hother).1
    · rintro other ⟨p, hp, hleast⟩
      by_contra hbefore
      exact (hall other p hp).2 (not_le.mp hbefore) (hleast vertex hmem)
  · rintro ⟨⟨⟨vertex, hvertex, hleast⟩, hfirst⟩, _, hvertex', hreach⟩
    cases hvertex.symm.trans hvertex'
    refine ⟨vertex, hvertex, hreach, fun other p hp => ⟨?_, fun hbefore hle => ?_⟩⟩
    · exact LawfulOrder.not_lt_of_le _ _ (hleast p (List.mem_of_getElem? hp))
    · have hother : other ∈ nearestPositions points target :=
        ⟨p, hp, fun q hq => LawfulOrder.le_trans _ _ _ hle (hleast q hq)⟩
      exact absurd (hfirst hother) (not_le.mpr hbefore)

theorem nearestVertex?_eq_some_iff : nearestVertex? points target reach = some position ↔
    IsNearest points target reach position := by
  refine ⟨isNearest_of_nearestVertex?, fun h => ?_⟩
  cases hfound : nearestVertex? points target reach with
  | none =>
    obtain ⟨vertex, hvertex, hreach, _⟩ := h
    exact absurd (nearestVertex?_eq_none_iff.mp hfound vertex (List.mem_of_getElem? hvertex)) hreach
  | some other =>
    have hother := isNearest_of_nearestVertex? hfound
    rw [isNearest_iff hpoints htarget] at h hother
    rw [hother.1.unique h.1]

/-- The search finds nothing exactly if all vertices are out of reach. Otherwise it finds the first
of the vertices at the least distance, which is in reach: its distance is not beyond the reach, and
at most the reach if that is a number. Vertices added at the end do not change what is found if each
is out of reach or not nearer than the vertex found. -/
theorem search_finds_first_least (reach : α) :
    (nearestVertex? points target reach = none ↔ ∀ p ∈ points, p.distance target > reach) ∧
    (∀ position, nearestVertex? points target reach = some position ↔
      IsLeast (nearestPositions points target) position ∧
        ∃ vertex, points[position]? = some vertex ∧ ¬ vertex.distance target > reach) ∧
    (Scalar.isUndefined reach = false → ∀ position vertex,
      nearestVertex? points target reach = some position → points[position]? = some vertex →
        vertex.distance target ≤ reach) ∧
    ∀ further : List (Point α),
      (∀ q ∈ further, q.distance target > reach ∨
        ∃ position vertex, nearestVertex? points target reach = some position ∧
          points[position]? = some vertex ∧ ¬ q.distance target < vertex.distance target) →
      nearestVertex? (points ++ further) target reach = nearestVertex? points target reach := by
  refine ⟨nearestVertex?_eq_none_iff, fun position => ?_, ?_, fun _ => nearestVertex?_append⟩
  · rw [nearestVertex?_eq_some_iff hpoints htarget, isNearest_iff hpoints htarget]
  · intro hreach position vertex hfound hvertex
    obtain ⟨_, hvertex', hinReach, _⟩ := isNearest_of_nearestVertex? hfound
    cases hvertex.symm.trans hvertex'
    have hdefined := Point.isUndefined_distance
      (hpoints vertex (List.mem_of_getElem? hvertex)) htarget
    exact LawfulScalar.le_of_not_lt _ _ hreach hdefined hinReach

omit hpoints htarget [LawfulLengths α] [LawfulOrder α] [LawfulScalar α] in
/-- Two vertices are as far from the target as the search reaches; it finds the first of them, also
with a third one as far. -/
theorem search_prefers_first :
    let points : List (Point Float) := [⟨0.25, 0.75⟩, ⟨0.25, 0.25⟩, ⟨0.75, 0.25⟩]
    let target : Point Float := ⟨0.5, 0.25⟩
    (∀ p ∈ points, p.isFinite) ∧ target.isFinite ∧
      IsLeast (nearestPositions points target) 1 ∧
      nearestVertex? (points ++ [⟨0.5, 0.5⟩]) target 0.25 = some 1 := by
  intro points target
  have hpoints : ∀ p ∈ points, p.isFinite := by decide +kernel
  have htarget : target.isFinite := by decide +kernel
  have hfound : nearestVertex? points target 0.25 = some 1 := by decide +kernel
  obtain ⟨_, hsome, _, hfurther⟩ := search_finds_first_least hpoints htarget 0.25
  refine ⟨hpoints, htarget, ((hsome 1).mp hfound).1, (hfurther _ ?_).trans hfound⟩
  rintro q hq
  rw [List.mem_singleton.mp hq]
  exact .inr ⟨1, ⟨0.25, 0.25⟩, hfound, rfl, by decide +kernel⟩

end Polyline

end RegionDrawing
