import Mathlib.Data.List.Induction
import RegionDrawing.Geometry.Polyline
import RegionDrawing.Proofs.Scalar.Order

/-! # The search for the nearest vertex

The vertex that is found is in reach, none is nearer, and none before it is as near. Nothing is
found exactly if every vertex is out of reach.
-/
namespace RegionDrawing.Polyline

variable {α : Type} [Scalar α]

theorem foldl_nearerVertex_mem (target : Point α) (reach : α) (vertices : List (Point α × Nat))
    (best : Option (Nat × α)) {position : Nat} {distance : α}
    (h : vertices.foldl (nearerVertex target reach) best = some (position, distance)) :
    best = some (position, distance) ∨ ∃ vertex ∈ vertices, vertex.2 = position := by
  induction vertices generalizing best with
  | nil => exact .inl h
  | cons vertex rest ih =>
    rw [List.foldl_cons] at h
    rcases ih _ h with hbest | ⟨other, hmem, hother⟩
    · by_cases hstep : nearerVertex target reach best vertex = best
      · exact .inl (hstep ▸ hbest)
      · refine .inr ⟨vertex, List.mem_cons_self, ?_⟩
        unfold nearerVertex at hbest hstep
        grind
    · exact .inr ⟨other, List.mem_cons_of_mem _ hmem, hother⟩

theorem nearestVertex?_lt {points : List (Point α)} {target : Point α} {reach : α}
    {position : Nat} (h : nearestVertex? points target reach = some position) :
    position < points.length := by
  simp only [nearestVertex?, Option.map_eq_some_iff, Prod.exists, exists_and_right,
    exists_eq_right] at h
  obtain ⟨distance, h⟩ := h
  rcases foldl_nearerVertex_mem target reach _ _ h with hnone | ⟨vertex, hmem, rfl⟩
  · cases hnone
  · exact (List.mem_zipIdx' hmem).1

/-- Whether a vertex is in reach of a target, none is nearer, and none before it is as near. -/
def IsNearest (points : List (Point α)) (target : Point α) (reach : α) (position : Nat) : Prop :=
  ∃ vertex, points[position]? = some vertex ∧ ¬ vertex.distance target > reach ∧
    ∀ other p, points[other]? = some p →
      ¬ p.distance target < vertex.distance target ∧
        (other < position → ¬ p.distance target ≤ vertex.distance target)

/-- Whether a search has found the nearest vertex of a list with its distance, or none in reach. -/
def IsBest (points : List (Point α)) (target : Point α) (reach : α) : Option (Nat × α) → Prop
  | none => ∀ p ∈ points, p.distance target > reach
  | some (position, distance) =>
    IsNearest points target reach position ∧
      points[position]?.map (·.distance target) = some distance

section
variable {points : List (Point α)} {target : Point α} {reach : α} {position : Nat}

omit [Scalar α] in
theorem getElem?_concat_cases {p q : Point α} {other : Nat}
    (h : (points ++ [p])[other]? = some q) :
    points[other]? = some q ∨ other = points.length ∧ q = p := by
  by_cases hother : other < points.length
  · rw [List.getElem?_append_left hother] at h
    exact .inl h
  · rw [List.getElem?_append_right (Nat.le_of_not_lt hother), List.getElem?_singleton] at h
    split at h
    · cases h
      exact .inr ⟨by omega, rfl⟩
    · cases h

theorem IsNearest.concat {vertex p : Point α} (h : IsNearest points target reach position)
    (hvertex : points[position]? = some vertex)
    (hp : ¬ p.distance target < vertex.distance target) :
    IsNearest (points ++ [p]) target reach position := by
  obtain ⟨_, hvertex', hreach, hall⟩ := h
  cases hvertex.symm.trans hvertex'
  have hposition := (List.getElem?_eq_some_iff.mp hvertex).1
  refine ⟨vertex, by rw [List.getElem?_append_left hposition, hvertex], hreach, ?_⟩
  intro other q hq
  rcases getElem?_concat_cases hq with hq | ⟨rfl, rfl⟩
  · exact hall other q hq
  · exact ⟨hp, fun hlt => absurd hlt (Nat.lt_asymm hposition)⟩

variable [LawfulOrder α]

theorem isNearest_last {p : Point α} (hreach : ¬ p.distance target > reach)
    (hall : ∀ q ∈ points, ¬ q.distance target ≤ p.distance target) :
    IsNearest (points ++ [p]) target reach points.length := by
  refine ⟨p, List.getElem?_concat_length, hreach, ?_⟩
  intro other q hq
  rcases getElem?_concat_cases hq with hq | ⟨rfl, rfl⟩
  · have hfar := hall q (List.mem_of_getElem? hq)
    exact ⟨fun hlt => hfar (LawfulOrder.le_of_lt _ _ hlt), fun _ => hfar⟩
  · exact ⟨LawfulOrder.not_lt_self _, fun hlt => absurd hlt (Nat.lt_irrefl _)⟩

variable [LawfulScalar α]

/-- A search that has found the nearest vertex so far has found it with one more vertex, too. -/
theorem IsBest.concat {best : Option (Nat × α)} (h : IsBest points target reach best)
    (p : Point α) :
    IsBest (points ++ [p]) target reach (nearerVertex target reach best (p, points.length)) := by
  have hlast : (points ++ [p])[points.length]?.map (·.distance target) =
      some (p.distance target) := by
    rw [List.getElem?_concat_length, Option.map_some]
  unfold nearerVertex
  cases best with
  | none =>
    by_cases hreach : p.distance target > reach
    · simp only [if_pos hreach]
      intro q hq
      rcases List.mem_append.mp hq with hq | hq
      · exact h q hq
      · rw [List.mem_singleton.mp hq]
        exact hreach
    · simp only [if_neg hreach]
      refine ⟨isNearest_last hreach fun q hq hle => hreach ?_, hlast⟩
      exact LawfulOrder.lt_of_lt_of_le (h q hq) hle
  | some found =>
    obtain ⟨hnearest, hdistance⟩ := h
    obtain ⟨vertex, hvertex, hinReach, hall⟩ := hnearest
    rw [hvertex, Option.map_some, Option.some.injEq] at hdistance
    have hkept : ¬ p.distance target < vertex.distance target →
        IsBest (points ++ [p]) target reach (some found) := by
      intro hp
      refine ⟨IsNearest.concat ⟨vertex, hvertex, hinReach, hall⟩ hvertex hp, ?_⟩
      rw [List.getElem?_append_left (List.getElem?_eq_some_iff.mp hvertex).1, hvertex,
        Option.map_some, hdistance]
    by_cases hreach : p.distance target > reach
    · simp only [if_pos hreach]
      exact hkept fun hlt => hinReach (LawfulOrder.lt_trans hreach hlt)
    · simp only [if_neg hreach]
      by_cases hless : p.distance target < found.2
      · simp only [if_pos hless]
        refine ⟨isNearest_last hreach fun q hq hle => ?_, hlast⟩
        obtain ⟨other, hother⟩ := List.getElem?_of_mem hq
        rw [← hdistance] at hless
        exact (hall other q hother).1 (LawfulOrder.lt_of_le_of_lt hle hless)
      · simp only [if_neg hless]
        exact hkept (hdistance ▸ hless)

theorem isBest_foldl (points : List (Point α)) (target : Point α) (reach : α) :
    IsBest points target reach (points.zipIdx.foldl (nearerVertex target reach) none) := by
  induction points using List.reverseRecOn with
  | nil => exact fun p hp => (nomatch hp)
  | append_singleton points p ih =>
    rw [List.zipIdx_append, List.foldl_append, Nat.zero_add]
    exact ih.concat p

theorem isNearest_of_nearestVertex? (h : nearestVertex? points target reach = some position) :
    IsNearest points target reach position := by
  have hbest := isBest_foldl points target reach
  obtain ⟨⟨_, distance⟩, hfound, rfl⟩ := Option.map_eq_some_iff.mp h
  rw [hfound] at hbest
  exact hbest.1

theorem nearestVertex?_eq_none_iff :
    nearestVertex? points target reach = none ↔ ∀ p ∈ points, p.distance target > reach := by
  have hbest := isBest_foldl points target reach
  rw [nearestVertex?, Option.map_eq_none_iff]
  constructor
  · intro hnone
    rw [hnone] at hbest
    exact hbest
  · intro hfar
    cases hfound : points.zipIdx.foldl (nearerVertex target reach) none with
    | none => rfl
    | some found =>
      rw [hfound] at hbest
      obtain ⟨⟨vertex, hvertex, hreach, _⟩, _⟩ := hbest
      exact absurd (hfar vertex (List.mem_of_getElem? hvertex)) hreach

end

end RegionDrawing.Polyline
