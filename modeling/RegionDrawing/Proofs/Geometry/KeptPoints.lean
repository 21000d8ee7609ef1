import Mathlib.Data.List.Chain
import RegionDrawing.Geometry.Polyline

/-! # Clicks that are kept

Of a list of clicks those are kept that are far enough from the last one kept. Adding them one by
one gives the same list.
-/
namespace RegionDrawing.Polyline

variable {α : Type} [Scalar α]

def keptAfter (last : Point α) : List (Point α) → List (Point α)
  | [] => []
  | p :: rest => if last.distance p > repeatDistance then p :: keptAfter p rest else keptAfter last rest

/-- The clicks of a list that are kept: the first one, and each that is farther than the repeat
distance from the last one kept before it. -/
def kept : List (Point α) → List (Point α)
  | [] => []
  | first :: rest => first :: keptAfter first rest

@[simp] theorem append_nil (p : Point α) : append [] p = [p] := rfl

theorem append_cons_cons (a b : Point α) (rest : List (Point α)) (p : Point α) :
    append (a :: b :: rest) p = a :: append (b :: rest) p := by
  simp only [append, List.getLast?_cons_cons]
  cases h : (b :: rest).getLast? with
  | none => simp at h
  | some last =>
    dsimp only
    split <;> rfl

theorem append_ne_nil (points : List (Point α)) (p : Point α) : append points p ≠ [] := by
  match points with
  | [] => simp
  | [a] =>
    simp only [append, List.getLast?_singleton]
    split <;> simp
  | a :: b :: rest =>
    rw [append_cons_cons]
    simp

theorem mem_append {points : List (Point α)} {p q : Point α} (h : q ∈ append points p) :
    q ∈ points ∨ q = p := by
  unfold append at h
  split at h
  · simpa using h
  · split at h
    · simpa using h
    · exact .inl h

/-- Neighbours in a list of points are farther apart than the repeat distance. -/
def Spaced (points : List (Point α)) : Prop :=
  points.IsChain fun p q => p.distance q > repeatDistance

theorem Spaced.append {points : List (Point α)} (h : Spaced points) (p : Point α) :
    Spaced (append points p) := by
  unfold Polyline.append
  cases hlast : points.getLast? with
  | none =>
    rw [List.getLast?_eq_none_iff.mp hlast]
    exact .singleton p
  | some last =>
    dsimp only
    split
    · next hfar =>
      refine List.isChain_append.mpr ⟨h, .singleton p, ?_⟩
      intro a ha b hb
      rw [hlast, Option.mem_some_iff] at ha
      rw [List.head?_cons, Option.mem_some_iff] at hb
      rwa [← ha, ← hb]
    · exact h

theorem keptAfter_concat (last : Point α) (clicks : List (Point α)) (p : Point α) :
    last :: keptAfter last (clicks ++ [p]) = append (last :: keptAfter last clicks) p := by
  induction clicks generalizing last with
  | nil =>
    simp only [List.nil_append, keptAfter, append, List.getLast?_singleton]
    split <;> rfl
  | cons first rest ih =>
    simp only [List.cons_append, keptAfter]
    split
    · rw [append_cons_cons, ih]
    · exact ih last

theorem kept_concat (clicks : List (Point α)) (p : Point α) :
    kept (clicks ++ [p]) = append (kept clicks) p := by
  cases clicks with
  | nil => rfl
  | cons first rest => exact keptAfter_concat first rest p

theorem keptAfter_sublist (last : Point α) (clicks : List (Point α)) :
    (keptAfter last clicks).Sublist clicks := by
  induction clicks generalizing last with
  | nil => exact .slnil
  | cons p rest ih =>
    rw [keptAfter]
    split
    · exact (ih p).cons_cons p
    · exact (ih last).cons p

theorem kept_sublist (clicks : List (Point α)) : (kept clicks).Sublist clicks := by
  cases clicks with
  | nil => exact .slnil
  | cons first rest => exact (keptAfter_sublist first rest).cons_cons first

theorem exists_ends {points : List (Point α)} (hlength : 2 ≤ points.length) :
    ∃ first last, points.head? = some first ∧ points.getLast? = some last ∧
      ∀ distance, endsMeet points distance = decide (first.distance last < distance) := by
  match points with
  | first :: second :: rest =>
    refine ⟨first, _, rfl, List.getLast?_cons, ?_⟩
    intro distance
    simp only [endsMeet, List.getLast?_cons]

end RegionDrawing.Polyline
