import Mathlib
import RegionDrawing.Geometry.Polyline

/-! # Edges of listed points

An outline is listed from one of its points in one of two directions. Listed from another point a
ring has the same edges, and listed backwards it has the same edges turned around; a further point
in the list splits one edge in two.
-/
namespace RegionDrawing.Polyline

variable {α : Type} {points : List (Point α)} {a b first last : Point α}

theorem mem_of_mem_edges {closed : Bool} (h : (a, b) ∈ edges points closed) :
    a ∈ points ∧ b ∈ points := by
  have hinner : (a, b) ∈ points.zip (points.drop 1) → a ∈ points ∧ b ∈ points := by
    intro hmem
    obtain ⟨ha, hb⟩ := List.of_mem_zip hmem
    exact ⟨ha, List.mem_of_mem_drop hb⟩
  unfold edges at h
  split at h
  · next last hlast =>
    split at h
    · rcases List.mem_append.mp h with h | h
      · exact hinner h
      · cases List.mem_singleton.mp h
        exact ⟨List.mem_of_getLast? hlast, List.mem_cons_self⟩
    · exact hinner h
  · exact hinner h

theorem mem_of_mem_ringEdges (h : (a, b) ∈ ringEdges points) :
    a ∈ points ∧ b ∈ points := by
  unfold ringEdges at h
  split at h
  · cases h
  · next last hlast =>
    obtain ⟨ha, hb⟩ := List.of_mem_zip h
    rcases List.mem_cons.mp hb with hb | hb
    · exact ⟨ha, hb ▸ List.mem_of_getLast? hlast⟩
    · exact ⟨ha, hb⟩

/-- Along a list, a flag changes an odd number of times exactly if its ends differ. -/
theorem countP_changes (f : Point α → Bool) (points : List (Point α)) (previous : Point α) :
    (points.zip (previous :: points)).countP (fun e => f e.1 != f e.2) % 2 =
      (f previous != f (points.getLastD previous)).toNat := by
  induction points generalizing previous with
  | nil => simp
  | cons a rest ih =>
    rw [List.zip_cons_cons, List.countP_cons, List.getLastD_cons, Nat.add_mod, ih]
    cases f a <;> cases f previous <;> cases f (rest.getLastD a) <;> rfl

theorem countP_ring_changes (f : Point α → Bool) (points : List (Point α)) :
    (ringEdges points).countP (fun e => f e.1 != f e.2) % 2 = 0 := by
  unfold ringEdges
  split
  · rfl
  · next last hlast =>
    rw [countP_changes, List.getLastD_eq_getLast?, hlast]
    simp

theorem ringEdges_cons (first : Point α) (rest : List (Point α)) :
    ringEdges (first :: rest) = (first, rest.getLastD first) :: rest.zip (first :: rest) := by
  rw [ringEdges, List.getLast?_cons, List.getLastD_eq_getLast?]
  rfl

theorem zip_previous_concat (rest : List (Point α)) (previous p : Point α) :
    (rest ++ [p]).zip (previous :: (rest ++ [p])) =
      rest.zip (previous :: rest) ++ [(p, rest.getLastD previous)] := by
  induction rest generalizing previous with
  | nil => rfl
  | cons a rest ih =>
    rw [List.cons_append, List.zip_cons_cons, ih, List.zip_cons_cons, List.getLastD_cons,
      List.cons_append]

theorem ringEdges_concat (rest : List (Point α)) (first : Point α) :
    ringEdges (rest ++ [first]) = rest.zip (first :: rest) ++ [(first, rest.getLastD first)] := by
  rw [ringEdges, List.getLast?_concat]
  exact zip_previous_concat rest first first

/-- A ring has the same edges from whichever of its points it is listed. -/
theorem ringEdges_rotate (points : List (Point α)) (k : Nat) :
    (ringEdges (points.rotate k)).Perm (ringEdges points) := by
  induction k generalizing points with
  | zero => rw [List.rotate_zero]
  | succ k ih =>
    cases points with
    | nil => rw [List.rotate_nil]
    | cons first rest =>
      rw [List.rotate_cons_succ]
      refine (ih _).trans ?_
      rw [ringEdges_concat, ringEdges_cons]
      exact List.perm_append_singleton _ _

theorem edges_open (points : List (Point α)) :
    edges points false = points.zip (points.drop 1) := by
  unfold edges
  split <;> rfl

theorem edges_closed (h : 2 < points.length) (hfirst : points.head? = some first)
    (hlast : points.getLast? = some last) :
    edges points true = edges points false ++ [(last, first)] := by
  match points, h with
  | _ :: _ :: _ :: _, _ =>
    cases hfirst
    rw [edges_open]
    simp only [edges, hlast, if_true]

theorem edges_closed_of_short (h : points.length ≤ 2) :
    edges points true = edges points false := by
  match points, h with
  | [], _ | [_], _ | [_, _], _ => rfl

/-- The edges of an outline: they join neighbours in the list, and the last point with the first if
the outline is closed and has more than two points. -/
def IsEdge (points : List (Point α)) (closed : Bool) (a b : Point α) : Prop :=
  (∃ i, points[i]? = some a ∧ points[i + 1]? = some b) ∨
    closed ∧ 2 < points.length ∧ points.getLast? = some a ∧ points.head? = some b

theorem mem_edges_open_iff :
    (a, b) ∈ edges points false ↔ ∃ i, points[i]? = some a ∧ points[i + 1]? = some b := by
  rw [edges_open, List.mem_iff_getElem?]
  simp only [List.getElem?_zip_eq_some, List.getElem?_drop, Nat.add_comm 1]

theorem mem_edges_iff {closed : Bool} : (a, b) ∈ edges points closed ↔ IsEdge points closed a b := by
  unfold IsEdge
  cases closed with
  | false => simp [mem_edges_open_iff]
  | true =>
    by_cases h : 2 < points.length
    · obtain ⟨first, rest, rfl⟩ := List.exists_cons_of_length_pos (Nat.zero_lt_of_lt h)
      rw [edges_closed h rfl List.getLast?_cons, List.mem_append, mem_edges_open_iff,
        List.mem_singleton, Prod.mk.injEq, List.getLast?_cons, List.head?_cons]
      simp only [h, true_and, Option.some_inj, eq_comm]
    · rw [edges_closed_of_short (by omega), mem_edges_open_iff]
      simp [h]

/-- The edges of a ring are those of the list and the one that joins its ends, each read from its
second end. -/
theorem ringEdges_perm (points : List (Point α)) (hfirst : points.head? = some first)
    (hlast : points.getLast? = some last) :
    (ringEdges points).Perm ((edges points false).map Prod.swap ++ [(first, last)]) := by
  obtain ⟨rest, rfl⟩ := List.head?_eq_some_iff.mp hfirst
  rw [List.getLast?_cons, ← List.getLastD_eq_getLast?, Option.some_inj] at hlast
  rw [ringEdges_cons, hlast, edges_open, List.drop_one, List.tail_cons, List.zip_swap]
  exact (List.perm_append_singleton _ _).symm

theorem map_swap_swap (pairs : List (Point α × Point α)) :
    (pairs.map Prod.swap).map Prod.swap = pairs := by
  rw [List.map_map, Prod.swap_swap_eq, List.map_id]

theorem ringEdges_swap_perm (hfirst : points.head? = some first)
    (hlast : points.getLast? = some last) :
    ((ringEdges points).map Prod.swap).Perm (edges points false ++ [(last, first)]) := by
  have hring := (ringEdges_perm points hfirst hlast).map Prod.swap
  rwa [List.map_append, map_swap_swap] at hring

theorem edges_closed_perm (h : 2 < points.length) :
    (edges points true).Perm ((ringEdges points).map Prod.swap) := by
  obtain ⟨first, rest, rfl⟩ := List.exists_cons_of_length_pos (Nat.zero_lt_of_lt h)
  rw [edges_closed h rfl List.getLast?_cons]
  exact (ringEdges_swap_perm rfl List.getLast?_cons).symm

theorem edges_open_reverse (points : List (Point α)) :
    edges points.reverse false = (edges points false).reverse.map Prod.swap := by
  rw [edges_open, edges_open]
  apply List.ext_getElem
  · simp
  · intro i h h'
    simp
    grind

theorem ringEdges_reverse (points : List (Point α)) :
    (ringEdges points.reverse).Perm ((ringEdges points).map Prod.swap) := by
  cases points with
  | nil => rfl
  | cons first rest =>
    have hreverse := ringEdges_perm (first :: rest).reverse
      (List.head?_reverse.trans List.getLast?_cons) List.getLast?_reverse
    rw [edges_open_reverse, map_swap_swap] at hreverse
    refine hreverse.trans (((List.reverse_perm _).append_right _).trans ?_)
    exact (ringEdges_swap_perm rfl List.getLast?_cons).symm

theorem edges_reverse (points : List (Point α)) (closed : Bool) :
    (edges points.reverse closed).Perm ((edges points closed).map Prod.swap) := by
  have hopen : (edges points.reverse false).Perm ((edges points false).map Prod.swap) := by
    rw [edges_open_reverse]
    exact (List.reverse_perm _).map _
  cases closed with
  | false => exact hopen
  | true =>
    by_cases h : 2 < points.length
    · refine (edges_closed_perm (by rwa [List.length_reverse])).trans ?_
      exact ((ringEdges_reverse points).trans (edges_closed_perm h).symm).map _
    · rw [edges_closed_of_short (by simpa using h), edges_closed_of_short (by omega)]
      exact hopen

theorem isEdge_reverse_iff {closed : Bool} :
    IsEdge points.reverse closed a b ↔ IsEdge points closed b a := by
  rw [← mem_edges_iff, (edges_reverse points closed).mem_iff, ← mem_edges_iff]
  exact List.mem_map_swap b a _

theorem edges_rotate (h : 2 < points.length) (k : Nat) :
    (edges (points.rotate k) true).Perm (edges points true) := by
  refine (edges_closed_perm (by rwa [List.length_rotate])).trans ?_
  exact ((ringEdges_rotate points k).map _).trans (edges_closed_perm h).symm

variable [Scalar α] {i : Nat}

/-- The vertices of a ring by their positions, which go on around it. -/
def vertex (points : List (Point α)) (i : Nat) : Point α :=
  points.getD (i % points.length) Point.origin

theorem vertex_of_lt (h : i < points.length) : vertex points i = points[i] := by
  rw [vertex, Nat.mod_eq_of_lt h, List.getD_eq_getElem _ _ h]

theorem vertex_mod (points : List (Point α)) (i : Nat) :
    vertex points (i % points.length) = vertex points i := by
  rw [vertex, Nat.mod_mod, vertex]

theorem vertex_mod_add_one (points : List (Point α)) (i : Nat) :
    vertex points (i % points.length + 1) = vertex points (i + 1) := by
  rw [← vertex_mod points (i % points.length + 1), Nat.mod_add_mod, vertex_mod]

theorem vertex_add_mul_length (points : List (Point α)) (i k : Nat) :
    vertex points (i + points.length * k) = vertex points i := by
  rw [vertex, Nat.add_mul_mod_self_left, vertex]

theorem vertex_add_length (points : List (Point α)) (i : Nat) :
    vertex points (i + points.length) = vertex points i := by
  rw [vertex, Nat.add_mod_right, vertex]

theorem vertex_last (first : Point α) (rest : List (Point α)) :
    vertex (first :: rest) rest.length = rest.getLastD first := by
  rw [vertex_of_lt (by simp), ← List.getLast_eq_getLastD (List.cons_ne_nil _ _),
    List.getLast_eq_getElem]
  rfl

theorem vertex_rotate (points : List (Point α)) (k i : Nat) :
    vertex (points.rotate k) i = vertex points (k + i) := by
  rcases Nat.eq_zero_or_pos points.length with hnil | hpos
  · rw [List.length_eq_zero_iff.mp hnil]
    rfl
  · unfold vertex
    rw [List.length_rotate, List.getD_eq_getElem?_getD, List.getElem?_rotate (Nat.mod_lt _ hpos),
      Nat.mod_add_mod, List.getD_eq_getElem?_getD, Nat.add_comm]

theorem getElem_rotate_eq_vertex {k : Nat} (h : i < (points.rotate k).length) :
    (points.rotate k)[i] = vertex points (k + i) := by
  rw [← vertex_of_lt h, vertex_rotate]

theorem mem_iff_vertex (h : points ≠ []) : a ∈ points ↔ ∃ i, a = vertex points i := by
  constructor
  · intro ha
    obtain ⟨i, hi, rfl⟩ := List.mem_iff_getElem.mp ha
    exact ⟨i, (vertex_of_lt hi).symm⟩
  · rintro ⟨i, rfl⟩
    have hlt := Nat.mod_lt i (List.length_pos_of_ne_nil h)
    rw [← vertex_mod, vertex_of_lt hlt]
    exact List.getElem_mem hlt

theorem ringEdges_perm_range (points : List (Point α)) :
    (ringEdges points).Perm
      ((List.range points.length).map fun i => (vertex points (i + 1), vertex points i)) := by
  refine (ringEdges_rotate points 1).symm.trans (.of_eq ?_)
  cases points with
  | nil => rfl
  | cons first rest =>
    have hlast : ((first :: rest).rotate 1).getLast? = some first := by
      rw [List.rotate_cons_succ, List.rotate_zero, List.getLast?_concat]
    rw [ringEdges, hlast]
    apply List.ext_getElem
    · simp
    · intro i h h'
      simp only [List.getElem_zip, List.getElem_map, List.getElem_range, getElem_rotate_eq_vertex,
        Prod.mk.injEq, Nat.add_comm 1 i, true_and]
      cases i with
      | zero => rfl
      | succ i => rw [List.getElem_cons_succ, getElem_rotate_eq_vertex, Nat.add_comm]

theorem forall_edge (h : points ≠ []) {P : Point α → Point α → Prop}
    (hall : ∀ i < points.length, P (vertex points i) (vertex points (i + 1))) (i : Nat) :
    P (vertex points i) (vertex points (i + 1)) := by
  have hedge := hall _ (Nat.mod_lt i (List.length_pos_of_ne_nil h))
  rwa [vertex_mod, vertex_mod_add_one] at hedge

theorem exists_edge (h : points ≠ []) {f : Point α → Prop} {i k : Nat} (hi : ¬ f (vertex points i))
    (hk : f (vertex points k)) :
    ∃ j < points.length, ¬ f (vertex points j) ∧ f (vertex points (j + 1)) := by
  have hpos := List.length_pos_of_ne_nil h
  have hle : i ≤ k + points.length * i :=
    (Nat.le_mul_of_pos_left i hpos).trans (Nat.le_add_left _ _)
  obtain ⟨j, hj, hj'⟩ := Nat.exists_not_and_succ_of_not_zero_of_exists
    (p := fun j => f (vertex points (i + j))) hi
    ⟨k + points.length * i - i, by rwa [Nat.add_sub_cancel' hle, vertex_add_mul_length]⟩
  refine ⟨(i + j) % points.length, Nat.mod_lt _ hpos, ?_, ?_⟩
  · rwa [vertex_mod]
  · rwa [vertex_mod_add_one]

theorem insertIdx_length {β : Type} (before behind : List β) (b : β) :
    (before ++ behind).insertIdx before.length b = before ++ b :: behind := by
  induction before with
  | nil => rfl
  | cons a rest ih =>
    rw [List.cons_append, List.length_cons, List.insertIdx_succ_cons, ih, List.cons_append]

theorem rotate_insertIdx {β : Type} {items : List β} (h : i ≤ items.length) (b : β) :
    (items.insertIdx i b).rotate i = b :: items.rotate i := by
  obtain ⟨before, behind, rfl, rfl⟩ :
      ∃ before behind, items = before ++ behind ∧ before.length = i :=
    ⟨items.take i, items.drop i, (List.take_append_drop i items).symm, List.length_take_of_le h⟩
  rw [insertIdx_length, List.rotate_append_length_eq, List.rotate_append_length_eq,
    List.cons_append]

theorem ringEdges_insertIdx (h : i < points.length) (q : Point α) :
    ∃ others, (ringEdges points).Perm ((vertex points (i + 1), vertex points i) :: others) ∧
      (ringEdges (points.insertIdx (i + 1) q)).Perm
        ((vertex points (i + 1), q) :: (q, vertex points i) :: others) := by
  obtain ⟨first, rest, hring⟩ := List.exists_cons_of_length_pos
    (l := points.rotate (i + 1)) (by rw [List.length_rotate]; omega)
  have hfirst : first = vertex points (i + 1) := by
    calc first
      _ = vertex (points.rotate (i + 1)) 0 := by rw [hring, vertex_of_lt (by simp)]; rfl
      _ = vertex points (i + 1) := vertex_rotate points (i + 1) 0
  have hlast : rest.getLastD first = vertex points i := by
    have hlength : i + 1 + rest.length = i + points.length := by
      rw [← points.length_rotate (i + 1), hring, List.length_cons]
      omega
    calc rest.getLastD first
      _ = vertex (points.rotate (i + 1)) rest.length := by rw [hring, vertex_last]
      _ = vertex points i := by rw [vertex_rotate, hlength, vertex_add_length]
  refine ⟨rest.zip (first :: rest), ?_, ?_⟩
  · refine (ringEdges_rotate points (i + 1)).symm.trans (.of_eq ?_)
    rw [hring, ringEdges_cons, hlast, hfirst]
  · refine (ringEdges_rotate _ (i + 1)).symm.trans ?_
    rw [rotate_insertIdx h, hring, ringEdges_cons, List.zip_cons_cons, List.getLastD_cons, hlast,
      ← hfirst]
    exact List.Perm.swap _ _ _

end RegionDrawing.Polyline
