import RegionDrawing.Json.Fields
import RegionDrawing.Proofs.Json.Value

/-! # Values of trees

The tree of a value has that value again, as long as its scalars are finite. Objects come back with
their members sorted.
-/
namespace RegionDrawing

theorem mapM_map_eq_some {β γ δ : Type} {write : β → γ} {read : γ → Option δ} {value : β → δ}
    {l : List β} (h : ∀ x ∈ l, read (write x) = some (value x)) :
    (l.map write).mapM read = some (l.map value) := by
  induction l with
  | nil => rfl
  | cons x l ih =>
    have hrest := ih fun y hy => h y (List.mem_cons_of_mem _ hy)
    rw [List.map_cons, List.mapM_cons, h x List.mem_cons_self, hrest]
    rfl

namespace Json

variable {α : Type} [WrittenScalar α]

theorem Numeral.int?_int (i : Int) :
    Numeral.int? ⟨⟨decide (i < 0), i.natAbs, 0⟩, true⟩ = some i := by
  unfold Numeral.int?
  by_cases hneg : i < 0
  · have hzero : i.natAbs ≠ 0 := by omega
    have hvalue : -(i.natAbs : Int) = i := by omega
    simp only [hneg, decide_true, hzero, ↓reduceIte, hvalue]
  · have hvalue : (i.natAbs : Int) = i := by omega
    simp only [hneg, decide_false, Bool.false_eq_true, ↓reduceIte, hvalue]

/-- The tree of a scalar that is read back is a number, but none without point and exponent. -/
theorem ReadsBack.exists_scalarTree {a : α} (h : ReadsBack a) :
    ∃ d, scalarTree a = .num ⟨d, false⟩ ∧ WrittenScalar.ofDecimal? d = some a := by
  obtain ⟨d, hread, hd⟩ := h
  exact ⟨d, by rw [scalarTree, hread], hd⟩

theorem ofScalar_eq_real {a : α} (h : Scalar.isFinite a) : Json.ofScalar a = real a := if_pos h

section
variable [LawfulWrittenScalar α]

theorem readable_ofScalar (a : α) : (Json.ofScalar a).Readable := by
  unfold Json.ofScalar
  split
  · next hfinite => exact LawfulWrittenScalar.readsBack a hfinite
  · trivial

theorem ofTree?_ofScalar {a : α} (h : Scalar.isFinite a) (room : Nat) :
    Json.ofTree? room (Json.ofScalar a).tree = some (Json.ofScalar a) := by
  obtain ⟨d, htree, hd⟩ := (LawfulWrittenScalar.readsBack a h).exists_scalarTree
  have hint : Numeral.int64? ⟨d, false⟩ = none := rfl
  rw [ofScalar_eq_real h, tree, htree, Json.ofTree?]
  simp only [hint, hd, Option.map_some]

end

theorem itemsReadable_iff {items : List (Json α)} :
    ItemsReadable items ↔ ∀ item ∈ items, item.Readable := by
  induction items with
  | nil => simp [ItemsReadable]
  | cons item items ih => rw [ItemsReadable, ih, List.forall_mem_cons]

theorem membersReadable_iff {members : List (String × Json α)} :
    MembersReadable members ↔ ∀ member ∈ members, member.2.Readable := by
  induction members with
  | nil => simp [MembersReadable]
  | cons member members ih => rw [MembersReadable, ih, List.forall_mem_cons]

theorem itemTrees_eq_map (items : List (Json α)) : itemTrees items = items.map tree := by
  induction items with
  | nil => rfl
  | cons item items ih => rw [itemTrees, ih, List.map_cons]

theorem memberTrees_eq_map (members : List (String × Json α)) :
    memberTrees members = members.map fun member => (some member.1, member.2.tree) := by
  induction members with
  | nil => rfl
  | cons member members ih => rw [memberTrees, ih, List.map_cons]

theorem ofTree?_arr {room : Nat} {items : List (Json α)}
    (h : ∀ item ∈ items, ofTree? room item.tree = some item) :
    ofTree? (room + 1) (arr items).tree = some (arr items) := by
  rw [tree, itemTrees_eq_map, ofTree?, mapM_map_eq_some h, List.map_id']
  rfl

theorem ofTree?_obj {room : Nat} {members : List (String × Json α)}
    (h : ∀ member ∈ members, ofTree? room member.2.tree = some member.2) :
    ofTree? (room + 1) (obj members).tree = some (obj (sortMembers members)) := by
  have hentries : (members.map fun member => (some member.1, member.2.tree)).mapM
      (fun (member : Option String × Tree) =>
        (do some (← member.1, ← ofTree? room member.2) : Option (String × Json α))) =
      some members := by
    rw [mapM_map_eq_some fun member hmem => by rw [h member hmem]; rfl, List.map_id']
  rw [tree, memberTrees_eq_map, ofTree?, hentries]
  rfl

end Json

end RegionDrawing
