import RegionDrawing.Element.Payload
import RegionDrawing.Proofs.Json.Tree
import RegionDrawing.Proofs.Scalar.Order

/-! # Payloads in documents

A payload comes back from its tree, and the shape from its payload, when the numbers of the shape
are finite. Those of a valid shape are.
-/
namespace RegionDrawing

variable {α : Type}

def Point.numbers (p : Point α) : List α := [p.x, p.y]

def Rect.numbers (r : Rect α) : List α := [r.x, r.y, r.width, r.height]

/-- All coordinates and extents of a shape, and the depth of a box. -/
def Shape.numbers : Shape α → List α
  | .rect bounds => bounds.numbers
  | .polygon outline => outline.points.flatMap Point.numbers
  | .path outline => outline.points.flatMap Point.numbers
  | .box b => b.depth :: (b.front.numbers ++ b.vanishing.numbers)

section
variable [Scalar α]

theorem Point.isFinite_of_mem_numbers {p : Point α} (h : p.isFinite) :
    ∀ a ∈ p.numbers, Scalar.isFinite a := by
  simp only [isFinite, Bool.and_eq_true] at h
  intro a ha
  simp only [numbers, List.mem_cons, List.not_mem_nil, or_false] at ha
  rcases ha with rfl | rfl
  · exact h.1
  · exact h.2

theorem Rect.isFinite_of_mem_numbers {r : Rect α} (h : r.isProper) :
    ∀ a ∈ r.numbers, Scalar.isFinite a := by
  simp only [isProper, Bool.and_eq_true] at h
  obtain ⟨⟨⟨⟨⟨hx, hy⟩, hwidth⟩, hheight⟩, _⟩, _⟩ := h
  intro a ha
  simp only [numbers, List.mem_cons, List.not_mem_nil, or_false] at ha
  rcases ha with rfl | rfl | rfl | rfl
  · exact hx
  · exact hy
  · exact hwidth
  · exact hheight

theorem Shape.isFinite_of_mem_numbers [LawfulScalar α] {shape : Shape α} (h : shape.isValid) :
    ∀ a ∈ shape.numbers, Scalar.isFinite a := by
  have hlist : ∀ outline : Outline α,
      (2 ≤ outline.points.length && outline.points.all Point.isFinite) →
      ∀ a ∈ outline.points.flatMap Point.numbers, Scalar.isFinite a := by
    intro outline hvalid a ha
    simp only [Bool.and_eq_true, List.all_eq_true] at hvalid
    obtain ⟨p, hp, ha⟩ := List.mem_flatMap.mp ha
    exact Point.isFinite_of_mem_numbers (hvalid.2 p hp) a ha
  cases shape with
  | rect bounds => exact Rect.isFinite_of_mem_numbers h
  | polygon outline => exact hlist outline h
  | path outline => exact hlist outline h
  | box b =>
    simp only [isValid, PerspectiveBox.isProper, Bool.and_eq_true] at h
    obtain ⟨⟨hfront, hdepth⟩, hvanishing⟩ := h
    intro a ha
    rcases List.mem_cons.mp ha with rfl | ha
    · exact Scalar.isFinite_of_inUnit hdepth
    · rcases List.mem_append.mp ha with ha | ha
      · exact Rect.isFinite_of_mem_numbers hfront a ha
      · exact Point.isFinite_of_mem_numbers hvanishing a ha

end

variable [WrittenScalar α]

/-- What a document keeps of a value: its text can be read and gives the same value. -/
structure Json.Kept (value : Json α) (room : Nat) : Prop where
  readable : value.Readable
  ofTree? : Json.ofTree? room value.tree = some value

theorem Json.kept_ofScalar [LawfulWrittenScalar α] {a : α} (h : Scalar.isFinite a) (room : Nat) :
    (Json.ofScalar a).Kept room := ⟨readable_ofScalar a, ofTree?_ofScalar h room⟩

theorem Json.kept_bool (b : Bool) (room : Nat) : (Json.bool b : Json α).Kept room := by
  refine ⟨trivial, ?_⟩
  cases room <;> rfl

theorem Json.kept_arr {items : List (Json α)} {room : Nat} (h : ∀ item ∈ items, item.Kept room) :
    (Json.arr items).Kept (room + 1) where
  readable := itemsReadable_iff.mpr fun item hmem => (h item hmem).readable
  ofTree? := ofTree?_arr fun item hmem => (h item hmem).ofTree?

theorem Json.kept_obj {members : List (String × Json α)} {room : Nat}
    (h : ∀ member ∈ members, member.2.Kept room) (hsorted : sortMembers members = members) :
    (Json.obj members).Kept (room + 1) where
  readable := membersReadable_iff.mpr fun member hmem => (h member hmem).readable
  ofTree? := by rw [ofTree?_obj fun member hmem => (h member hmem).ofTree?, hsorted]

theorem Point.kept_payload [LawfulWrittenScalar α] {p : Point α}
    (h : ∀ a ∈ p.numbers, Scalar.isFinite a) (room : Nat) : p.payload.Kept (room + 1) := by
  refine Json.kept_obj ?_ rfl
  have hx : Scalar.isFinite p.x := h _ (by simp [numbers])
  have hy : Scalar.isFinite p.y := h _ (by simp [numbers])
  simp [Json.kept_ofScalar hx, Json.kept_ofScalar hy]

theorem Point.ofPayload?_payload {p : Point α} (h : ∀ a ∈ p.numbers, Scalar.isFinite a) :
    ofPayload? p.payload = some p := by
  have hx : Scalar.isFinite p.x := h _ (by simp [numbers])
  have hy : Scalar.isFinite p.y := h _ (by simp [numbers])
  rw [payload, Json.ofScalar_eq_real hx, Json.ofScalar_eq_real hy]
  rfl

theorem Rect.kept_payload [LawfulWrittenScalar α] {r : Rect α}
    (h : ∀ a ∈ r.numbers, Scalar.isFinite a) (room : Nat) : r.payload.Kept (room + 1) := by
  refine Json.kept_obj ?_ rfl
  simp only [numbers, List.forall_mem_cons] at h
  obtain ⟨hx, hy, hwidth, hheight, _⟩ := h
  simp [Json.kept_ofScalar hx, Json.kept_ofScalar hy, Json.kept_ofScalar hwidth,
    Json.kept_ofScalar hheight]

theorem Rect.ofPayload?_payload {r : Rect α} (h : ∀ a ∈ r.numbers, Scalar.isFinite a) :
    ofPayload? r.payload = some r := by
  simp only [numbers, List.forall_mem_cons] at h
  obtain ⟨hx, hy, hwidth, hheight, _⟩ := h
  rw [payload, Json.ofScalar_eq_real hx, Json.ofScalar_eq_real hy, Json.ofScalar_eq_real hwidth,
    Json.ofScalar_eq_real hheight]
  rfl

theorem Outline.kept_payload [LawfulWrittenScalar α] {outline : Outline α}
    (h : ∀ a ∈ outline.points.flatMap Point.numbers, Scalar.isFinite a) (room : Nat) :
    outline.payload.Kept (room + 3) := by
  refine Json.kept_obj ?_ rfl
  have hpoints : (Json.arr (outline.points.map Point.payload)).Kept (room + 2) := by
    apply Json.kept_arr
    intro item hmem
    obtain ⟨p, hp, rfl⟩ := List.mem_map.mp hmem
    exact Point.kept_payload (fun a ha => h a (List.mem_flatMap.mpr ⟨p, hp, ha⟩)) room
  simp [hpoints, Json.kept_bool]

theorem Outline.ofPayload?_payload {outline : Outline α}
    (h : ∀ a ∈ outline.points.flatMap Point.numbers, Scalar.isFinite a) :
    ofPayload? outline.payload = some outline := by
  have hpoint : ∀ p ∈ outline.points, Point.ofPayload? p.payload = some p :=
    fun p hp => Point.ofPayload?_payload fun a ha => h a (List.mem_flatMap.mpr ⟨p, hp, ha⟩)
  have hpoints : (outline.points.map Point.payload).mapM Point.ofPayload? =
      some outline.points := by rw [mapM_map_eq_some hpoint, List.map_id']
  have hread : ofPayload? outline.payload =
      ((outline.points.map Point.payload).mapM Point.ofPayload?).bind
        fun points => some ⟨points, outline.closed⟩ := rfl
  rw [hread, hpoints]
  rfl

theorem PerspectiveBox.kept_payload [LawfulWrittenScalar α] {b : PerspectiveBox α}
    (h : ∀ a ∈ b.depth :: (b.front.numbers ++ b.vanishing.numbers), Scalar.isFinite a)
    (room : Nat) : b.payload.Kept (room + 2) := by
  rw [List.forall_mem_cons, List.forall_mem_append] at h
  obtain ⟨hdepth, hfront, hvanishing⟩ := h
  refine Json.kept_obj ?_ rfl
  simp [Json.kept_ofScalar hdepth, Rect.kept_payload hfront, Point.kept_payload hvanishing]

theorem PerspectiveBox.ofPayload?_payload {b : PerspectiveBox α}
    (h : ∀ a ∈ b.depth :: (b.front.numbers ++ b.vanishing.numbers), Scalar.isFinite a) :
    ofPayload? b.payload = some b := by
  rw [List.forall_mem_cons, List.forall_mem_append] at h
  obtain ⟨hdepth, hfront, hvanishing⟩ := h
  have hread : ofPayload? b.payload =
      (Rect.ofPayload? b.front.payload).bind fun front =>
        (Point.ofPayload? b.vanishing.payload).bind fun vanishing =>
          (Json.scalar? (.ofScalar b.depth)).bind fun depth => some ⟨front, vanishing, depth⟩ := rfl
  rw [hread, Rect.ofPayload?_payload hfront, Point.ofPayload?_payload hvanishing,
    Json.ofScalar_eq_real hdepth]
  rfl

/-- A payload is kept within four lists and objects. -/
theorem Shape.kept_payload [LawfulWrittenScalar α] {shape : Shape α}
    (h : ∀ a ∈ shape.numbers, Scalar.isFinite a) (room : Nat) : shape.payload.Kept (room + 4) := by
  cases shape with
  | rect bounds => exact Json.kept_obj (by simp [Rect.kept_payload h]) rfl
  | polygon outline => exact Outline.kept_payload h (room + 1)
  | path outline => exact Outline.kept_payload h (room + 1)
  | box b => exact PerspectiveBox.kept_payload h (room + 2)

theorem Shape.ofPayload?_payload {shape : Shape α} (h : ∀ a ∈ shape.numbers, Scalar.isFinite a) :
    ofPayload? shape.kind shape.payload = some shape := by
  cases shape with
  | rect bounds =>
    have hread : ofPayload? .rect (rect bounds).payload =
        (Rect.ofPayload? bounds.payload).bind fun bounds => some (.rect bounds) := rfl
    rw [kind, hread, Rect.ofPayload?_payload h]
    rfl
  | polygon outline => rw [kind, ofPayload?, payload, Outline.ofPayload?_payload h]; rfl
  | path outline => rw [kind, ofPayload?, payload, Outline.ofPayload?_payload h]; rfl
  | box b => rw [kind, ofPayload?, payload, PerspectiveBox.ofPayload?_payload h]; rfl

end RegionDrawing
