import RegionDrawing.Drawer.Polyline
import RegionDrawing.Proofs.Binary64.Shortest
import RegionDrawing.Proofs.Element.Document
import RegionDrawing.Proofs.Json.Finite

/-! # Payloads and kinds

A payload does not tell its kind, but only the kinds whose fields it holds take it, and these give
the same geometry. A number that is not finite is written as null, which no kind takes for one, so
what is read from a value is finite and is written and read again.
-/
namespace RegionDrawing

variable {α : Type}

section
variable [Scalar α]

theorem Point.isFinite_payload (p : Point α) : p.payload.IsFinite := by
  apply Json.IsFinite.obj
  simp [Json.isFinite_ofScalar]

theorem Rect.isFinite_payload (r : Rect α) : r.payload.IsFinite := by
  apply Json.IsFinite.obj
  simp [Json.isFinite_ofScalar]

theorem Outline.isFinite_payload (outline : Outline α) : outline.payload.IsFinite := by
  apply Json.IsFinite.obj
  rw [List.forall_mem_cons, List.forall_mem_singleton]
  refine ⟨.bool _, .arr fun item hitem => ?_⟩
  obtain ⟨p, _, rfl⟩ := List.mem_map.mp hitem
  exact p.isFinite_payload

theorem PerspectiveBox.isFinite_payload (b : PerspectiveBox α) : b.payload.IsFinite := by
  apply Json.IsFinite.obj
  simp [Json.isFinite_ofScalar, Rect.isFinite_payload, Point.isFinite_payload]

theorem Shape.isFinite_payload (shape : Shape α) : shape.payload.IsFinite := by
  cases shape with
  | rect bounds =>
    apply Json.IsFinite.obj
    simp [Rect.isFinite_payload]
  | polygon outline => exact outline.isFinite_payload
  | path outline => exact outline.isFinite_payload
  | box b => exact b.isFinite_payload

end

section
variable [WrittenScalar α] [LawfulReading α]

theorem Point.isFinite_of_ofPayload? (value : Json α) (p : Point α) (hvalue : value.IsFinite)
    (h : Point.ofPayload? value = some p) : ∀ a ∈ p.numbers, Scalar.isFinite a := by
  simp only [ofPayload?, Option.bind_eq_bind, Option.bind_eq_some_iff] at h
  obtain ⟨fields, hfields, h⟩ := h
  split at h
  · simp only [Option.bind_eq_some_iff] at h
    obtain ⟨_, hx, _, hy, h⟩ := h
    obtain rfl := Option.some.inj h
    have hx := Json.of_required hvalue hfields Json.isFinite_of_scalar? (by simp) hx
    have hy := Json.of_required hvalue hfields Json.isFinite_of_scalar? (by simp) hy
    simpa [numbers] using ⟨hx, hy⟩
  · cases h

theorem Rect.isFinite_of_ofPayload? (value : Json α) (r : Rect α) (hvalue : value.IsFinite)
    (h : Rect.ofPayload? value = some r) : ∀ a ∈ r.numbers, Scalar.isFinite a := by
  simp only [ofPayload?, Option.bind_eq_bind, Option.bind_eq_some_iff] at h
  obtain ⟨fields, hfields, h⟩ := h
  split at h
  · simp only [Option.bind_eq_some_iff] at h
    obtain ⟨_, hx, _, hy, _, hwidth, _, hheight, h⟩ := h
    obtain rfl := Option.some.inj h
    have hx := Json.of_required hvalue hfields Json.isFinite_of_scalar? (by simp) hx
    have hy := Json.of_required hvalue hfields Json.isFinite_of_scalar? (by simp) hy
    have hwidth := Json.of_required hvalue hfields Json.isFinite_of_scalar? (by simp) hwidth
    have hheight := Json.of_required hvalue hfields Json.isFinite_of_scalar? (by simp) hheight
    simpa [numbers] using ⟨hx, hy, hwidth, hheight⟩
  · cases h

theorem Outline.isFinite_of_ofPayload? (value : Json α) (outline : Outline α)
    (hvalue : value.IsFinite) (h : Outline.ofPayload? value = some outline) :
    ∀ a ∈ outline.points.flatMap Point.numbers, Scalar.isFinite a := by
  simp only [ofPayload?, Option.bind_eq_bind, Option.bind_eq_some_iff] at h
  obtain ⟨fields, hfields, h⟩ := h
  split at h
  · simp only [Option.bind_eq_some_iff] at h
    obtain ⟨items, hitems, read, hpoints, _, _, h⟩ := h
    obtain rfl := Option.some.inj h
    have hfinite : ∀ item ∈ items, item.IsFinite :=
      Json.of_required hvalue hfields Json.isFinite_of_items? (by simp) hitems
    intro a ha
    obtain ⟨p, hp, ha⟩ := List.mem_flatMap.mp ha
    obtain ⟨item, hitem, hread⟩ := (reads_of_mapM hpoints).2 p hp
    exact Point.isFinite_of_ofPayload? item p (hfinite item hitem) hread a ha
  · cases h

theorem PerspectiveBox.isFinite_of_ofPayload? (value : Json α) (b : PerspectiveBox α)
    (hvalue : value.IsFinite) (h : PerspectiveBox.ofPayload? value = some b) :
    ∀ a ∈ b.depth :: (b.front.numbers ++ b.vanishing.numbers), Scalar.isFinite a := by
  simp only [ofPayload?, Option.bind_eq_bind, Option.bind_eq_some_iff] at h
  obtain ⟨fields, hfields, h⟩ := h
  split at h
  · simp only [Option.bind_eq_some_iff] at h
    obtain ⟨_, hfront, _, hvanishing, _, hdepth, h⟩ := h
    obtain rfl := Option.some.inj h
    have hfront := Json.of_required hvalue hfields Rect.isFinite_of_ofPayload? (by simp) hfront
    have hvanishing :=
      Json.of_required hvalue hfields Point.isFinite_of_ofPayload? (by simp) hvanishing
    have hdepth := Json.of_required hvalue hfields Json.isFinite_of_scalar? (by simp) hdepth
    rw [List.forall_mem_cons, List.forall_mem_append]
    exact ⟨hdepth, hfront, hvanishing⟩
  · cases h

theorem Shape.isFinite_of_ofPayload? {kind : ShapeKind} {value : Json α} {shape : Shape α}
    (hvalue : value.IsFinite) (h : Shape.ofPayload? kind value = some shape) :
    ∀ a ∈ shape.numbers, Scalar.isFinite a := by
  cases kind with
  | rect =>
    simp only [ofPayload?, Option.bind_eq_bind, Option.bind_eq_some_iff] at h
    obtain ⟨fields, hfields, h⟩ := h
    split at h
    · obtain ⟨bounds, hbounds, h⟩ := Option.bind_eq_some_iff.mp h
      obtain rfl := Option.some.inj h
      exact Json.of_required hvalue hfields Rect.isFinite_of_ofPayload? (by simp) hbounds
    · cases h
  | polygon =>
    obtain ⟨outline, houtline, rfl⟩ := Option.map_eq_some_iff.mp h
    exact Outline.isFinite_of_ofPayload? value outline hvalue houtline
  | path =>
    obtain ⟨outline, houtline, rfl⟩ := Option.map_eq_some_iff.mp h
    exact Outline.isFinite_of_ofPayload? value outline hvalue houtline
  | box =>
    obtain ⟨b, hb, rfl⟩ := Option.map_eq_some_iff.mp h
    exact PerspectiveBox.isFinite_of_ofPayload? value b hvalue hb

end

section
variable [WrittenScalar α]

theorem Json.isFinite_of_scalar?_ofScalar {a b : α} (h : (Json.ofScalar a).scalar? = some b) :
    Scalar.isFinite a := by
  unfold ofScalar at h
  split at h
  · assumption
  · cases h

theorem Point.isFinite_of_payload {p q : Point α} (h : Point.ofPayload? p.payload = some q) :
    ∀ a ∈ p.numbers, Scalar.isFinite a := by
  have hread : ofPayload? p.payload = (Json.ofScalar p.x).scalar?.bind fun x =>
      (Json.ofScalar p.y).scalar?.bind fun y => some ⟨x, y⟩ := rfl
  simp only [hread, Option.bind_eq_some_iff] at h
  obtain ⟨_, hx, _, hy, _⟩ := h
  simpa [numbers] using
    ⟨Json.isFinite_of_scalar?_ofScalar hx, Json.isFinite_of_scalar?_ofScalar hy⟩

theorem Rect.isFinite_of_payload {r s : Rect α} (h : Rect.ofPayload? r.payload = some s) :
    ∀ a ∈ r.numbers, Scalar.isFinite a := by
  have hread : ofPayload? r.payload = (Json.ofScalar r.x).scalar?.bind fun x =>
      (Json.ofScalar r.y).scalar?.bind fun y => (Json.ofScalar r.width).scalar?.bind fun width =>
        (Json.ofScalar r.height).scalar?.bind fun height => some ⟨x, y, width, height⟩ := rfl
  simp only [hread, Option.bind_eq_some_iff] at h
  obtain ⟨_, hx, _, hy, _, hwidth, _, hheight, _⟩ := h
  simpa [numbers] using
    ⟨Json.isFinite_of_scalar?_ofScalar hx, Json.isFinite_of_scalar?_ofScalar hy,
      Json.isFinite_of_scalar?_ofScalar hwidth, Json.isFinite_of_scalar?_ofScalar hheight⟩

theorem Outline.isFinite_of_payload {outline read : Outline α}
    (h : Outline.ofPayload? outline.payload = some read) :
    ∀ a ∈ outline.points.flatMap Point.numbers, Scalar.isFinite a := by
  have hread : ofPayload? outline.payload =
      ((outline.points.map Point.payload).mapM Point.ofPayload?).bind
        fun points => some ⟨points, outline.closed⟩ := rfl
  rw [hread, Option.bind_eq_some_iff] at h
  obtain ⟨points, hpoints, _⟩ := h
  intro a ha
  obtain ⟨p, hp, ha⟩ := List.mem_flatMap.mp ha
  obtain ⟨_, hpoint⟩ := (reads_of_mapM hpoints).1 _ (List.mem_map_of_mem hp)
  exact Point.isFinite_of_payload hpoint a ha

theorem PerspectiveBox.isFinite_of_payload {b read : PerspectiveBox α}
    (h : PerspectiveBox.ofPayload? b.payload = some read) :
    ∀ a ∈ b.depth :: (b.front.numbers ++ b.vanishing.numbers), Scalar.isFinite a := by
  have hread : ofPayload? b.payload =
      (Rect.ofPayload? b.front.payload).bind fun front =>
        (Point.ofPayload? b.vanishing.payload).bind fun vanishing =>
          (Json.scalar? (.ofScalar b.depth)).bind fun depth => some ⟨front, vanishing, depth⟩ := rfl
  simp only [hread, Option.bind_eq_some_iff] at h
  obtain ⟨_, hfront, _, hvanishing, _, hdepth, _⟩ := h
  rw [List.forall_mem_cons, List.forall_mem_append]
  exact ⟨Json.isFinite_of_scalar?_ofScalar hdepth, Rect.isFinite_of_payload hfront,
    Point.isFinite_of_payload hvanishing⟩

/-- A payload is read by its own kind, or as an outline of the other kind. -/
theorem Shape.cases_of_ofPayload? {kind : ShapeKind} {shape read : Shape α}
    (h : Shape.ofPayload? kind shape.payload = some read) :
    (∀ a ∈ shape.numbers, Scalar.isFinite a) ∧ (kind = shape.kind ∨
      (kind = .polygon ∨ kind = .path) ∧ (shape.kind = .polygon ∨ shape.kind = .path)) := by
  cases shape with
  | rect bounds =>
    cases kind with
    | rect =>
      obtain ⟨_, hbounds, _⟩ := Option.bind_eq_some_iff.mp h
      exact ⟨Rect.isFinite_of_payload hbounds, .inl rfl⟩
    | polygon | path | box => cases h
  | polygon outline | path outline =>
    cases kind with
    | polygon | path =>
      obtain ⟨_, houtline, _⟩ := Option.map_eq_some_iff.mp h
      exact ⟨Outline.isFinite_of_payload houtline, .inr (by simp [Shape.kind])⟩
    | rect | box => cases h
  | box b =>
    cases kind with
    | box =>
      obtain ⟨_, hb, _⟩ := Option.map_eq_some_iff.mp h
      exact ⟨PerspectiveBox.isFinite_of_payload hb, .inl rfl⟩
    | rect | polygon | path => cases h

theorem Shape.exists_ofPayload? {kind : ShapeKind} {shape : Shape α}
    (hfinite : ∀ a ∈ shape.numbers, Scalar.isFinite a) (hkind : kind = shape.kind ∨
      (kind = .polygon ∨ kind = .path) ∧ (shape.kind = .polygon ∨ shape.kind = .path)) :
    ∃ read, Shape.ofPayload? kind shape.payload = some read ∧ read.kind = kind ∧
      read.payload = shape.payload ∧ read.outline? = shape.outline? ∧
      (kind = shape.kind → read = shape) := by
  rcases hkind with rfl | ⟨rfl | rfl, hshape⟩
  · exact ⟨shape, ofPayload?_payload hfinite, rfl, rfl, rfl, fun _ => rfl⟩
  · cases shape with
    | rect bounds | box b => simp [kind] at hshape
    | polygon outline | path outline =>
      have hfinite : ∀ a ∈ (Shape.polygon outline).numbers, Scalar.isFinite a := hfinite
      exact ⟨.polygon outline, ofPayload?_payload hfinite, rfl, rfl, rfl, by simp [kind]⟩
  · cases shape with
    | rect bounds | box b => simp [kind] at hshape
    | polygon outline | path outline =>
      have hfinite : ∀ a ∈ (Shape.path outline).numbers, Scalar.isFinite a := hfinite
      exact ⟨.path outline, ofPayload?_payload hfinite, rfl, rfl, rfl, by simp [kind]⟩

theorem Shape.ofPayload_eq_ok_iff {kind : ShapeKind} {value : Json α} {shape : Shape α} :
    Shape.ofPayload kind value = .ok shape ↔ Shape.ofPayload? kind value = some shape := by
  unfold ofPayload
  cases Shape.ofPayload? kind value <;> simp

theorem Shape.ofPayload_cases (kind : ShapeKind) (value : Json α) :
    (∃ shape, Shape.ofPayload kind value = .ok shape) ∨
      Shape.ofPayload kind value = .error (.wrongPayload kind) := by
  unfold ofPayload
  cases Shape.ofPayload? kind value with
  | none => exact .inr rfl
  | some shape => exact .inl ⟨shape, rfl⟩

theorem Shape.kind_of_ofPayload? {kind : ShapeKind} {value : Json α} {shape : Shape α}
    (h : Shape.ofPayload? kind value = some shape) : shape.kind = kind := by
  cases kind with
  | rect =>
    simp only [ofPayload?, Option.bind_eq_bind, Option.bind_eq_some_iff] at h
    obtain ⟨_, _, h⟩ := h
    split at h
    · obtain ⟨_, _, h⟩ := Option.bind_eq_some_iff.mp h
      obtain rfl := Option.some.inj h
      rfl
    · cases h
  | polygon | path | box =>
    obtain ⟨_, _, rfl⟩ := Option.map_eq_some_iff.mp h
    rfl

theorem ElementRecord.element_eq_ok_iff {record : ElementRecord α} {element : Element α} :
    record.element = .ok element ↔ ∃ shape,
      Shape.ofPayload record.kind record.payload = .ok shape ∧
      element = ⟨record.id, record.label, record.note, record.style, record.createdAt,
        record.updatedAt, shape⟩ := by
  unfold ElementRecord.element
  cases Shape.ofPayload record.kind record.payload with
  | error fault => simp [bind, Except.bind]
  | ok shape => simp [bind, Except.bind, pure, Except.pure, eq_comm]

theorem DraftRecord.draft_eq_ok_iff {record : DraftRecord α} {draft : Draft α} :
    record.draft = .ok draft ↔ ∃ shape,
      Shape.ofPayload record.kind record.payload = .ok shape ∧
      draft = ⟨shape, record.label, record.style⟩ := by
  unfold DraftRecord.draft
  cases Shape.ofPayload record.kind record.payload with
  | error fault => simp [bind, Except.bind]
  | ok shape => simp [bind, Except.bind, pure, Except.pure, eq_comm]

theorem toOption_eq_some_iff {ε β : Type} {result : Except ε β} {b : β} :
    result.toOption = some b ↔ result = .ok b := by
  cases result <;> simp [Except.toOption]

/-- A payload is taken exactly by its own kind, or by both kinds of outlines if it is of one, and
only if it has no number that is not finite; it gives the same geometry. What a kind reads from any
value is a shape of that kind that comes back from its payload, and records give elements and drafts
exactly if their kinds take their payloads. -/
theorem Shape.payload_read_by_kind [LawfulReading α] :
    (∀ (kind : ShapeKind) (shape : Shape α),
      ((∃ read, Shape.ofPayload kind shape.payload = .ok read) ↔
        (∀ a ∈ shape.numbers, Scalar.isFinite a) ∧ (kind = shape.kind ∨
          (kind = .polygon ∨ kind = .path) ∧ (shape.kind = .polygon ∨ shape.kind = .path))) ∧
      (∀ read, Shape.ofPayload kind shape.payload = .ok read →
        read.kind = kind ∧ read.payload = shape.payload ∧ read.outline? = shape.outline? ∧
          (kind = shape.kind → read = shape)) ∧
      ((¬ ∃ read, Shape.ofPayload kind shape.payload = .ok read) →
        Shape.ofPayload kind shape.payload = .error (.wrongPayload kind))) ∧
    (∀ (kind : ShapeKind) (value : Json α) (shape : Shape α), value.IsFinite →
      Shape.ofPayload kind value = .ok shape →
        shape.kind = kind ∧ Shape.ofPayload kind shape.payload = .ok shape) ∧
    (∀ (room : Nat) (tree : Json.Tree) (value : Json α),
      Json.ofTree? room tree = some value → value.IsFinite) ∧
    (∀ shape : Shape α, shape.payload.IsFinite) ∧
    (∀ record : ElementRecord α, (∃ element, record.element = .ok element) ↔
      ∃ shape, Shape.ofPayload record.kind record.payload = .ok shape) ∧
    (∀ record : DraftRecord α, (∃ draft, record.draft = .ok draft) ↔
      ∃ shape, Shape.ofPayload record.kind record.payload = .ok shape) ∧
    (∀ (depth : Nat) (tree : Json.Tree) (record : ElementRecord α),
      ElementRecord.ofTree? depth tree = some record →
        ∀ element, Element.ofTree? depth tree = some element ↔ ∃ shape,
          Shape.ofPayload record.kind record.payload = .ok shape ∧
          element = ⟨record.id, record.label, record.note, record.style, record.createdAt,
            record.updatedAt, shape⟩) ∧
    ∀ (depth : Nat) (tree : Json.Tree) (record : DraftRecord α),
      DraftRecord.ofTree? depth tree = some record →
        ∀ draft, Draft.ofTree? depth tree = some draft ↔ ∃ shape,
          Shape.ofPayload record.kind record.payload = .ok shape ∧
          draft = ⟨shape, record.label, record.style⟩ := by
  refine ⟨fun kind shape => ⟨?_, fun read hread => ?_, fun hnone => ?_⟩,
    fun kind value shape hvalue hshape => ?_, Json.isFinite_of_ofTree?, Shape.isFinite_payload,
    fun record => ?_, fun record => ?_, fun depth tree record hrecord element => ?_,
    fun depth tree record hrecord draft => ?_⟩
  · simp only [ofPayload_eq_ok_iff]
    constructor
    · rintro ⟨read, hread⟩
      exact cases_of_ofPayload? hread
    · rintro ⟨hfinite, hkind⟩
      obtain ⟨read, hread, _⟩ := exists_ofPayload? hfinite hkind
      exact ⟨read, hread⟩
  · rw [ofPayload_eq_ok_iff] at hread
    obtain ⟨hfinite, hkind⟩ := cases_of_ofPayload? hread
    obtain ⟨other, hother, hsame⟩ := exists_ofPayload? hfinite hkind
    obtain rfl : other = read := Option.some.inj (hother.symm.trans hread)
    exact hsame
  · exact (ofPayload_cases kind shape.payload).resolve_left hnone
  · rw [ofPayload_eq_ok_iff] at hshape ⊢
    obtain rfl := kind_of_ofPayload? hshape
    exact ⟨rfl, ofPayload?_payload (isFinite_of_ofPayload? hvalue hshape)⟩
  · simp only [ElementRecord.element_eq_ok_iff]
    exact ⟨fun ⟨_, shape, hshape, _⟩ => ⟨shape, hshape⟩,
      fun ⟨shape, hshape⟩ => ⟨_, shape, hshape, rfl⟩⟩
  · simp only [DraftRecord.draft_eq_ok_iff]
    exact ⟨fun ⟨_, shape, hshape, _⟩ => ⟨shape, hshape⟩,
      fun ⟨shape, hshape⟩ => ⟨_, shape, hshape, rfl⟩⟩
  · rw [Element.ofTree?, hrecord, ← ElementRecord.element_eq_ok_iff]
    exact toOption_eq_some_iff
  · rw [Draft.ofTree?, hrecord, ← DraftRecord.draft_eq_ok_iff]
    exact toOption_eq_some_iff

end

def edgeTo (x : Float) : Shape Float := .polygon ⟨[⟨0.25, 0.5⟩, ⟨x, 0.5⟩], false⟩

/-- The payload of an edge is a path as well but no box, and that of an infinite edge not even a
polygon. -/
theorem edge_read_as_path :
    (∃ read, Shape.ofPayload .path (edgeTo 0.75).payload = .ok read ∧ read.kind = .path ∧
      read.outline? = (edgeTo 0.75).outline?) ∧
    Shape.ofPayload .box (edgeTo 0.75).payload = .error (.wrongPayload .box) ∧
    Shape.ofPayload .polygon (edgeTo (1 / 0)).payload = .error (.wrongPayload .polygon) := by
  obtain ⟨hpayloads, _⟩ := Shape.payload_read_by_kind (α := Float)
  have hfinite : ∀ a ∈ (edgeTo 0.75).numbers, Scalar.isFinite a := by decide +kernel
  have hinfinite : ¬ ∀ a ∈ (edgeTo (1 / 0)).numbers, Scalar.isFinite a := by decide +kernel
  refine ⟨?_, (hpayloads _ _).2.2 fun h => ?_, (hpayloads _ _).2.2 fun h => ?_⟩
  · obtain ⟨hread, hsame, _⟩ := hpayloads .path (edgeTo 0.75)
    obtain ⟨read, hread⟩ := hread.mpr ⟨hfinite, .inr ⟨.inr rfl, .inl rfl⟩⟩
    obtain ⟨hkind, _, houtline, _⟩ := hsame read hread
    exact ⟨read, hread, hkind, houtline⟩
  · have hkind := ((hpayloads _ _).1.mp h).2
    revert hkind
    decide
  · exact hinfinite ((hpayloads _ _).1.mp h).1

end RegionDrawing
