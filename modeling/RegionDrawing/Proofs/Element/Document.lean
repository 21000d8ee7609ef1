import RegionDrawing.Element.Document
import RegionDrawing.Proofs.Element.Id
import RegionDrawing.Proofs.Element.Payload

/-! # Elements in documents

An element with valid geometry comes back from the document that it is written to, with everything
it holds. Only a stroke width that is not finite is lost, since no text stands for it.
-/
namespace RegionDrawing

open Json (required optional)

variable {α : Type} [WrittenScalar α]

theorem ShapeKind.ofTree?_name (kind : ShapeKind) :
    ShapeKind.ofTree? (.str (some kind.name)) = some kind := by cases kind <;> rfl

theorem ElementId.ofTree?_text (id : ElementId) :
    ElementId.ofTree? (.str (some id.text)) = some id := id.parse?_text

omit [WrittenScalar α] in
theorem Json.optional_text (text : Option String) :
    optional Tree.text? (text.map fun s => .str (some s)) = some text := by
  cases text <;> rfl

theorem Json.signed64?_int (time : Timestamp) :
    (Json.int time.toInt : Json α).tree.signed64? = some time := by
  have hlow : Int64.minValue.toInt ≤ time.toInt := Int64.minValue_le_toInt time
  have hhigh : time.toInt ≤ Int64.maxValue.toInt := Int64.toInt_le time
  simp only [tree, Tree.signed64?, Numeral.int?_int, Option.filter_some, hlow, hhigh, decide_true,
    Bool.and_self, ↓reduceIte, Option.map_some, Int64.ofInt_toInt]

def Style.written (style : Style α) : Style α :=
  { style with strokeWidth := style.strokeWidth.filter Scalar.isFinite }

/-- A number that is not finite is written as null, which is read as an absent number. -/
theorem Json.optional_scalar [LawfulWrittenScalar α] (a : α) :
    optional Tree.scalar? (some (Json.ofScalar a).tree) =
      some ((some a).filter Scalar.isFinite) := by
  cases hfinite : Scalar.isFinite a with
  | true =>
    obtain ⟨d, htree, hd⟩ := (LawfulWrittenScalar.readsBack a hfinite).exists_scalarTree
    rw [ofScalar_eq_real hfinite, tree, htree, Option.filter_some, hfinite]
    simp [optional, Tree.scalar?, hd]
  | false =>
    have hnull : Json.ofScalar a = .null := by simp [ofScalar, hfinite]
    rw [hnull, Option.filter_some, hfinite]
    rfl

theorem Style.ofTree?_json [LawfulWrittenScalar α] (style : Style α) :
    Style.ofTree? style.json.tree = some style.written := by
  have hfields : style.json.tree.fields? ["strokeColor", "fillColor", "strokeWidth"] .ignored =
      some [style.strokeColor.map fun s => .str (some s),
        style.fillColor.map fun s => .str (some s),
        style.strokeWidth.map fun a => (Json.ofScalar a).tree] := by
    obtain ⟨stroke, fill, width⟩ := style
    cases stroke <;> cases fill <;> cases width <;> rfl
  have hwidth : optional Json.Tree.scalar?
      (style.strokeWidth.map fun a => (Json.ofScalar a).tree) =
        some (style.strokeWidth.filter Scalar.isFinite) := by
    cases style.strokeWidth with
    | none => rfl
    | some a => exact Json.optional_scalar a
  rw [ofTree?, hfields]
  simp only [Option.bind_eq_bind, Option.bind_some, Json.optional_text, hwidth]
  rfl

/-- An element as it comes back from a document. -/
def Element.written (element : Element α) : Element α :=
  { element with style := element.style.map Style.written }

theorem readable_presentMember {β : Type} {key : String} {write : β → Json α} {value : Option β}
    (h : ∀ v, value = some v → (write v).Readable) :
    ∀ member ∈ presentMember key write value, member.2.Readable := by
  cases value with
  | none => exact nofun
  | some v => simpa [presentMember] using h v rfl

theorem Style.readable_json [LawfulWrittenScalar α] (style : Style α) : style.json.Readable := by
  apply Json.membersReadable_iff.mpr
  rw [List.forall_mem_append, List.forall_mem_append]
  refine ⟨⟨readable_presentMember fun _ _ => trivial,
    readable_presentMember fun _ _ => trivial⟩, ?_⟩
  exact readable_presentMember fun a _ => Json.readable_ofScalar a

theorem Element.readable_json [LawfulWrittenScalar α] {element : Element α}
    (hpayload : element.shape.payload.Readable) : element.json.Readable := by
  apply Json.membersReadable_iff.mpr
  simp only [List.forall_mem_append, List.forall_mem_cons]
  refine ⟨⟨⟨⟨trivial, trivial, trivial, nofun⟩, ?_⟩, ?_⟩, trivial, trivial, hpayload, nofun⟩
  · exact readable_presentMember fun _ _ => trivial
  · exact readable_presentMember fun style _ => style.readable_json

theorem Element.ofTree?_json [LawfulWrittenScalar α] {element : Element α}
    (hshape : ∀ a ∈ element.shape.numbers, Scalar.isFinite a) :
    Element.ofTree? 1 element.json.tree = some element.written := by
  have hfields : element.json.tree.fields?
      ["id", "toolType", "label", "note", "style", "createdAt", "updatedAt", "data"] .ignored =
      some [some (.str (some element.id.text)), some (.str (some element.kind.name)),
        some (.str (some element.label)), element.note.map fun s => .str (some s),
        element.style.map fun style => style.json.tree,
        some (Json.int element.createdAt.toInt : Json α).tree,
        some (Json.int element.updatedAt.toInt : Json α).tree,
        some element.shape.payload.tree] := by
    obtain ⟨id, label, note, style, createdAt, updatedAt, shape⟩ := element
    cases note <;> cases style <;> rfl
  have hoptional : optional (Style.ofTree? : Json.Tree → Option (Style α))
      (element.style.map fun style => style.json.tree) =
        some (element.style.map Style.written) := by
    cases element.style with
    | none => rfl
    | some style =>
      have hread : optional (Style.ofTree? : Json.Tree → Option (Style α)) (some style.json.tree) =
          (Style.ofTree? style.json.tree).map some := rfl
      rw [Option.map_some, hread, style.ofTree?_json]
      rfl
  have hpayload := (Shape.kept_payload hshape 121).ofTree?
  have hrecord : ElementRecord.ofTree? 1 element.json.tree =
      some { element.record with style := element.style.map Style.written } := by
    rw [ElementRecord.ofTree?, hfields]
    simp only [required, Option.bind_eq_bind, Option.bind_some, ElementId.ofTree?_text,
      ShapeKind.ofTree?_name, Json.Tree.text?, Json.optional_text, hoptional, Json.signed64?_int,
      maximalNesting, hpayload]
    rfl
  have helement : ({ element.record with style := element.style.map Style.written } :
      ElementRecord α).element = .ok element.written := by
    have hread : Shape.ofPayload element.kind element.shape.payload = .ok element.shape := by
      rw [Shape.ofPayload, Element.kind, Shape.ofPayload?_payload hshape]
    simp only [ElementRecord.element, Element.record, hread]
    rfl
  rw [ofTree?, hrecord]
  simp only [Option.bind_eq_bind, Option.bind_some, helement]
  rfl

theorem Element.written_eq_self {element : Element α}
    (h : ∀ style width, element.style = some style → style.strokeWidth = some width →
      Scalar.isFinite width) : element.written = element := by
  obtain ⟨id, label, note, style, createdAt, updatedAt, shape⟩ := element
  cases style with
  | none => rfl
  | some style =>
    obtain ⟨stroke, fill, width⟩ := style
    cases width with
    | none => rfl
    | some width =>
      have hfinite := h _ width rfl rfl
      simp [Element.written, Style.written, hfinite]

/-- Elements with valid geometry come back from their document, in order. -/
theorem Element.listOfText?_listText [LawfulWrittenScalar α] {elements : List (Element α)}
    (hvalid : ∀ element ∈ elements, element.shape.isValid) :
    listOfText? (listText elements) = some (elements.map written) := by
  have hfinite : ∀ element ∈ elements, ∀ a ∈ element.shape.numbers, Scalar.isFinite a :=
    fun element hmem => Shape.isFinite_of_mem_numbers (hvalid element hmem)
  have hreadable : (Json.arr (elements.map json)).Readable := by
    apply Json.itemsReadable_iff.mpr
    intro item hitem
    obtain ⟨element, hmem, rfl⟩ := List.mem_map.mp hitem
    exact readable_json (Shape.kept_payload (hfinite element hmem) 0).readable
  have helements : ∀ element ∈ elements,
      Element.ofTree? 1 element.json.tree = some element.written :=
    fun element hmem => ofTree?_json (hfinite element hmem)
  have htree : (Json.arr (elements.map json)).tree =
      .arr (elements.map fun element => element.json.tree) := by
    rw [Json.tree, Json.itemTrees_eq_map, List.map_map]
    rfl
  rw [listOfText?, listText, Json.parse?_text _ hreadable, htree]
  exact mapM_map_eq_some helements

end RegionDrawing
