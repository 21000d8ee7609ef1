import RegionDrawing.Json.Fields
import RegionDrawing.Proofs.Json.Number

/-! # Values of finite numbers

No text stands for a number that is not finite. So the values that are read hold none, nor do the
fields of such a value, and what is made of the fields is finite again.
-/
namespace RegionDrawing

variable {α : Type}

/-- Where items are read one by one, each of them is read and each value comes from one. -/
theorem reads_of_mapM {β γ : Type} {read : β → Option γ} {items : List β} {values : List γ}
    (h : items.mapM read = some values) : (∀ item ∈ items, ∃ value, read item = some value) ∧
      ∀ value ∈ values, ∃ item ∈ items, read item = some value := by
  induction items generalizing values with
  | nil =>
    obtain rfl := Option.some.inj h
    exact ⟨nofun, nofun⟩
  | cons item items ih =>
    simp only [List.mapM_cons, Option.bind_eq_bind, Option.bind_eq_some_iff] at h
    obtain ⟨first, hfirst, rest, hrest, hvalues⟩ := h
    obtain rfl := Option.some.inj hvalues
    obtain ⟨hitems, hsources⟩ := ih hrest
    rw [List.forall_mem_cons, List.forall_mem_cons]
    refine ⟨⟨⟨first, hfirst⟩, hitems⟩, ⟨item, List.mem_cons_self, hfirst⟩, fun value hvalue => ?_⟩
    obtain ⟨source, hsource, hread⟩ := hsources value hvalue
    exact ⟨source, List.mem_cons_of_mem _ hsource, hread⟩

namespace Json

/-- The numbers in a value are finite. No text and no shape gives another value. -/
inductive IsFinite [Scalar α] : Json α → Prop
  | null : IsFinite null
  | bool (b : Bool) : IsFinite (bool b)
  | int (i : Int) : IsFinite (int i)
  | real {a : α} (h : Scalar.isFinite a) : IsFinite (real a)
  | str (s : String) : IsFinite (str s)
  | arr {items : List (Json α)} (h : ∀ item ∈ items, IsFinite item) : IsFinite (arr items)
  | obj {members : List (String × Json α)} (h : ∀ member ∈ members, IsFinite member.2) :
    IsFinite (obj members)

theorem isFinite_ofScalar [Scalar α] (a : α) : (ofScalar a).IsFinite := by
  unfold ofScalar
  split
  · next hfinite => exact .real hfinite
  · exact .null

theorem mem_of_mem_putMember {β : Type} {key : String} {value : β} {members : List (String × β)} :
    ∀ member ∈ putMember key value members, member = (key, value) ∨ member ∈ members := by
  induction members with
  | nil => exact fun member hmember => .inl (List.mem_singleton.mp hmember)
  | cons first rest ih =>
    intro member hmember
    unfold putMember at hmember
    split at hmember
    · exact List.mem_cons.mp hmember
    · split at hmember
      · exact (List.mem_cons.mp hmember).imp_right (List.mem_cons_of_mem _)
      · rcases List.mem_cons.mp hmember with rfl | hmember
        · exact .inr List.mem_cons_self
        · exact (ih member hmember).imp_right (List.mem_cons_of_mem _)

theorem mem_of_mem_sortMembers {β : Type} {members : List (String × β)} :
    ∀ member ∈ sortMembers members, member ∈ members := by
  have hfold : ∀ sorted : List (String × β), ∀ member ∈ members.foldl
      (fun sorted member => putMember member.1 member.2 sorted) sorted,
      member ∈ sorted ∨ member ∈ members := by
    induction members with
    | nil => exact fun sorted member hmember => .inl hmember
    | cons first rest ih =>
      intro sorted member hmember
      rcases ih _ member hmember with hmember | hmember
      · rcases mem_of_mem_putMember member hmember with rfl | hmember
        · exact .inr List.mem_cons_self
        · exact .inl hmember
      · exact .inr (List.mem_cons_of_mem _ hmember)
  intro member hmember
  exact (hfold [] member hmember).resolve_left List.not_mem_nil

section
variable [WrittenScalar α] [LawfulReading α]

theorem isFinite_of_ofTree? : ∀ (room : Nat) (tree : Tree) (value : Json α),
    ofTree? room tree = some value → value.IsFinite
  | _, .null, _, h => by
    rw [ofTree?] at h
    obtain rfl := Option.some.inj h
    exact .null
  | _, .bool b, _, h => by
    rw [ofTree?] at h
    obtain rfl := Option.some.inj h
    exact .bool b
  | _, .num n, _, h => by
    rw [ofTree?] at h
    split at h
    · obtain rfl := Option.some.inj h
      exact .int _
    · obtain ⟨a, ha, rfl⟩ := Option.map_eq_some_iff.mp h
      exact .real (LawfulReading.isFinite_of_ofDecimal? _ a ha)
  | _, .str s, _, h => by
    rw [ofTree?] at h
    obtain ⟨s, _, rfl⟩ := Option.map_eq_some_iff.mp h
    exact .str s
  | room + 1, .arr items, _, h => by
    obtain ⟨values, hvalues, rfl⟩ := Option.map_eq_some_iff.mp h
    refine .arr fun value hvalue => ?_
    obtain ⟨item, _, hitem⟩ := (reads_of_mapM hvalues).2 value hvalue
    exact isFinite_of_ofTree? room item value hitem
  | room + 1, .obj members, _, h => by
    obtain ⟨entries, hentries, rfl⟩ := Option.map_eq_some_iff.mp h
    refine .obj fun member hmember => ?_
    obtain ⟨source, _, hsource⟩ :=
      (reads_of_mapM hentries).2 member (mem_of_mem_sortMembers member hmember)
    simp only [Option.bind_eq_bind, Option.bind_eq_some_iff] at hsource
    obtain ⟨key, _, value, hvalue, heq⟩ := hsource
    obtain rfl := Option.some.inj heq
    exact isFinite_of_ofTree? room source.2 value hvalue
  | 0, .arr _, _, h => nomatch h
  | 0, .obj _, _, h => nomatch h

theorem isFinite_of_scalar? (value : Json α) (a : α) (h : value.IsFinite)
    (ha : value.scalar? = some a) : Scalar.isFinite a := by
  cases h with
  | int i => exact LawfulReading.isFinite_of_ofDecimal? _ a ha
  | real hfinite =>
    obtain rfl := Option.some.inj ha
    exact hfinite
  | _ => cases ha

end

theorem mem_of_namedFields? {β : Type} {names : List String} {unknown : Unknown}
    {members : List (String × β)} {fields : List (Option β)}
    (h : namedFields? names unknown members = some fields) {value : β}
    (hvalue : some value ∈ fields) : ∃ member ∈ members, member.2 = value := by
  unfold namedFields? at h
  split at h
  · cases h
  · obtain ⟨name, _, hname⟩ := (reads_of_mapM h).2 _ hvalue
    split at hname
    · cases hname
    · next key found hfound =>
      obtain rfl := Option.some.inj (Option.some.inj hname)
      exact ⟨(key, found), (List.mem_filter.mp (hfound ▸ List.mem_cons_self)).1, rfl⟩
    · cases hname

theorem mem_of_positionalFields? {β : Type} {size : Nat} {items : List β}
    {fields : List (Option β)} (h : positionalFields? size items = some fields) {value : β}
    (hvalue : some value ∈ fields) : value ∈ items := by
  unfold positionalFields? at h
  split at h
  · obtain rfl := Option.some.inj h
    simpa using hvalue
  · cases h

theorem isFinite_of_fields? [Scalar α] {names : List String} {value : Json α}
    {fields : List (Option (Json α))} (h : value.IsFinite)
    (hfields : value.fields? names = some fields) {field : Json α} (hfield : some field ∈ fields) :
    field.IsFinite := by
  cases h with
  | arr hitems => exact hitems field (mem_of_positionalFields? hfields hfield)
  | obj hmembers =>
    obtain ⟨member, hmember, rfl⟩ := mem_of_namedFields? hfields hfield
    exact hmembers member hmember
  | _ => cases hfields

theorem isFinite_of_items? [Scalar α] (value : Json α) (items : List (Json α))
    (h : value.IsFinite) (hitems : value.items? = some items) : ∀ item ∈ items, item.IsFinite := by
  cases h with
  | arr hfinite =>
    obtain rfl := Option.some.inj hitems
    exact hfinite
  | _ => cases hitems

/-- A part of a record is read as something with finite numbers if the record holds no others. -/
theorem of_required [Scalar α] {β : Type} {value : Json α} {names : List String}
    {fields : List (Option (Json α))} {field : Option (Json α)} {read : Json α → Option β} {b : β}
    {finite : β → Prop} (hvalue : value.IsFinite) (hfields : value.fields? names = some fields)
    (hread : ∀ part b, part.IsFinite → read part = some b → finite b)
    (hfield : field ∈ fields) (h : required read field = some b) : finite b := by
  obtain ⟨part, rfl, hb⟩ := Option.bind_eq_some_iff.mp h
  exact hread part b (isFinite_of_fields? hvalue hfields hfield) hb

end Json

end RegionDrawing
