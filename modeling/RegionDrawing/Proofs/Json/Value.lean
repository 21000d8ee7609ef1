import RegionDrawing.Proofs.Json.Number
import RegionDrawing.Proofs.Json.Text

/-! # JSON values in texts

`Json.tree` says what the text of a value is read as: the value itself, with its scalars as they
are spelled. A text is read to the end of its first value, whatever follows, and the steps that
the reader allows itself are enough for every text that is written.
-/
namespace RegionDrawing.Json

variable {α : Type} [WrittenScalar α]

def scalarTree (a : α) : Tree :=
  match Reader.numeral? (scalarChars a) with
  | some (n, _) => .num n
  | none => .null

mutual

def tree : Json α → Tree
  | null => .null
  | bool b => .bool b
  | int i => .num ⟨⟨decide (i < 0), i.natAbs, 0⟩, true⟩
  | real a => scalarTree a
  | str s => .str (some s)
  | arr items => .arr (itemTrees items)
  | obj members => .obj (memberTrees members)

def itemTrees : List (Json α) → List Tree
  | [] => []
  | item :: rest => tree item :: itemTrees rest

def memberTrees : List (String × Json α) → List (Option String × Tree)
  | [] => []
  | (key, value) :: rest => (some key, tree value) :: memberTrees rest

end

mutual

/-- Whether all scalars in a value are read from their texts again. -/
def Readable : Json α → Prop
  | real a => ReadsBack a
  | arr items => ItemsReadable items
  | obj members => MembersReadable members
  | _ => True

def ItemsReadable : List (Json α) → Prop
  | [] => True
  | item :: rest => Readable item ∧ ItemsReadable rest

def MembersReadable : List (String × Json α) → Prop
  | [] => True
  | (_, value) :: rest => Readable value ∧ MembersReadable rest

end

/-- Whether a text begins with neither a blank nor a bracket that closes. -/
def Opens (s : List Char) : Prop :=
  ∃ c t, s = c :: t ∧ Reader.isBlank c = false ∧ c ≠ ']' ∧ c ≠ '}'

theorem Opens.skipBlanks {s : List Char} (h : Opens s) (rest : List Char) :
    Reader.skipBlanks (s ++ rest) = s ++ rest := by
  obtain ⟨c, t, rfl, hc, _⟩ := h
  simp [Reader.skipBlanks, hc]

theorem Opens.length_pos {s : List Char} (h : Opens s) : 0 < s.length := by
  obtain ⟨c, t, rfl, _⟩ := h
  exact Nat.succ_pos _

theorem Opens.append {s : List Char} (h : Opens s) (t : List Char) : Opens (s ++ t) := by
  obtain ⟨c, r, rfl, hc⟩ := h
  exact ⟨c, r ++ t, rfl, hc⟩

theorem opens_of_numeral? {s tail : List Char} {n : Numeral}
    (h : Reader.numeral? s = some (n, tail)) : Opens s := by
  obtain ⟨c, t, rfl, hc⟩ := Reader.head_of_numeral? h
  rcases hc with rfl | hc
  · exact ⟨_, _, rfl, rfl, by decide, by decide⟩
  · have hne : ∀ d : Char, d.isDigit = false → c ≠ d := by
      intro d hd he
      rw [he, hd] at hc
      cases hc
    have hblank : Reader.isBlank c = false := by
      simp [Reader.isBlank, hne ' ' rfl, hne '\n' rfl, hne '\t' rfl, hne '\r' rfl]
    exact ⟨c, t, rfl, hblank, hne ']' rfl, hne '}' rfl⟩

theorem opens_chars (value : Json α) (h : value.Readable) : Opens value.chars := by
  cases value with
  | null => exact ⟨_, _, rfl, rfl, by decide, by decide⟩
  | bool b => cases b <;> exact ⟨_, _, rfl, rfl, by decide, by decide⟩
  | int i =>
    have hread := Reader.numeral?_int i follows_nil
    rw [List.append_nil] at hread
    exact opens_of_numeral? hread
  | real a =>
    obtain ⟨d, hread, _⟩ := h
    exact opens_of_numeral? hread
  | str s => exact ⟨_, _, rfl, rfl, by decide, by decide⟩
  | arr items => exact ⟨_, _, rfl, rfl, by decide, by decide⟩
  | obj members => exact ⟨_, _, rfl, rfl, by decide, by decide⟩

theorem opens_itemsChars (item : Json α) (items : List (Json α)) (h : item.Readable) :
    Opens (itemsChars (item :: items)) := by
  cases items with
  | nil => exact opens_chars item h
  | cons next items => exact (opens_chars item h).append _

theorem opens_membersChars (key : String) (value : Json α) (members : List (String × Json α)) :
    Opens (membersChars ((key, value) :: members)) := by
  cases members <;> exact ⟨_, _, rfl, rfl, by decide, by decide⟩

namespace Reader

theorem value?_of_numeral? {s tail : List Char} {n : Numeral} (h : numeral? s = some (n, tail))
    (fuel : Nat) : value? (fuel + 1) s = some (.num n, tail) := by
  obtain ⟨c, t, rfl, hc⟩ := head_of_numeral? h
  have hblanks : skipBlanks (c :: t) = c :: t := by
    have hopens := (opens_of_numeral? h).skipBlanks []
    rwa [List.append_nil] at hopens
  unfold value?
  rw [hblanks]
  split
  case h_7 => rw [h]; rfl
  all_goals
    next heq =>
      cases heq
      rcases hc with hc | hc <;> cases hc

theorem value?_quote (s : String) (fuel : Nat) (rest : List Char) :
    value? (fuel + 1) (quote s ++ rest) = some (.str (some s), rest) := by
  have hread : value? (fuel + 1) (quote s ++ rest) =
      (string? (s.toList.flatMap escapeChar ++ ['"'] ++ rest)).map
        fun read => (.str read.1, read.2) := rfl
  rw [hread, List.append_assoc, List.singleton_append, string?_quoted]
  rfl

theorem value?_bracket (fuel : Nat) (s : List Char) :
    value? (fuel + 1) ('[' :: s) =
      match skipBlanks s with
      | ']' :: rest => some (.arr [], rest)
      | rest => (items? fuel rest).map fun (items, rest) => (.arr items, rest) := rfl

theorem value?_brace (fuel : Nat) (s : List Char) :
    value? (fuel + 1) ('{' :: s) =
      match skipBlanks s with
      | '}' :: rest => some (.obj [], rest)
      | rest => (members? fuel rest).map fun (members, rest) => (.obj members, rest) := rfl

theorem value?_arr {s : List Char} (h : Opens s) (fuel : Nat) (rest : List Char) :
    value? (fuel + 1) ('[' :: (s ++ rest)) =
      (items? fuel (s ++ rest)).map fun (items, rest) => (.arr items, rest) := by
  rw [value?_bracket, h.skipBlanks rest]
  obtain ⟨c, t, rfl, _, hc, _⟩ := h
  split
  · next heq => exact absurd (List.cons.inj heq).1 hc
  · rfl

theorem value?_obj {s : List Char} (h : Opens s) (fuel : Nat) (rest : List Char) :
    value? (fuel + 1) ('{' :: (s ++ rest)) =
      (members? fuel (s ++ rest)).map fun (members, rest) => (.obj members, rest) := by
  rw [value?_brace, h.skipBlanks rest]
  obtain ⟨c, t, rfl, _, _, hc⟩ := h
  split
  · next heq => exact absurd (List.cons.inj heq).1 hc
  · rfl

theorem items?_last {fuel : Nat} {s rest : List Char} {item : Tree}
    (h : value? fuel s = some (item, ']' :: rest)) :
    items? (fuel + 1) s = some ([item], rest) := by
  simp only [items?, h, Option.bind_eq_bind, Option.bind_some]
  rfl

theorem items?_more {fuel : Nat} {s t rest : List Char} {item : Tree} {items : List Tree}
    (hitem : value? fuel s = some (item, ',' :: t)) (hitems : items? fuel t = some (items, rest)) :
    items? (fuel + 1) s = some (item :: items, rest) := by
  have hstep : items? (fuel + 1) s =
      (items? fuel t).map fun (items, rest) => (item :: items, rest) := by
    simp only [items?, hitem, Option.bind_eq_bind, Option.bind_some]
    rfl
  rw [hstep, hitems]
  rfl

theorem members?_key (key : String) (fuel : Nat) (s : List Char) :
    members? (fuel + 1) (quote key ++ ':' :: s) =
      (value? fuel s).bind fun (value, s) =>
        match skipBlanks s with
        | ',' :: rest =>
          (members? fuel rest).map fun (members, rest) => ((some key, value) :: members, rest)
        | '}' :: rest => some ([(some key, value)], rest)
        | _ => none := by
  have hblanks : skipBlanks (quote key ++ ':' :: s) =
      '"' :: (key.toList.flatMap escapeChar ++ '"' :: ':' :: s) := by
    have hquote : quote key ++ ':' :: s =
        '"' :: (key.toList.flatMap escapeChar ++ '"' :: ':' :: s) := by simp [quote]
    rw [hquote]
    rfl
  rw [members?, hblanks]
  simp only [string?_quoted]
  rfl

theorem members?_last {fuel : Nat} {s rest : List Char} {value : Tree} (key : String)
    (h : value? fuel s = some (value, '}' :: rest)) :
    members? (fuel + 1) (quote key ++ ':' :: s) = some ([(some key, value)], rest) := by
  rw [members?_key, h]
  rfl

theorem members?_more {fuel : Nat} {s t rest : List Char} {value : Tree} (key : String)
    {members : List (Option String × Tree)} (hvalue : value? fuel s = some (value, ',' :: t))
    (hmembers : members? fuel t = some (members, rest)) :
    members? (fuel + 1) (quote key ++ ':' :: s) = some ((some key, value) :: members, rest) := by
  have hstep : members? (fuel + 1) (quote key ++ ':' :: s) =
      (members? fuel t).map fun (members, rest) => ((some key, value) :: members, rest) := by
    rw [members?_key, hvalue]
    rfl
  rw [hstep, hmembers]
  rfl

mutual

/-- The text of a value is read as the tree of the value, whatever follows. A list spends one unit of
fuel on its bracket and one on each item, so two units for a character always suffice. -/
theorem value?_chars : ∀ (value : Json α) (fuel : Nat) (rest : List Char),
    value.Readable → 2 * value.chars.length ≤ fuel → Follows rest →
    value? fuel (value.chars ++ rest) = some (value.tree, rest)
  | value, 0, rest, h, hfuel, _ => by
    have hpos := (opens_chars value h).length_pos
    omega
  | null, fuel + 1, rest, _, _, _ => rfl
  | bool true, fuel + 1, rest, _, _, _ => rfl
  | bool false, fuel + 1, rest, _, _, _ => rfl
  | int i, fuel + 1, rest, _, _, hrest => value?_of_numeral? (numeral?_int i hrest) fuel
  | real a, fuel + 1, rest, h, _, hrest => by
    obtain ⟨d, hread, _⟩ := h
    rw [tree, scalarTree, hread]
    exact value?_of_numeral? (numeral?_append hread hrest) fuel
  | str s, fuel + 1, rest, _, _, _ => value?_quote s fuel rest
  | arr [], fuel + 1, rest, _, _, _ => rfl
  | arr (item :: items), fuel + 1, rest, h, hfuel, _ => by
    have htext : (arr (item :: items)).chars ++ rest =
        '[' :: (itemsChars (item :: items) ++ ']' :: rest) := by simp [chars]
    rw [htext, value?_arr (opens_itemsChars item items h.1),
      items?_chars item items fuel rest h (by simp [chars] at hfuel; omega)]
    rfl
  | obj [], fuel + 1, rest, _, _, _ => rfl
  | obj ((key, value) :: members), fuel + 1, rest, h, hfuel, _ => by
    have htext : (obj ((key, value) :: members)).chars ++ rest =
        '{' :: (membersChars ((key, value) :: members) ++ '}' :: rest) := by simp [chars]
    rw [htext, value?_obj (opens_membersChars key value members),
      members?_chars key value members fuel rest h (by simp [chars] at hfuel; omega)]
    rfl

theorem items?_chars : ∀ (item : Json α) (items : List (Json α)) (fuel : Nat) (rest : List Char),
    ItemsReadable (item :: items) → 2 * (itemsChars (item :: items)).length + 1 ≤ fuel →
    items? fuel (itemsChars (item :: items) ++ ']' :: rest) =
      some (itemTrees (item :: items), rest)
  | item, [], fuel + 1, rest, h, hfuel => by
    have hitem := value?_chars item fuel (']' :: rest) h.1
      (by simp [itemsChars] at hfuel; omega) (follows_bracket rest)
    exact items?_last hitem
  | item, next :: items, fuel + 1, rest, h, hfuel => by
    simp only [itemsChars, List.length_append, List.length_cons] at hfuel
    have hitem := value?_chars item fuel (',' :: (itemsChars (next :: items) ++ ']' :: rest)) h.1
      (by omega) (follows_comma _)
    have hitems := items?_chars next items fuel rest h.2 (by omega)
    rw [itemsChars, List.append_assoc, List.cons_append]
    exact items?_more hitem hitems
    nofun

theorem members?_chars : ∀ (key : String) (value : Json α) (members : List (String × Json α))
    (fuel : Nat) (rest : List Char),
    MembersReadable ((key, value) :: members) →
    2 * (membersChars ((key, value) :: members)).length + 1 ≤ fuel →
    members? fuel (membersChars ((key, value) :: members) ++ '}' :: rest) =
      some (memberTrees ((key, value) :: members), rest)
  | key, value, [], fuel + 1, rest, h, hfuel => by
    simp only [membersChars, List.length_append, List.length_cons] at hfuel
    have hvalue := value?_chars value fuel ('}' :: rest) h.1 (by omega) (follows_brace rest)
    rw [membersChars, List.append_assoc, List.cons_append]
    exact members?_last key hvalue
  | key, value, (key', value') :: members, fuel + 1, rest, h, hfuel => by
    simp only [membersChars, List.length_append, List.length_cons] at hfuel
    have hvalue := value?_chars value fuel
      (',' :: (membersChars ((key', value') :: members) ++ '}' :: rest)) h.1 (by omega)
      (follows_comma _)
    have hmembers := members?_chars key' value' members fuel rest h.2 (by omega)
    rw [membersChars, List.append_assoc, List.cons_append, List.append_assoc, List.cons_append]
    exact members?_more key hvalue hmembers
    nofun

end

end Reader

theorem parse?_text (value : Json α) (h : value.Readable) :
    Tree.parse? value.text = some value.tree := by
  have hread := Reader.value?_chars value (2 * value.chars.length + 2) [] h (by omega) follows_nil
  rw [List.append_nil] at hread
  simp only [Tree.parse?, text, String.toList_ofList, hread]
  rfl

end RegionDrawing.Json
