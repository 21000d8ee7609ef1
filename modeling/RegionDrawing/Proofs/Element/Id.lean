import Mathlib
import RegionDrawing.Element.Id
import RegionDrawing.Proofs.Json.Tree

/-! # Element ids and their texts

Every id is read from the text in which it is written.
-/
namespace RegionDrawing.ElementId

theorem unhyphenate?_hyphenate {groups : List Nat} {s : List Char} (h : groups.sum ≤ s.length) :
    unhyphenate? groups (hyphenate groups s) = some s := by
  induction groups generalizing s with
  | nil => rfl
  | cons n groups ih =>
    rw [List.sum_cons] at h
    have hlength : (s.take n).length = n := by rw [List.length_take]; omega
    have hdrop : (s.take n ++ '-' :: hyphenate groups (s.drop n)).drop n =
        '-' :: hyphenate groups (s.drop n) := List.drop_left' hlength
    have htake : (s.take n ++ '-' :: hyphenate groups (s.drop n)).take n = s.take n :=
      List.take_left' hlength
    have hrest : unhyphenate? groups (hyphenate groups (s.drop n)) = some (s.drop n) :=
      ih (by rw [List.length_drop]; omega)
    simp only [hyphenate, unhyphenate?, hdrop, htake, hrest, Option.map_some,
      List.take_append_drop]

def digitChars (id : ElementId) : List Char :=
  id.digits.toList.map fun digit => Nat.digitChar digit.val

theorem digit?_digitChar (d : Fin 16) : digit? (Nat.digitChar d.val) = some d := by
  revert d
  decide

theorem ofDigits?_digitChars (id : ElementId) : ofDigits? id.digitChars = some id := by
  have hdigits : id.digitChars.mapM digit? = some id.digits.toList := by
    rw [digitChars, mapM_map_eq_some fun digit _ => digit?_digitChar digit, List.map_id']
  have hlength : id.digits.toList.length = 32 := Vector.length_toList
  simp only [ofDigits?, hdigits, Option.bind_eq_bind, Option.bind_some, hlength, ↓reduceDIte]
  rfl

theorem mapM_digit?_eq_none {s : List Char} (h : '-' ∈ s) : s.mapM digit? = none := by
  induction s with
  | nil => cases h
  | cons c s ih =>
    rw [List.mapM_cons]
    rcases List.mem_cons.mp h with rfl | h
    · rfl
    · rw [ih h]
      cases digit? c <;> rfl

theorem chars_eq (id : ElementId) :
    ∃ (d : Fin 16) (t : List Char), id.chars = Nat.digitChar d.val :: t ∧ '-' ∈ t := by
  have hlength : id.digitChars.length = 32 := by simp [digitChars]
  have hchars : id.chars = hyphenate groups id.digitChars := rfl
  cases hdigits : id.digits.toList with
  | nil => simp [digitChars, hdigits] at hlength
  | cons d rest =>
    rw [hchars, digitChars, hdigits]
    refine ⟨d, _, rfl, ?_⟩
    simp

theorem ofChars?_of_head_ne {s : List Char} (h : s.head? ≠ some '{') :
    ofChars? s =
      match afterScheme? s with
      | some rest => ofHyphenated? rest
      | none => ofDigits? s <|> ofHyphenated? s := by
  unfold ofChars?
  split
  · exact absurd rfl h
  · rfl

theorem parse?_text (id : ElementId) : parse? id.text = some id := by
  obtain ⟨d, t, heq, hhyphen⟩ := id.chars_eq
  have hbrace : ∀ d : Fin 16, Nat.digitChar d.val ≠ '{' := by decide
  have hscheme : ∀ d : Fin 16, (Nat.digitChar d.val).toLower ≠ 'u' := by decide
  have hname : afterScheme? id.chars = none := by
    rw [heq, afterScheme?, if_neg]
    intro h
    exact hscheme d (List.cons.inj h).1
  have hplain : ofDigits? id.chars = none := by
    rw [ofDigits?, mapM_digit?_eq_none (heq ▸ List.mem_cons_of_mem _ hhyphen)]
    rfl
  have hhyphenated : ofHyphenated? id.chars = some id := by
    have hread : unhyphenate? groups id.chars = some id.digitChars :=
      unhyphenate?_hyphenate (by simp [groups])
    rw [ofHyphenated?, hread]
    exact id.ofDigits?_digitChars
  have hopen : id.chars.head? ≠ some '{' := by
    rw [heq]
    exact fun h => hbrace d (Option.some.inj h)
  rw [parse?, text, String.toList_ofList, ofChars?_of_head_ne hopen, hname, hplain, hhyphenated]
  rfl

end RegionDrawing.ElementId
