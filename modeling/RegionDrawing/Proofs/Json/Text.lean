import RegionDrawing.Json.Reader
import RegionDrawing.Json.Writer

/-! # Strings in JSON texts

Every text is read as it was written: what is escaped for the writer is restored by the reader,
character by character.
-/
namespace RegionDrawing.Json.Reader

theorem hexDigit?_hexChar {n : Nat} (h : n < 16) : hexDigit? (hexChar n) = some n := by
  have hall : ∀ m, m < 16 → hexDigit? (hexChar m) = some m := by decide
  exact hall n h

/-- What the codes of a string become when one more stands in front of them. -/
def withCode (code : Nat) (read : Option (List Nat × List Char)) :
    Option (List Nat × List Char) :=
  read.map fun (codes, rest) => (code :: codes, rest)

theorem stringCodes?_plain {c : Char} (hquote : c ≠ '"') (hescape : c ≠ '\\')
    (hcontrol : ¬ c.toNat < 0x20) (tail : List Char) :
    stringCodes? (c :: tail) = withCode c.toNat (stringCodes? tail) := by
  rw [stringCodes?]
  · simp only [hcontrol, hescape, decide_false, Bool.or_self, Bool.false_eq_true, ↓reduceIte]
    cases stringCodes? tail <;> rfl
  · exact hquote
  · exact fun _ _ _ _ _ he => absurd he hescape
  · exact fun _ _ he => absurd he hescape

theorem stringCodes?_letter {letter : Char} {code : Nat} (h : escape? letter = some code)
    (tail : List Char) :
    stringCodes? ('\\' :: letter :: tail) = withCode code (stringCodes? tail) := by
  rw [stringCodes?]
  · simp only [h]
    cases stringCodes? tail <;> rfl
  · rintro a b c d rest rfl
    cases h

theorem stringCodes?_hex {high low : Nat} (hhigh : high < 16) (hlow : low < 16)
    (tail : List Char) :
    stringCodes? ('\\' :: 'u' :: '0' :: '0' :: hexChar high :: hexChar low :: tail) =
      withCode (high * 16 + low) (stringCodes? tail) := by
  have hzero : hexDigit? '0' = some 0 := rfl
  rw [stringCodes?]
  simp only [hzero, hexDigit?_hexChar hhigh, hexDigit?_hexChar hlow, Option.bind_eq_bind,
    Option.bind_some, Nat.zero_mul, Nat.zero_add]
  cases stringCodes? tail <;> rfl

theorem stringCodes?_escapeChar (c : Char) (tail : List Char) :
    stringCodes? (escapeChar c ++ tail) = withCode c.toNat (stringCodes? tail) := by
  unfold escapeChar
  split
  case h_8 =>
    split
    · next hlow =>
      have hdiv : c.toNat / 16 < 16 := by omega
      have hmod : c.toNat % 16 < 16 := by omega
      have hhex := stringCodes?_hex hdiv hmod tail
      rw [Nat.div_add_mod'] at hhex
      exact hhex
    · next hlow => exact stringCodes?_plain (by assumption) (by assumption) hlow tail
  all_goals exact stringCodes?_letter rfl tail

theorem stringCodes?_flatMap (s rest : List Char) :
    stringCodes? (s.flatMap escapeChar ++ '"' :: rest) = some (s.map Char.toNat, rest) := by
  induction s with
  | nil => rfl
  | cons c s ih =>
    rw [List.flatMap_cons, List.append_assoc, stringCodes?_escapeChar, ih]
    rfl

/-- No character is one half of a surrogate pair, so each code gives a character by itself. -/
theorem characters?_toNat (s : List Char) : characters? (s.map Char.toNat) = some s := by
  induction s with
  | nil => rfl
  | cons c s ih =>
    have hvalid : c.toNat < 0xd800 || 0xdfff < c.toNat := by
      have hc : c.toNat < 0xd800 ∨ 0xdfff < c.toNat := by
        rcases c.valid with h | ⟨h, _⟩
        · exact .inl h
        · exact .inr h
      simpa using hc
    rw [List.map_cons, characters?.eq_def]
    dsimp only
    rw [if_pos hvalid, ih, Char.ofNat_toNat]
    rfl

theorem string?_quoted (s : String) (rest : List Char) :
    string? (s.toList.flatMap escapeChar ++ '"' :: rest) = some (some s, rest) := by
  simp only [string?, stringCodes?_flatMap, Option.map_some, characters?_toNat,
    String.ofList_toList]

end RegionDrawing.Json.Reader
