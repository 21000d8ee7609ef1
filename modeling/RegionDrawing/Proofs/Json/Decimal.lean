import Mathlib
import RegionDrawing.Proofs.Json.Number

/-! # Decimals in JSON texts

A decimal is read from its text with the same value, be it written positionally or with an
exponent.
-/
namespace RegionDrawing.Json.Reader

theorem digitsValue_append (value : Nat) (s t : List Char) :
    digitsValue value (s ++ t) = digitsValue (digitsValue value s) t := List.foldl_append

theorem digitsValue_zeros (value n : Nat) :
    digitsValue value (List.replicate n '0') = value * 10 ^ n := by
  induction n generalizing value with
  | zero => simp [digitsValue]
  | succ n ih =>
    have hstep : digitsValue value (List.replicate (n + 1) '0') =
        digitsValue (10 * value) (List.replicate n '0') := rfl
    rw [hstep, ih, pow_succ]
    ring

theorem digits?_of_forall {s : List Char} (hne : s ≠ []) (h : ∀ c ∈ s, c.isDigit) :
    digits? s = some (s, []) :=
  digits?_eq_some_iff.mpr ⟨(List.append_nil s).symm, hne, h, nofun⟩

theorem unsigned?_of_parts (negative : Bool) {s s₁ s₂ whole fraction : List Char}
    {exponent : Option Int} (hwhole : wholePart? s = some (whole, s₁))
    (hfraction : fraction? s₁ = some (fraction, s₂))
    (hexponent : exponent? s₂ = some (exponent, [])) :
    unsigned? negative s =
      some (⟨⟨negative, digitsValue 0 (whole ++ fraction),
        exponent.getD 0 - (fraction.length : Int)⟩, fraction.isEmpty && exponent.isNone⟩, []) := by
  simp only [unsigned?, hwhole, hfraction, hexponent, Option.bind_eq_bind, Option.bind_some,
    digitsValue_append]

theorem unsigned?_point (negative : Bool) {whole fraction : List Char}
    (hwhole : wholePart? (whole ++ '.' :: fraction) = some (whole, '.' :: fraction))
    (hne : fraction ≠ []) (h : ∀ c ∈ fraction, c.isDigit) :
    unsigned? negative (whole ++ '.' :: fraction) =
      some (⟨⟨negative, digitsValue 0 (whole ++ fraction), -(fraction.length : Int)⟩, false⟩,
        []) := by
  have hfraction : fraction? ('.' :: fraction) = some (fraction, []) := digits?_of_forall hne h
  have hsome : fraction.isEmpty = false := by simp [hne]
  rw [unsigned?_of_parts negative hwhole hfraction rfl, hsome, Option.getD_none, zero_sub]
  rfl

/-- The digits of a number are read as that number, also when zeros stand around them. -/
theorem digitsValue_zeros_digitText (n k : Nat) :
    digitsValue 0 (List.replicate k '0' ++ Decimal.digitText n) = n := by
  rw [digitsValue_append, digitsValue_zeros, Nat.zero_mul, digitsValue_digitText]

theorem digitsValue_digitText_zeros (n k : Nat) :
    digitsValue 0 (Decimal.digitText n ++ List.replicate k '0') = n * 10 ^ k := by
  rw [digitsValue_append, digitsValue_digitText, digitsValue_zeros]

theorem isDigit_of_mem_zeros {k : Nat} {c : Char} (h : c ∈ List.replicate k '0') : c.isDigit := by
  rw [List.eq_of_mem_replicate h]
  rfl

theorem unsigned?_whole (negative : Bool) {n : Nat} (hn : n ≠ 0) (k : Nat) :
    unsigned? negative (Decimal.digitText n ++ List.replicate k '0' ++ ['.', '0']) =
      some (⟨⟨negative, n * 10 ^ (k + 1), -1⟩, false⟩, []) := by
  obtain ⟨c, t, heq, hc⟩ := head_digitText hn
  have hwhole : wholePart? (Decimal.digitText n ++ List.replicate k '0' ++ ['.', '0']) =
      some (Decimal.digitText n ++ List.replicate k '0', ['.', '0']) := by
    rw [heq, List.cons_append]
    refine wholePart?_of_head_ne hc ?_ ?_
    · rw [← List.cons_append, ← heq]
      intro d hd
      rcases List.mem_append.mp hd with hd | hd
      · exact isDigit_of_mem_digitText hd
      · exact isDigit_of_mem_zeros hd
    · intro d hd
      cases hd
      rfl
  have hread := unsigned?_point negative hwhole (List.cons_ne_nil '0' [])
    fun d hd => by rw [List.mem_singleton.mp hd]; rfl
  have hzeros : Decimal.digitText n ++ List.replicate k '0' ++ ['0'] =
      Decimal.digitText n ++ List.replicate (k + 1) '0' := by
    rw [List.append_assoc, List.replicate_succ']
  rw [hread, hzeros, digitsValue_digitText_zeros]
  rfl

theorem unsigned?_inside (negative : Bool) {n whole : Nat} (hn : n ≠ 0) (hpos : 0 < whole)
    (hlt : whole < (Decimal.digitText n).length) :
    unsigned? negative
        ((Decimal.digitText n).take whole ++ '.' :: (Decimal.digitText n).drop whole) =
      some (⟨⟨negative, n, (whole : Int) - (Decimal.digitText n).length⟩, false⟩, []) := by
  obtain ⟨c, t, heq, hc⟩ := head_digitText hn
  have hwhole : wholePart?
      ((Decimal.digitText n).take whole ++ '.' :: (Decimal.digitText n).drop whole) =
      some ((Decimal.digitText n).take whole, '.' :: (Decimal.digitText n).drop whole) := by
    obtain ⟨w, rfl⟩ : ∃ w, whole = w + 1 := ⟨whole - 1, by omega⟩
    rw [heq, List.take_succ_cons]
    refine wholePart?_of_head_ne hc ?_ ?_
    · rw [← List.take_succ_cons, ← heq]
      exact fun d hd => isDigit_of_mem_digitText (List.mem_of_mem_take hd)
    · intro d hd
      cases hd
      rfl
  have hne : (Decimal.digitText n).drop whole ≠ [] := by
    rw [ne_eq, List.drop_eq_nil_iff]
    omega
  have hdigits : ∀ d ∈ (Decimal.digitText n).drop whole, d.isDigit :=
    fun d hd => isDigit_of_mem_digitText (List.mem_of_mem_drop hd)
  rw [unsigned?_point negative hwhole hne hdigits, List.take_append_drop, digitsValue_digitText,
    List.length_drop]
  congr 4
  omega

theorem unsigned?_below (negative : Bool) (n k : Nat) :
    unsigned? negative ('0' :: '.' :: (List.replicate k '0' ++ Decimal.digitText n)) =
      some (⟨⟨negative, n, -((k + (Decimal.digitText n).length : Nat) : Int)⟩, false⟩, []) := by
  have hne : List.replicate k '0' ++ Decimal.digitText n ≠ [] := by
    simp [Decimal.digitText, Nat.toDigits_ne_nil]
  have hdigits : ∀ c ∈ List.replicate k '0' ++ Decimal.digitText n, c.isDigit := by
    intro c hc
    rcases List.mem_append.mp hc with hc | hc
    · exact isDigit_of_mem_zeros hc
    · exact isDigit_of_mem_digitText hc
  have hwhole : wholePart? (['0'] ++ '.' :: (List.replicate k '0' ++ Decimal.digitText n)) =
      some (['0'], '.' :: (List.replicate k '0' ++ Decimal.digitText n)) := rfl
  have hread := unsigned?_point negative hwhole hne hdigits
  have hvalue : digitsValue 0 (['0'] ++ (List.replicate k '0' ++ Decimal.digitText n)) = n :=
    digitsValue_zeros_digitText n (k + 1)
  rw [hvalue, List.length_append, List.length_replicate] at hread
  exact hread

theorem exponent?_mark (exponent : Int) :
    exponent? ('e' :: (if exponent < 0 then '-' else '+') :: Decimal.digitText exponent.natAbs) =
      some (some exponent, []) := by
  have hread : digits? (Decimal.digitText exponent.natAbs) =
      some (Decimal.digitText exponent.natAbs, []) :=
    digits?_of_forall Nat.toDigits_ne_nil fun d hd => isDigit_of_mem_digitText hd
  by_cases hneg : exponent < 0
  · have habs : -((exponent.natAbs : Nat) : Int) = exponent := by omega
    simp only [exponent?, hneg, ↓reduceIte, hread, Option.map_some, digitsValue_digitText, habs,
      decide_true, Bool.true_or]
  · have habs : ((exponent.natAbs : Nat) : Int) = exponent := by omega
    simp only [exponent?, hneg, ↓reduceIte, hread, Option.map_some, digitsValue_digitText, habs,
      decide_true, Bool.true_or, Bool.false_eq_true]

/-- A number with an exponent and all digits but the first behind the point, if there are more. -/
theorem unsigned?_scientific (negative : Bool) {n : Nat} (hn : n ≠ 0) {exponent : Int}
    {mark : List Char} (hexponent : exponent? ('e' :: mark) = some (some exponent, [])) :
    unsigned? negative ((Decimal.digitText n).take 1 ++
        (if ((Decimal.digitText n).drop 1).isEmpty then []
          else '.' :: (Decimal.digitText n).drop 1) ++ 'e' :: mark) =
      some (⟨⟨negative, n, exponent - ((Decimal.digitText n).length - 1 : Nat)⟩, false⟩, []) := by
  obtain ⟨c, t, heq, hc⟩ := head_digitText hn
  have hdigit : ∀ d ∈ c :: t, d.isDigit := fun d hd => isDigit_of_mem_digitText (heq ▸ hd)
  have hvalue : digitsValue 0 ([c] ++ t) = n := by
    rw [List.singleton_append, ← heq, digitsValue_digitText]
  have hfirst : ∀ d ∈ [c], d.isDigit := by
    intro d hd
    rw [List.mem_singleton.mp hd]
    exact hdigit c List.mem_cons_self
  have hlength : (Decimal.digitText n).length - 1 = t.length := by rw [heq]; rfl
  rw [hlength, heq, List.take_succ_cons, List.take_zero, List.drop_succ_cons, List.drop_zero]
  cases t with
  | nil =>
    have hwhole : wholePart? ([c] ++ 'e' :: mark) = some ([c], 'e' :: mark) := by
      refine wholePart?_of_head_ne hc hfirst fun d hd => ?_
      cases hd
      rfl
    refine (unsigned?_of_parts negative hwhole rfl hexponent).trans ?_
    rw [hvalue]
    rfl
  | cons d t =>
    have hwhole : wholePart? ([c] ++ '.' :: (d :: t ++ 'e' :: mark)) =
        some ([c], '.' :: (d :: t ++ 'e' :: mark)) := by
      refine wholePart?_of_head_ne hc hfirst fun x hx => ?_
      cases hx
      rfl
    have hfraction : fraction? ('.' :: (d :: t ++ 'e' :: mark)) = some (d :: t, 'e' :: mark) := by
      refine digits?_eq_some_iff.mpr ⟨rfl, nofun, ?_, ?_⟩
      · exact fun x hx => hdigit x (List.mem_cons_of_mem c hx)
      · intro x hx
        cases hx
        rfl
    refine (unsigned?_of_parts negative hwhole hfraction hexponent).trans ?_
    rw [hvalue]
    rfl

/-- Digits laid out without an exponent are read with the same value; a whole number gets a zero
behind the point. -/
theorem unsigned?_positionalText (negative : Bool) {d : Decimal} (hd : d.digits ≠ 0) :
    ∃ k : Nat, (k = 0 ∨ d.exponent - k = -1) ∧
      unsigned? negative (d.positionalText true) =
        some (⟨⟨negative, d.digits * 10 ^ k, d.exponent - k⟩, false⟩, []) := by
  have hlength : 0 < (Decimal.digitText d.digits).length :=
    List.length_pos_of_ne_nil Nat.toDigits_ne_nil
  unfold Decimal.positionalText Decimal.leadingExponent
  dsimp only
  split
  · next hwhole =>
    refine ⟨d.exponent.toNat + 1, .inr (by omega), ?_⟩
    refine (unsigned?_whole negative hd d.exponent.toNat).trans ?_
    congr 4
    omega
  · next hfraction =>
    refine ⟨0, .inl rfl, ?_⟩
    rw [pow_zero, mul_one]
    split
    · next hinside =>
      refine (unsigned?_inside negative hd (Nat.succ_pos _) (by omega)).trans ?_
      congr 4
      omega
    · next hbelow =>
      refine (unsigned?_below negative d.digits _).trans ?_
      congr 4
      omega

theorem numeral?_text {layout : Layout} (hpoint : layout.pointZero = true) {d : Decimal}
    (hzero : d.digits = 0 → d.exponent = 0) :
    ∃ k : Nat, (k = 0 ∨ d.exponent - k = -1) ∧
      numeral? (d.text layout).toList =
        some (⟨⟨d.negative, d.digits * 10 ^ k, d.exponent - k⟩, false⟩, []) := by
  have hsigned : ∀ body : List Char, ∀ n : Numeral,
      unsigned? d.negative body = some (n, []) →
      numeral? ((if d.negative then ['-'] else []) ++ body) = some (n, []) := by
    intro body n hread
    cases hnegative : d.negative with
    | true =>
      rw [hnegative] at hread
      exact hread
    | false =>
      rw [hnegative] at hread
      exact numeral?_of_unsigned? hread
  unfold Decimal.text
  rw [String.toList_ofList, hpoint]
  by_cases hdigits : d.digits = 0
  · refine ⟨1, .inr (by rw [hzero hdigits]; rfl), ?_⟩
    rw [if_pos hdigits, hdigits, hzero hdigits]
    exact hsigned _ _ rfl
  · rw [if_neg hdigits]
    by_cases hpositional : layout.positional d.leadingExponent
    · obtain ⟨k, hk, hread⟩ := unsigned?_positionalText d.negative hdigits
      rw [if_pos hpositional]
      exact ⟨k, hk, hsigned _ _ hread⟩
    · rw [if_neg hpositional]
      refine ⟨0, .inl rfl, hsigned _ _ ?_⟩
      refine (unsigned?_scientific d.negative hdigits (exponent?_mark d.leadingExponent)).trans ?_
      have hlength : 0 < (Decimal.digitText d.digits).length :=
        List.length_pos_of_ne_nil Nat.toDigits_ne_nil
      rw [pow_zero, mul_one]
      congr 4
      unfold Decimal.leadingExponent
      omega

end RegionDrawing.Json.Reader
