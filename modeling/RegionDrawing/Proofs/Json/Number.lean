import Mathlib.Data.List.TakeDrop
import Mathlib.Data.List.TakeWhile
import RegionDrawing.Json.Reader
import RegionDrawing.Json.Writer
import RegionDrawing.Proofs.Scalar.Order

/-! # Numbers in JSON texts

A number that is read from its own text is read from a longer text as well, if what follows is
nothing or a mark between values. Integers are read as they were written.
-/
namespace RegionDrawing.Json

/-- Whether a text can stand behind a value: it is empty or begins with a comma or a bracket that
closes. -/
def Follows (rest : List Char) : Prop :=
  ∀ c, rest.head? = some c → c = ',' ∨ c = ']' ∨ c = '}'

theorem follows_nil : Follows [] := by
  intro c h
  cases h

theorem follows_comma (rest : List Char) : Follows (',' :: rest) := by
  intro c h
  cases h
  exact .inl rfl

theorem follows_bracket (rest : List Char) : Follows (']' :: rest) := by
  intro c h
  cases h
  exact .inr (.inl rfl)

theorem follows_brace (rest : List Char) : Follows ('}' :: rest) := by
  intro c h
  cases h
  exact .inr (.inr rfl)

theorem Follows.head_isDigit {rest : List Char} (h : Follows rest) :
    ∀ c, rest.head? = some c → c.isDigit = false := by
  intro c hc
  rcases h c hc with rfl | rfl | rfl <;> rfl

namespace Reader

theorem digits?_eq_some_iff {s digits rest : List Char} :
    digits? s = some (digits, rest) ↔
      s = digits ++ rest ∧ digits ≠ [] ∧ (∀ c ∈ digits, c.isDigit) ∧
        ∀ c, rest.head? = some c → c.isDigit = false := by
  have hsplit : digits? s =
      if s.takeWhile Char.isDigit = [] then none
      else some (s.takeWhile Char.isDigit, s.dropWhile Char.isDigit) := by
    unfold digits?
    rw [List.span_eq_takeWhile_dropWhile]
    cases s.takeWhile Char.isDigit <;> rfl
  rw [hsplit]
  constructor
  · intro h
    split at h
    · cases h
    · next hne =>
      cases h
      refine ⟨List.takeWhile_append_dropWhile.symm, hne, ?_, ?_⟩
      · exact fun c hc => List.mem_takeWhile_imp hc
      · intro c hc
        have hstop := List.head?_dropWhile_not Char.isDigit s
        rw [hc] at hstop
        exact Bool.eq_false_iff.mpr (by simpa using hstop)
  · rintro ⟨rfl, hne, hdigits, hrest⟩
    have hstop : rest.takeWhile Char.isDigit = [] ∧ rest.dropWhile Char.isDigit = rest := by
      cases rest with
      | nil => exact ⟨rfl, rfl⟩
      | cons c rest => simp [hrest c rfl]
    rw [List.takeWhile_append_of_pos hdigits, List.dropWhile_append_of_pos hdigits, hstop.1,
      hstop.2, List.append_nil, if_neg hne]

theorem digits?_append {s digits tail rest : List Char} (h : digits? s = some (digits, tail))
    (hrest : Follows rest) : digits? (s ++ rest) = some (digits, tail ++ rest) := by
  obtain ⟨rfl, hne, hdigits, htail⟩ := digits?_eq_some_iff.mp h
  refine digits?_eq_some_iff.mpr ⟨List.append_assoc _ _ _, hne, hdigits, ?_⟩
  intro c hc
  cases tail with
  | nil => exact hrest.head_isDigit c hc
  | cons d tail => exact htail c hc

theorem wholePart?_append {s digits tail rest : List Char}
    (h : wholePart? s = some (digits, tail)) (hrest : Follows rest) :
    wholePart? (s ++ rest) = some (digits, tail ++ rest) := by
  unfold wholePart? at h
  split at h
  · cases h
    rfl
  · next hzero =>
    have happend := digits?_append h hrest
    cases s with
    | nil => cases h
    | cons c s =>
      rw [List.cons_append] at happend ⊢
      unfold wholePart?
      split
      · next heq => exact absurd (congrArg (· :: s) (List.cons.inj heq).1) (hzero s)
      · exact happend

theorem fraction?_of_follows {rest : List Char} (h : Follows rest) :
    fraction? rest = some ([], rest) := by
  unfold fraction?
  split
  · rcases h '.' rfl with hc | hc | hc <;> cases hc
  · rfl

theorem fraction?_append {s digits tail rest : List Char}
    (h : fraction? s = some (digits, tail)) (hrest : Follows rest) :
    fraction? (s ++ rest) = some (digits, tail ++ rest) := by
  unfold fraction? at h
  split at h
  · exact digits?_append h hrest
  · next hpoint =>
    cases h
    cases s with
    | nil => exact fraction?_of_follows hrest
    | cons c s =>
      rw [List.cons_append]
      unfold fraction?
      split
      · next heq => exact absurd (congrArg (· :: s) (List.cons.inj heq).1) (hpoint s)
      · rfl

theorem exponent?_of_follows {rest : List Char} (h : Follows rest) :
    exponent? rest = some (none, rest) := by
  cases rest with
  | nil => rfl
  | cons c rest => rcases h c rfl with rfl | rfl | rfl <;> rfl

theorem exponent?_append {s tail rest : List Char} {exponent : Option Int}
    (h : exponent? s = some (exponent, tail)) (hrest : Follows rest) :
    exponent? (s ++ rest) = some (exponent, tail ++ rest) := by
  have hvalue : ∀ (t : List Char) (f : Nat → Int),
      (digits? t).map (fun read => (some (f (digitsValue 0 read.1)), read.2)) =
        some (exponent, tail) →
      (digits? (t ++ rest)).map (fun read => (some (f (digitsValue 0 read.1)), read.2)) =
        some (exponent, tail ++ rest) := by
    intro t f ht
    obtain ⟨⟨digits, tail'⟩, hdigits, heq⟩ := Option.map_eq_some_iff.mp ht
    cases heq
    rw [digits?_append hdigits hrest]
    rfl
  cases s with
  | nil =>
    cases h
    exact exponent?_of_follows hrest
  | cons c s =>
    by_cases hc : c = 'e' || c = 'E'
    · simp only [exponent?, hc, ↓reduceIte, List.cons_append] at h ⊢
      split at h
      · exact hvalue _ (fun n => n) h
      · exact hvalue _ (fun n => -n) h
      · next hplus hminus =>
        have happend := hvalue s (fun n => n) h
        cases s with
        | nil => cases h
        | cons d s =>
          rw [List.cons_append] at happend ⊢
          split
          · next heq => exact absurd (congrArg (· :: s) (List.cons.inj heq).1) (hplus s)
          · next heq => exact absurd (congrArg (· :: s) (List.cons.inj heq).1) (hminus s)
          · exact happend
    · simp only [exponent?, hc, List.cons_append] at h ⊢
      cases h
      rfl

def unsigned? (negative : Bool) (s : List Char) : Option (Numeral × List Char) := do
  let (whole, s) ← wholePart? s
  let (fraction, s) ← fraction? s
  let (exponent, s) ← exponent? s
  let value := digitsValue (digitsValue 0 whole) fraction
  let decimal := ⟨negative, value, exponent.getD 0 - (fraction.length : Int)⟩
  some (⟨decimal, fraction.isEmpty && exponent.isNone⟩, s)

theorem numeral?_minus (s : List Char) : numeral? ('-' :: s) = unsigned? true s := rfl

theorem numeral?_of_head_ne {s : List Char} (h : s.head? ≠ some '-') :
    numeral? s = unsigned? false s := by
  cases s with
  | nil => rfl
  | cons c s =>
    unfold numeral?
    split
    · next heq =>
      split at heq
      · next hsign => exact absurd (congrArg List.head? hsign) h
      · cases heq
        rfl

theorem unsigned?_append {negative : Bool} {s tail rest : List Char} {n : Numeral}
    (h : unsigned? negative s = some (n, tail)) (hrest : Follows rest) :
    unsigned? negative (s ++ rest) = some (n, tail ++ rest) := by
  simp only [unsigned?, Option.bind_eq_bind, Option.bind_eq_some_iff, Prod.exists] at h
  obtain ⟨whole, s₁, hwhole, fraction, s₂, hfraction, exponent, s₃, hexponent, h⟩ := h
  cases h
  simp only [unsigned?, wholePart?_append hwhole hrest, fraction?_append hfraction hrest,
    exponent?_append hexponent hrest, Option.bind_eq_bind, Option.bind_some]

theorem numeral?_append {s tail rest : List Char} {n : Numeral}
    (h : numeral? s = some (n, tail)) (hrest : Follows rest) :
    numeral? (s ++ rest) = some (n, tail ++ rest) := by
  cases s with
  | nil => cases h
  | cons c s =>
    by_cases hc : c = '-'
    · subst hc
      exact unsigned?_append h hrest
    · have hhead : ∀ t, (c :: t).head? ≠ some '-' := fun t he => hc (Option.some.inj he)
      rw [numeral?_of_head_ne (hhead s)] at h
      rw [List.cons_append, numeral?_of_head_ne (hhead _)]
      exact unsigned?_append h hrest

theorem head_of_digits? {s digits tail : List Char} (h : digits? s = some (digits, tail)) :
    ∃ c t, s = c :: t ∧ c.isDigit := by
  obtain ⟨rfl, hne, hdigits, _⟩ := digits?_eq_some_iff.mp h
  cases digits with
  | nil => exact absurd rfl hne
  | cons c digits => exact ⟨c, digits ++ tail, rfl, hdigits c List.mem_cons_self⟩

theorem head_of_unsigned? {negative : Bool} {s tail : List Char} {n : Numeral}
    (h : unsigned? negative s = some (n, tail)) : ∃ c t, s = c :: t ∧ c.isDigit := by
  simp only [unsigned?, Option.bind_eq_bind, Option.bind_eq_some_iff, Prod.exists] at h
  obtain ⟨whole, s₁, hwhole, _⟩ := h
  unfold wholePart? at hwhole
  split at hwhole
  · exact ⟨'0', _, rfl, rfl⟩
  · exact head_of_digits? hwhole

theorem numeral?_of_unsigned? {s tail : List Char} {n : Numeral}
    (h : unsigned? false s = some (n, tail)) : numeral? s = some (n, tail) := by
  obtain ⟨c, t, rfl, hc⟩ := head_of_unsigned? h
  refine (numeral?_of_head_ne fun hhead => ?_).trans h
  cases Option.some.inj hhead
  cases hc

theorem head_of_numeral? {s tail : List Char} {n : Numeral} (h : numeral? s = some (n, tail)) :
    ∃ c t, s = c :: t ∧ (c = '-' ∨ c.isDigit) := by
  by_cases hsign : s.head? = some '-'
  · obtain ⟨t, rfl⟩ := List.head?_eq_some_iff.mp hsign
    exact ⟨'-', t, rfl, .inl rfl⟩
  · rw [numeral?_of_head_ne hsign] at h
    obtain ⟨c, t, heq, hc⟩ := head_of_unsigned? h
    exact ⟨c, t, heq, .inr hc⟩

theorem digitsValue_digitText (n : Nat) : digitsValue 0 (Decimal.digitText n) = n :=
  Nat.ofDigitChars_ten_toDigits

theorem isDigit_of_mem_digitText {n : Nat} {c : Char} (h : c ∈ Decimal.digitText n) :
    c.isDigit := Nat.isDigit_of_mem_toDigits (by decide) (by decide) h

theorem head_digitText {n : Nat} (h : n ≠ 0) :
    ∃ c t, Decimal.digitText n = c :: t ∧ c ≠ '0' := by
  induction n using Nat.strongRecOn with
  | ind n ih =>
    by_cases hn : n < 10
    · refine ⟨n.digitChar, [], Nat.toDigits_of_lt_base hn, ?_⟩
      have hall : ∀ m, m < 10 → m ≠ 0 → m.digitChar ≠ '0' := by decide
      exact hall n hn h
    · obtain ⟨c, t, heq, hc⟩ := ih (n / 10) (by omega) (by omega)
      refine ⟨c, t ++ [(n % 10).digitChar], ?_, hc⟩
      unfold Decimal.digitText at heq ⊢
      rw [Nat.toDigits_of_base_le (by decide) (by omega), heq]
      rfl

theorem wholePart?_of_head_ne {c : Char} {s rest : List Char} (hc : c ≠ '0')
    (h : ∀ d ∈ c :: s, d.isDigit) (hrest : ∀ d, rest.head? = some d → d.isDigit = false) :
    wholePart? (c :: s ++ rest) = some (c :: s, rest) := by
  have hdigits : digits? (c :: s ++ rest) = some (c :: s, rest) :=
    digits?_eq_some_iff.mpr ⟨rfl, nofun, h, hrest⟩
  rw [List.cons_append] at hdigits ⊢
  unfold wholePart?
  split
  · next hzero => exact absurd (List.cons.inj hzero).1 hc
  · exact hdigits

theorem wholePart?_digitText (n : Nat) {rest : List Char} (hrest : Follows rest) :
    wholePart? (Decimal.digitText n ++ rest) = some (Decimal.digitText n, rest) := by
  by_cases h : n = 0
  · subst h
    rfl
  · obtain ⟨c, t, heq, hc⟩ := head_digitText h
    have hdigits : ∀ d ∈ c :: t, d.isDigit := fun d hd => isDigit_of_mem_digitText (heq ▸ hd)
    rw [heq]
    exact wholePart?_of_head_ne hc hdigits hrest.head_isDigit

theorem unsigned?_digitText (negative : Bool) (n : Nat) {rest : List Char}
    (hrest : Follows rest) :
    unsigned? negative (Decimal.digitText n ++ rest) = some (⟨⟨negative, n, 0⟩, true⟩, rest) := by
  simp only [unsigned?, wholePart?_digitText n hrest, fraction?_of_follows hrest,
    exponent?_of_follows hrest, Option.bind_eq_bind, Option.bind_some, digitsValue_digitText]
  rfl

theorem numeral?_int (i : Int) {rest : List Char} (hrest : Follows rest) :
    numeral? ((if i < 0 then ['-'] else []) ++ Decimal.digitText i.natAbs ++ rest) =
      some (⟨⟨decide (i < 0), i.natAbs, 0⟩, true⟩, rest) := by
  by_cases hneg : i < 0
  · simp only [hneg, ↓reduceIte, List.cons_append, List.nil_append, numeral?_minus,
      unsigned?_digitText _ _ hrest, decide_true]
  · have hread := numeral?_of_unsigned? (unsigned?_digitText false i.natAbs hrest)
    simp only [hneg, ↓reduceIte, List.nil_append, hread, decide_false]

end Reader

/-- Whether a scalar is what its own text is read as. -/
def ReadsBack {α : Type} [WrittenScalar α] (a : α) : Prop :=
  ∃ d, Reader.numeral? (scalarChars a) = some (⟨d, false⟩, []) ∧
    WrittenScalar.ofDecimal? d = some a

end RegionDrawing.Json

namespace RegionDrawing

/-- Scalars of which every finite one is what its own text is read as. -/
class LawfulWrittenScalar (α : Type) [WrittenScalar α] : Prop extends LawfulScalar α where
  readsBack : ∀ a : α, Scalar.isFinite a → Json.ReadsBack a

/-- Scalars of which none that is not finite is read from a decimal. -/
class LawfulReading (α : Type) [WrittenScalar α] : Prop where
  isFinite_of_ofDecimal? : ∀ (d : Decimal) (a : α),
    WrittenScalar.ofDecimal? d = some a → Scalar.isFinite a

end RegionDrawing
