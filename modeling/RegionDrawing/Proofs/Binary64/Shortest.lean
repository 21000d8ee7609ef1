import Mathlib
import RegionDrawing.Binary64.Shortest
import RegionDrawing.Proofs.Binary64.Order
import RegionDrawing.Proofs.Binary64.Reading
import RegionDrawing.Proofs.Binary64.Stored
import RegionDrawing.Proofs.Json.Decimal

/-! # Shortest decimals

The decimal that is found for a machine number lies in its rounding interval, so every finite number
is read back from its text.
-/
namespace RegionDrawing.Binary64

namespace Magnitude

variable {m : Magnitude}

theorem unitRatio_eq (m : Magnitude) (exponent : Int) :
    0 < (m.unitRatio exponent).1 ∧
      ((m.unitRatio exponent).2 : ℚ) / (m.unitRatio exponent).1 =
        10 ^ exponent / 2 ^ m.exponent := by
  have hten := zpow_mul_pow_toNat (b := 10) (by norm_num) exponent
  have htwo := zpow_mul_pow_toNat (b := 2) (by norm_num) m.exponent
  unfold unitRatio
  simp only [Nat.shiftLeft_eq, Nat.pow_eq]
  refine ⟨by positivity, ?_⟩
  push_cast
  rw [div_eq_div_iff (by positivity) (by positivity), ← hten, ← htwo]
  ring

theorem nears_iff_readsBack (m : Magnitude) (digits : Nat) (exponent : Int) :
    m.Nears (digits * 10 ^ exponent) ↔ m.readsBack digits exponent := by
  obtain ⟨hpos, hratio⟩ := m.unitRatio_eq exponent
  have hunits : (digits * 10 ^ exponent : ℚ) / 2 ^ m.exponent =
      (digits * (m.unitRatio exponent).2 : Nat) / ((m.unitRatio exponent).1 : Nat) := by
    rw [mul_div_assoc, ← hratio]
    push_cast
    ring
  unfold Nears readsBack
  rw [hunits, RoundingInterval.contains_div_iff hpos]
  dsimp only
  split <;> simp [mul_assoc]

theorem readsBack_of_onGrid {tie : Tie} {exponent : Int} {digits : Nat}
    (h : m.onGrid tie exponent = some digits) : m.readsBack digits exponent := by
  unfold onGrid at h
  dsimp only at h
  generalize m.significand * (m.unitRatio exponent).1 / (m.unitRatio exponent).2 = floor at h
  split at h
  · cases h
  · next hfloor _ =>
    cases h
    exact hfloor
  · next _ hnext =>
    cases h
    exact hnext
  · next hfloor hnext =>
    split at h
    · cases h
      exact hfloor
    · cases h
      exact hnext
    · cases h
      exact hnext
    · cases h
      rcases Nat.mod_two_eq_zero_or_one floor with heven | hodd
      · rw [heven]
        exact hfloor
      · rw [hodd]
        exact hnext

theorem Canonical.digits_pos (hm : m.Canonical) {digits : Nat} {exponent : Int}
    (h : m.Nears (digits * 10 ^ exponent)) : 0 < digits := by
  apply Nat.pos_of_ne_zero
  intro hzero
  have hle := hm.le_of_nears h
  have hpos : (0 : ℚ) < 2 ^ (m.exponent - 1) := by positivity
  rw [hzero, Nat.cast_zero, zero_mul] at hle
  linarith

theorem Canonical.scale_ge (hm : m.Canonical) : -324 ≤ m.scale := by
  have hleast := hm.least
  unfold scale
  dsimp only
  split
  · omega
  · split <;> omega

/-- Whether a decimal may be written for a magnitude: it is read as the magnitude and does not reach
far behind the point. -/
structure Serves (m : Magnitude) (d : Decimal) : Prop where
  positive : d.negative = false
  nears : m.Nears d.value
  least : -1074 ≤ d.exponent

theorem value_exactDecimal (m : Magnitude) : m.exactDecimal.value = m.value := by
  unfold exactDecimal
  split
  · next h =>
    have hexponent : m.exponent.toNat = m.exponent.natAbs := by omega
    rw [Decimal.value, value, Nat.shiftLeft_eq, zpow_zero, mul_one, zpow_of_nonneg h, hexponent]
    push_cast
    rfl
  · next h =>
    have hexponent : (-m.exponent).toNat = m.exponent.natAbs := by omega
    have hten : (10 : ℚ) ^ m.exponent.natAbs = 5 ^ m.exponent.natAbs * 2 ^ m.exponent.natAbs := by
      rw [← mul_pow]
      norm_num
    rw [Decimal.value, value, zpow_of_neg (not_le.mp h), zpow_of_neg (not_le.mp h), hexponent, hten,
      Nat.pow_eq]
    push_cast
    field_simp

theorem Canonical.serves_exactDecimal (hm : m.Canonical) : m.Serves m.exactDecimal := by
  have hleast := hm.least
  have hnears : m.Nears m.exactDecimal.value := by
    rw [value_exactDecimal]
    exact hm.nears_value
  unfold exactDecimal at hnears ⊢
  split at hnears
  · next h =>
    rw [if_pos h]
    exact ⟨rfl, hnears, by dsimp only; omega⟩
  · next h =>
    rw [if_neg h]
    exact ⟨rfl, hnears, hleast⟩

theorem Serves.stripZeros {d : Decimal} (h : m.Serves d) (fuel : Nat) :
    m.Serves (d.stripZeros fuel) := by
  induction fuel generalizing d with
  | zero => exact h
  | succ fuel ih =>
    have hleast := h.least
    unfold Decimal.stripZeros
    split
    · next hzero =>
      have hvalue : Decimal.value ⟨d.negative, d.digits / 10, d.exponent + 1⟩ = d.value := by
        have hdigits : d.digits = d.digits / 10 * 10 := by omega
        have hcast : (d.digits : ℚ) = (d.digits / 10 : Nat) * 10 := by exact_mod_cast hdigits
        rw [Decimal.value, Decimal.value, zpow_add_one₀ (by norm_num), hcast]
        ring
      refine ih ⟨h.positive, ?_, ?_⟩
      · rw [hvalue]
        exact h.nears
      · dsimp only
        omega
    · exact h

/-- The decimal that is written for a magnitude is read as the magnitude. -/
theorem Canonical.serves_shortest (hm : m.Canonical) (tie : Tie) : m.Serves (m.shortest tie) := by
  have hscale := hm.scale_ge
  unfold shortest
  rw [if_neg hm.pos.ne']
  dsimp only
  cases hfound : (List.range 17).findSome? fun (n : Nat) =>
      (m.onGrid tie (m.scale - n - 1)).map fun digits =>
        Decimal.stripZeros 18 ⟨false, digits, m.scale - n - 1⟩ with
  | none => exact hm.serves_exactDecimal
  | some d =>
    obtain ⟨n, hmem, hsome⟩ := List.exists_of_findSome?_eq_some hfound
    obtain ⟨digits, hgrid, rfl⟩ := Option.map_eq_some_iff.mp hsome
    have hn := List.mem_range.mp hmem
    have hserves : m.Serves ⟨false, digits, m.scale - n - 1⟩ := by
      refine ⟨rfl, (m.nears_iff_readsBack digits _).mpr (readsBack_of_onGrid hgrid), ?_⟩
      dsimp only
      omega
    exact hserves.stripZeros 18

end Magnitude

theorem ofDecimal?_of_serves {x : Float} (hfinite : x.isFinite)
    (hbits : 0 < Magnitude.unsignedBits x) {d : Decimal}
    (h : (Magnitude.ofFloat x).Serves d) {k : Nat} (hk : k = 0 ∨ d.exponent - k = -1) :
    ofDecimal? ⟨Magnitude.isNegative x, d.digits * 10 ^ k, d.exponent - k⟩ = some x := by
  have hm : (Magnitude.ofFloat x).Canonical :=
    Magnitude.canonical_ofBits hbits (unsignedBits_lt hfinite)
  have hleast := h.least
  have hpos : 0 < d.digits := hm.digits_pos h.nears
  have hvalue : Decimal.value ⟨Magnitude.isNegative x, d.digits * 10 ^ k, d.exponent - k⟩ =
      d.value := by
    have hten : (10 : ℚ) ^ d.exponent = 10 ^ k * 10 ^ (d.exponent - k) := by
      rw [← zpow_natCast, ← zpow_add₀ (by norm_num)]
      congr 1
      omega
    rw [Decimal.value, Decimal.value, hten]
    push_cast
    ring
  refine ofDecimal?_eq_some hfinite rfl ?_ ?_ hbits ?_
  · dsimp only
    omega
  · dsimp only
    positivity
  · rw [hvalue]
    exact h.nears

/-- Every finite machine number is read back from its text. -/
theorem readsBack_of_isFinite {x : Float} (hfinite : x.isFinite) : Json.ReadsBack x := by
  let d := (Magnitude.ofFloat x).shortest Json.numberLayout.tie
  have htext : Json.scalarChars x =
      (Decimal.text Json.numberLayout ⟨Magnitude.isNegative x, d.digits, d.exponent⟩).toList := by
    have hdecimal : WrittenScalar.toDecimal? Json.numberLayout.tie x =
        some ⟨Magnitude.isNegative x, d.digits, d.exponent⟩ := if_pos hfinite
    unfold Json.scalarChars
    rw [hdecimal]
  have hpoint : Json.numberLayout.pointZero = true := rfl
  unfold Json.ReadsBack
  rw [htext]
  by_cases hzero : (Magnitude.ofFloat x).significand = 0
  · have hd : d = ⟨false, 0, 0⟩ := if_pos hzero
    rw [hd]
    obtain ⟨k, _, hread⟩ := Json.Reader.numeral?_text hpoint
      (d := ⟨Magnitude.isNegative x, 0, 0⟩) fun _ => rfl
    refine ⟨_, hread, ?_⟩
    apply (if_pos (.inl (Nat.zero_mul _))).trans
    exact congrArg some (eq_zero_of_ofFloat hzero).symm
  · have hbits : 0 < Magnitude.unsignedBits x := by
      refine Nat.pos_of_ne_zero fun hbits => hzero ?_
      rw [Magnitude.ofFloat, hbits]
      rfl
    have hm : (Magnitude.ofFloat x).Canonical :=
      Magnitude.canonical_ofBits hbits (unsignedBits_lt hfinite)
    have hserves : (Magnitude.ofFloat x).Serves d := hm.serves_shortest _
    have hpos : 0 < d.digits := hm.digits_pos hserves.nears
    obtain ⟨k, hk, hread⟩ := Json.Reader.numeral?_text hpoint
      (d := ⟨Magnitude.isNegative x, d.digits, d.exponent⟩) fun h => absurd h hpos.ne'
    exact ⟨_, hread, ofDecimal?_of_serves hfinite hbits hserves hk⟩

instance : LawfulWrittenScalar Float where
  readsBack _ h := readsBack_of_isFinite h

theorem isFinite_opposite (x : Float) : (-x).isFinite = x.isFinite := by
  have hneg : unpacked (-x) = (unpacked x).neg := unpacked_ofModel (stored_unpacked x).neg
  change (unpacked (-x)).isFinite = (unpacked x).isFinite
  rw [hneg]
  cases unpacked x <;> rfl

theorem isFinite_of_ofDecimal? {d : Decimal} {x : Float} (h : ofDecimal? d = some x) :
    x.isFinite := by
  unfold ofDecimal? at h
  dsimp only at h
  split at h
  · obtain rfl := Option.some.inj h
    split <;> rfl
  · split at h
    · cases h
    · split at h
      · next hfinite =>
        obtain rfl := Option.some.inj h
        split
        · exact (isFinite_opposite _).trans hfinite
        · exact hfinite
      · cases h

instance : LawfulReading Float where
  isFinite_of_ofDecimal? _ _ := isFinite_of_ofDecimal?

end RegionDrawing.Binary64
