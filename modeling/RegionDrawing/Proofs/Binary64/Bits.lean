import Mathlib
import RegionDrawing.Binary64.Scalar

/-! # Bits of machine numbers

A finite number is made of a sign and a magnitude: both are found in its bits, and they determine
the number.
-/
namespace RegionDrawing.Binary64

open Float.Model UnpackedFloat

variable {b : BitVec 64}

theorem toNat_unpackMantissa : (@unpackMantissa Format.binary64 b).toNat = b.toNat % 2 ^ 52 := by
  simp [unpackMantissa, BitVec.extractLsb_toNat]

theorem toNat_unpackExponent :
    (@unpackExponent Format.binary64 b).toNat = b.toNat / 2 ^ 52 % 2 ^ 11 := by
  simp [unpackExponent, BitVec.extractLsb_toNat, Nat.shiftRight_eq_div_pow]

theorem toNat_unpackSign : (@unpackSign Format.binary64 b).toNat = b.toNat / 2 ^ 63 := by
  have hlt := b.isLt
  simp [unpackSign, BitVec.extractLsb_toNat, Nat.shiftRight_eq_div_pow]
  omega

theorem toNat_packComponents (sign : Sign) (exponent : BitVec 11) (mantissa : BitVec 52) :
    (packComponents Format.binary64 sign exponent mantissa).toNat =
      sign.toBitVec.toNat * 2 ^ 63 + exponent.toNat * 2 ^ 52 + mantissa.toNat := by
  have hmantissa := mantissa.isLt
  have hexponent := exponent.isLt
  unfold packComponents
  rw [BitVec.toNat_append, BitVec.toNat_append, ← Nat.shiftLeft_add_eq_or_of_lt hmantissa,
    ← Nat.shiftLeft_add_eq_or_of_lt hexponent, Nat.shiftLeft_eq, Nat.shiftLeft_eq]
  ring

namespace Magnitude

/-- Whether a magnitude is that of a finite machine number other than zero, in the form in which
the format stores it. -/
structure Canonical (m : Magnitude) : Prop where
  pos : 0 < m.significand
  lt : m.significand < 2 ^ 53
  least : -1074 ≤ m.exponent
  greatest : m.exponent ≤ 971
  normal : 2 ^ 52 ≤ m.significand ∨ m.exponent = -1074

def bits (m : Magnitude) : Nat :=
  if m.significand < 2 ^ 52 then m.significand
  else (m.exponent + 1075).toNat * 2 ^ 52 + (m.significand - 2 ^ 52)

theorem ofBits_of_lt {n : Nat} (h : n < 2 ^ 52) : ofBits n = ⟨n, -1074⟩ := by
  have hbit : leadingBit = 2 ^ 52 := by decide
  unfold ofBits
  rw [hbit, Nat.div_eq_of_lt h, Nat.mod_eq_of_lt h]
  rfl

theorem ofBits_of_le {n : Nat} (h : 2 ^ 52 ≤ n) :
    ofBits n = ⟨2 ^ 52 + n % 2 ^ 52, ((n / 2 ^ 52 : Nat) : Int) - 1075⟩ := by
  have hbit : leadingBit = 2 ^ 52 := by decide
  have hfield : n / 2 ^ 52 ≠ 0 := by omega
  unfold ofBits
  rw [hbit, if_neg hfield]

theorem bits_ofBits (n : Nat) : (ofBits n).bits = n := by
  unfold bits
  rcases Nat.lt_or_ge n (2 ^ 52) with h | h
  · rw [ofBits_of_lt h, if_pos h]
  · rw [ofBits_of_le h, if_neg (by dsimp only; omega)]
    dsimp only
    omega

theorem canonical_ofBits {n : Nat} (hpos : 0 < n) (hlt : n < 2047 * 2 ^ 52) :
    (ofBits n).Canonical := by
  rcases Nat.lt_or_ge n (2 ^ 52) with h | h
  · rw [ofBits_of_lt h]
    constructor <;> dsimp only <;> omega
  · rw [ofBits_of_le h]
    constructor <;> dsimp only <;> omega

theorem Canonical.ofBits_bits {m : Magnitude} (hm : m.Canonical) : ofBits m.bits = m := by
  obtain ⟨hpos, hlt, hleast, hgreatest, hnormal⟩ := hm
  unfold bits
  split
  · next h =>
    rw [ofBits_of_lt h, ← hnormal.resolve_left (by omega)]
  · next h =>
    rw [ofBits_of_le (by omega)]
    obtain ⟨significand, exponent⟩ := m
    simp only [mk.injEq]
    dsimp only at *
    omega

theorem Canonical.bits_lt {m : Magnitude} (hm : m.Canonical) : m.bits < 2047 * 2 ^ 52 := by
  obtain ⟨hpos, hlt, hleast, hgreatest, hnormal⟩ := hm
  unfold bits
  split <;> omega

theorem Canonical.bits_pos {m : Magnitude} (hm : m.Canonical) : 0 < m.bits := by
  obtain ⟨hpos, hlt, hleast, hgreatest, hnormal⟩ := hm
  unfold bits
  split <;> omega

end Magnitude

theorem toNat_pack {m : Magnitude} (hm : m.Canonical) (sign : Sign) :
    (UnpackedFloat.pack Format.binary64 (.finite sign m.significand m.exponent hm.pos)).toNat =
      sign.toBitVec.toNat * 2 ^ 63 + m.bits := by
  obtain ⟨hpos, hlt, hleast, hgreatest, hnormal⟩ := hm
  have hbias : (Format.binary64.exponentBias : Int) = 1023 := by decide
  have hbits : Format.binary64.mantissaBits = 53 := by decide
  have hfits : ¬ 2 ^ 11 ≤ (m.exponent + 1023 + 52).toNat + 1 := by omega
  have hlog : m.significand.log2 + 1 = 53 ↔ 2 ^ 52 ≤ m.significand := by
    rw [← Nat.le_log2 hpos.ne']
    have hlt' := (Nat.log2_lt hpos.ne').mpr hlt
    omega
  unfold UnpackedFloat.pack Magnitude.bits
  dsimp only
  rw [hbias, hbits, Nat.cast_ofNat, if_neg hfits]
  split
  · next hfull =>
    have hle := hlog.mp hfull
    rw [toNat_packComponents, BitVec.toNat_ofNat, BitVec.toNat_ofNat, if_neg (by omega)]
    omega
  · next hfull =>
    have hlt := fun hle => hfull (hlog.mpr hle)
    rw [toNat_packComponents, BitVec.toNat_ofNat, BitVec.toNat_ofNat, if_pos (by omega)]
    omega

theorem unpack_eq_finite {n : Nat} (hpos : 0 < n) (hlt : n < 2047 * 2 ^ 52) (sign : Sign)
    (hb : b.toNat = sign.toBitVec.toNat * 2 ^ 63 + n) :
    UnpackedFloat.unpack Format.binary64 b =
      .finite sign (Magnitude.ofBits n).significand (Magnitude.ofBits n).exponent
        (Magnitude.canonical_ofBits hpos hlt).pos := by
  have hsign : @unpackSign Format.binary64 b = sign.toBitVec := by
    apply BitVec.eq_of_toNat_eq
    rw [toNat_unpackSign, hb]
    omega
  have hexponent : (@unpackExponent Format.binary64 b).toNat = n / 2 ^ 52 := by
    rw [toNat_unpackExponent, hb]
    omega
  have hmantissa : (@unpackMantissa Format.binary64 b).toNat = n % 2 ^ 52 := by
    rw [toNat_unpackMantissa, hb]
    omega
  have hfinite : @unpackExponent Format.binary64 b ≠ -1#11 := by
    intro h
    have hall : (-1#11).toNat = 2047 := by decide
    rw [h, hall] at hexponent
    omega
  have hbias : (Format.binary64.exponentBias : Int) = 1023 := by decide
  have hzero : ∀ {w : Nat} (v : BitVec w), v = 0#w ↔ v.toNat = 0 := by
    intro w v
    rw [← BitVec.toNat_inj, BitVec.toNat_zero]
  unfold UnpackedFloat.unpack
  dsimp only
  rw [if_neg hfinite, hsign, Sign.ofBitVec_toBitVec]
  rcases Nat.lt_or_ge n (2 ^ 52) with h | h
  · rw [if_pos ((hzero _).mpr (by omega)), dif_neg (mt (hzero _).mp (by omega)),
      UnpackedFloat.finite.injEq, hmantissa, hexponent, Magnitude.ofBits_of_lt h]
    refine ⟨rfl, Nat.mod_eq_of_lt h, ?_⟩
    rw [hbias, Nat.div_eq_of_lt h]
    rfl
  · rw [if_neg (mt (hzero _).mp (by omega)), UnpackedFloat.finite.injEq, hexponent,
      BitVec.toNat_append, hmantissa, Magnitude.ofBits_of_le h]
    refine ⟨rfl, ?_, ?_⟩
    · rw [← Nat.shiftLeft_add_eq_or_of_lt (Nat.mod_lt n (by decide))]
      rfl
    · rw [hbias]
      dsimp only
      omega

def ofParts (sign : Sign) (m : Magnitude) (hm : m.Canonical) : Float :=
  Float.ofModel (Float.Model.pack (.finite sign m.significand m.exponent hm.pos))

theorem unpack_pack {m : Magnitude} (hm : m.Canonical) (sign : Sign) :
    (Float.Model.pack (.finite sign m.significand m.exponent hm.pos)).unpack =
      .finite sign m.significand m.exponent hm.pos := by
  have hunpack := unpack_eq_finite hm.bits_pos hm.bits_lt sign (toNat_pack hm sign)
  simp only [hm.ofBits_bits] at hunpack
  exact hunpack

theorem isFinite_ofParts (sign : Sign) {m : Magnitude} (hm : m.Canonical) :
    (ofParts sign m hm).isFinite := by
  change (Float.Model.pack (.finite sign m.significand m.exponent hm.pos)).unpack.isFinite = true
  rw [unpack_pack hm]
  rfl

theorem neg_ofParts {m : Magnitude} (hm : m.Canonical) :
    -ofParts .positive m hm = ofParts .negative m hm := by
  change Float.ofModel (Float.Model.pack
    (Float.Model.pack (.finite .positive m.significand m.exponent hm.pos)).unpack.neg) = _
  rw [unpack_pack hm]
  rfl

theorem eq_of_toBits {x y : Float} (h : x.toBits.toNat = y.toBits.toNat) : x = y := by
  obtain ⟨⟨bits, _⟩⟩ := x
  obtain ⟨⟨bits', _⟩⟩ := y
  have hbits : bits = bits' := UInt64.toNat_inj.mp h
  subst hbits
  rfl

def signOf (x : Float) : Sign := if Magnitude.isNegative x then .negative else .positive

theorem toNat_toBits (x : Float) :
    x.toBits.toNat = (signOf x).toBitVec.toNat * 2 ^ 63 + Magnitude.unsignedBits x := by
  have hlt : x.toBits.toNat < 2 ^ 64 := x.toBits.toNat_lt
  have hbit : Magnitude.signBit = 2 ^ 63 := by decide
  unfold signOf Magnitude.isNegative Magnitude.unsignedBits
  rw [hbit]
  by_cases h : 2 ^ 63 ≤ x.toBits.toNat
  · simp only [h, decide_true, ↓reduceIte]
    change _ = 1 * 2 ^ 63 + _
    omega
  · simp only [h, decide_false]
    change _ = 0 * 2 ^ 63 + _
    omega

theorem eq_ofParts {x : Float} (hpos : 0 < Magnitude.unsignedBits x)
    (hlt : Magnitude.unsignedBits x < 2047 * 2 ^ 52) :
    x = ofParts (signOf x) (Magnitude.ofFloat x) (Magnitude.canonical_ofBits hpos hlt) := by
  apply eq_of_toBits
  rw [toNat_toBits x]
  refine Eq.symm ((toNat_pack (Magnitude.canonical_ofBits hpos hlt) (signOf x)).trans ?_)
  rw [Magnitude.bits_ofBits]

theorem unsignedBits_lt {x : Float} (h : x.isFinite) :
    Magnitude.unsignedBits x < 2047 * 2 ^ 52 := by
  have hbits := toNat_toBits x
  have hlt : Magnitude.unsignedBits x < 2 ^ 63 := Nat.mod_lt _ (by decide)
  by_contra hge
  have hexponent : @unpackExponent Format.binary64 x.toBits.toBitVec = -1#11 := by
    apply BitVec.eq_of_toNat_eq
    rw [toNat_unpackExponent]
    change x.toBits.toNat / 2 ^ 52 % 2 ^ 11 = 2047
    omega
  have hunpacked : (UnpackedFloat.unpack Format.binary64 x.toBits.toBitVec).isFinite = true := h
  unfold UnpackedFloat.unpack at hunpacked
  dsimp only at hunpacked
  rw [if_pos hexponent] at hunpacked
  split at hunpacked <;> cases hunpacked

theorem eq_zero_of_ofFloat {x : Float} (h : (Magnitude.ofFloat x).significand = 0) :
    x = if Magnitude.isNegative x then -0.0 else 0.0 := by
  have hzero : Magnitude.unsignedBits x = 0 := by
    unfold Magnitude.ofFloat at h
    rcases Nat.lt_or_ge (Magnitude.unsignedBits x) (2 ^ 52) with hlt | hge
    · rw [Magnitude.ofBits_of_lt hlt] at h
      exact h
    · rw [Magnitude.ofBits_of_le hge] at h
      dsimp only at h
      omega
  have hbits := toNat_toBits x
  have hpositive : (0.0 : Float).toBits.toNat = 0 := by decide +kernel
  have hnegative : (-0.0 : Float).toBits.toNat = 2 ^ 63 := by decide +kernel
  rw [hzero] at hbits
  refine eq_of_toBits (hbits.trans ?_)
  unfold signOf
  split
  · rw [hnegative]
    rfl
  · rw [hpositive]
    rfl

end RegionDrawing.Binary64
