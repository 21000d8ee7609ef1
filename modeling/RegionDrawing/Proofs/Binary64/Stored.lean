import Mathlib
import RegionDrawing.Proofs.Binary64.Bits
import RegionDrawing.Proofs.Binary64.Order

/-! # What machine numbers store

Bits stand for an infinity, for nothing, for a zero or for a sign with a canonical magnitude, and
what one of these is packed into stands for it again. The absolute value is in the bits without the
sign.
-/
namespace RegionDrawing.Binary64

open Float.Model UnpackedFloat

/-- The numbers that a machine number can have. -/
inductive Stored : UnpackedFloat → Prop where
  | infinity (sign : Sign) : Stored (.infinity sign)
  | notANumber : Stored .notANumber
  | zero (sign : Sign) : Stored (.zero sign)
  | finite (sign : Sign) {m : Magnitude} (hm : m.Canonical) :
      Stored (.finite sign m.significand m.exponent hm.pos)

theorem toNat_eq_sign (b : BitVec 64) :
    b.toNat = (Sign.ofBitVec (@unpackSign Format.binary64 b)).toBitVec.toNat * 2 ^ 63 +
      b.toNat % 2 ^ 63 := by
  have hsign : (Sign.ofBitVec (@unpackSign Format.binary64 b)).toBitVec.toNat =
      b.toNat / 2 ^ 63 := by
    rw [← toNat_unpackSign]
    generalize @unpackSign Format.binary64 b = s
    revert s
    decide
  rw [hsign]
  omega

theorem stored_unpack (b : BitVec 64) : Stored (UnpackedFloat.unpack Format.binary64 b) := by
  have hexponent := @toNat_unpackExponent b
  have hmantissa := @toNat_unpackMantissa b
  by_cases hfinite : 0 < b.toNat % 2 ^ 63 ∧ b.toNat % 2 ^ 63 < 2047 * 2 ^ 52
  · rw [unpack_eq_finite hfinite.1 hfinite.2 _ (toNat_eq_sign b)]
    exact .finite _ (Magnitude.canonical_ofBits hfinite.1 hfinite.2)
  · unfold UnpackedFloat.unpack
    dsimp only
    split
    · split
      · exact .infinity _
      · exact .notANumber
    · next hnot =>
      have hfield : b.toNat / 2 ^ 52 % 2 ^ 11 ≠ 2047 := by
        intro h
        apply hnot
        apply BitVec.eq_of_toNat_eq
        rw [hexponent, h]
        rfl
      have hzero : b.toNat % 2 ^ 63 = 0 := by omega
      have hexponent' : @unpackExponent Format.binary64 b = 0#11 := by
        apply BitVec.eq_of_toNat_eq
        rw [hexponent]
        change _ = 0
        omega
      have hmantissa' : @unpackMantissa Format.binary64 b = 0#52 := by
        apply BitVec.eq_of_toNat_eq
        rw [hmantissa]
        change _ = 0
        omega
      rw [if_pos hexponent', dif_pos hmantissa']
      exact .zero _

theorem unpack_pack_of_stored {u : UnpackedFloat} (h : Stored u) :
    (Float.Model.pack u).unpack = u := by
  cases h with
  | infinity sign => cases sign <;> rfl
  | notANumber => rfl
  | zero sign => cases sign <;> rfl
  | finite sign hm => exact unpack_pack hm sign

theorem stored_unpacked (x : Float) : Stored (unpacked x) := stored_unpack _

theorem unpacked_ofModel {u : UnpackedFloat} (h : Stored u) :
    unpacked (Float.ofModel (Float.Model.pack u)) = u := unpack_pack_of_stored h

theorem Stored.abs {u : UnpackedFloat} (h : Stored u) : Stored u.abs := by
  cases h with
  | infinity sign => exact .infinity _
  | notANumber => exact .notANumber
  | zero sign => exact .zero _
  | finite sign hm => exact .finite _ hm

theorem Stored.neg {u : UnpackedFloat} (h : Stored u) : Stored u.neg := by
  cases h with
  | infinity sign => exact .infinity _
  | notANumber => exact .notANumber
  | zero sign => exact .zero _
  | finite sign hm => exact .finite _ hm

theorem unpacked_abs (x : Float) : unpacked x.abs = (unpacked x).abs :=
  unpacked_ofModel (stored_unpacked x).abs

theorem abs_eq_of_unpacked {x y : Float} (h : (unpacked x).abs = (unpacked y).abs) :
    x.abs = y.abs := congrArg (fun u => Float.ofModel (Float.Model.pack u)) h

theorem abs_unpack_congr {b b' : BitVec 64} (h : b.toNat % 2 ^ 63 = b'.toNat % 2 ^ 63) :
    (UnpackedFloat.unpack Format.binary64 b).abs =
      (UnpackedFloat.unpack Format.binary64 b').abs := by
  have hexponent : @unpackExponent Format.binary64 b = @unpackExponent Format.binary64 b' := by
    apply BitVec.eq_of_toNat_eq
    rw [toNat_unpackExponent, toNat_unpackExponent]
    omega
  have hmantissa : @unpackMantissa Format.binary64 b = @unpackMantissa Format.binary64 b' := by
    apply BitVec.eq_of_toNat_eq
    rw [toNat_unpackMantissa, toNat_unpackMantissa]
    omega
  unfold UnpackedFloat.unpack
  simp only [hexponent, hmantissa]
  split
  · split <;> rfl
  · split
    · split <;> rfl
    · rfl

theorem unpacked_ofBits (bits : UInt64) :
    unpacked (Float.ofBits bits) = UnpackedFloat.unpack Format.binary64 bits.toBitVec :=
  unpack_pack_of_stored (stored_unpack bits.toBitVec)

theorem abs_copySign (x y : Float) : (copySign x y).abs = x.abs := by
  have hbits (sign : Nat) (hsign : sign = 2 ^ 63 ∨ sign = 0) :
      (UInt64.ofNat (sign + Magnitude.unsignedBits x)).toBitVec.toNat % 2 ^ 63 =
        x.toBits.toBitVec.toNat % 2 ^ 63 := by
    have hbit : Magnitude.signBit = 2 ^ 63 := by decide
    change (UInt64.ofNat _).toNat % 2 ^ 63 = x.toBits.toNat % 2 ^ 63
    rw [UInt64.toNat_ofNat', Magnitude.unsignedBits, hbit]
    omega
  apply abs_eq_of_unpacked
  unfold copySign
  rw [unpacked_ofBits]
  refine abs_unpack_congr (hbits _ ?_)
  split
  · exact .inl (by decide)
  · exact .inr rfl

end RegionDrawing.Binary64
