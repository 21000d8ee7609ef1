import RegionDrawing.Proofs.Binary64.Stored

/-! # Lengths of machine numbers

Rounding may lead beyond the largest machine number but never to an undefined one. So the distance
between finite points is a number, if only an infinite one.
-/
namespace RegionDrawing.Binary64

open Float.Model UnpackedFloat

theorem isNaN_unpack {b : BitVec 64} (h : b.toNat % 2 ^ 63 ≤ 2047 * 2 ^ 52) :
    (UnpackedFloat.unpack Format.binary64 b).isNaN = false := by
  unfold UnpackedFloat.unpack
  dsimp only
  split
  · next hexponent =>
    have hall : (-1#11).toNat = 2047 := by decide
    have hfield := congrArg BitVec.toNat hexponent
    change (@unpackExponent Format.binary64 b).toNat = (-1#11).toNat at hfield
    rw [toNat_unpackExponent, hall] at hfield
    have hmantissa : @unpackMantissa Format.binary64 b = 0#52 := by
      apply BitVec.eq_of_toNat_eq
      rw [toNat_unpackMantissa]
      change _ = 0
      omega
    rw [if_pos hmantissa]
    rfl
  · split
    · split <;> rfl
    · rfl

/-- What a number is packed into stands for a number, be it the right one or an infinity. -/
theorem isNaN_unpack_pack {u : UnpackedFloat} (h : u.isNaN = false) :
    (Float.Model.pack u).unpack.isNaN = false := by
  apply isNaN_unpack (b := UnpackedFloat.pack Format.binary64 u)
  cases u with
  | notANumber => cases h
  | infinity sign => cases sign <;> decide
  | zero sign => cases sign <;> decide
  | finite sign m e hm =>
    have hinfinity : (packedInfinity Format.binary64 sign).toNat % 2 ^ 63 ≤ 2047 * 2 ^ 52 := by
      cases sign <;> decide
    have hparts : ∀ (exponent : BitVec 11) (mantissa : BitVec 52), exponent.toNat < 2047 →
        (packComponents Format.binary64 sign exponent mantissa).toNat % 2 ^ 63 ≤
          2047 * 2 ^ 52 := by
      intro exponent mantissa hexponent
      rw [toNat_packComponents]
      omega
    unfold UnpackedFloat.pack
    dsimp only
    split
    · exact hinfinity
    · next hfits =>
      split
      · apply hparts
        rw [BitVec.toNat_ofNat]
        change ¬ 2 ^ 11 ≤ _ at hfits
        omega
      · exact hparts _ _ (by decide)

theorem isNaN_normalize (m e : Int) (zeroSign : Sign) :
    (UnpackedFloat.normalize Format.binary64 m e zeroSign).isNaN = false := by
  have hround : ∀ sign n e, (UnpackedFloat.round Format.binary64 sign n e).isNaN = false := by
    intro sign n e
    unfold UnpackedFloat.round roundWithAccuracy
    dsimp only
    split <;> rfl
  unfold UnpackedFloat.normalize
  split
  · exact hround _ _ _
  · rfl
  · exact hround _ _ _

theorem isNaN_sub {u v : UnpackedFloat} (hu : u.isFinite) (hv : v.isFinite) :
    (UnpackedFloat.sub Format.binary64 u v).isNaN = false := by
  cases u with
  | notANumber | infinity => cases hu
  | zero s =>
    cases v with
    | notANumber | infinity => cases hv
    | zero t => cases s <;> cases t <;> rfl
    | finite => rfl
  | finite s m e =>
    cases v with
    | notANumber | infinity => cases hv
    | zero => rfl
    | finite t n f => exact isNaN_normalize _ _ _

theorem isUndefined_round (m : Magnitude) : Scalar.isUndefined m.round = false := by
  have hbits : m.roundBits ≤ 2047 * 2 ^ 52 := by
    have hbit : Magnitude.leadingBit = 2 ^ 52 := by decide
    unfold Magnitude.roundBits
    split
    · exact Nat.zero_le _
    · rw [hbit]
      exact min_le_right _ _
  rw [isUndefined_eq, Magnitude.round, unpacked_ofBits]
  apply isNaN_unpack
  change (UInt64.ofNat _).toNat % 2 ^ 63 ≤ _
  rw [UInt64.toNat_ofNat']
  omega

instance : LawfulLengths Float where
  isUndefined_sub x y hx hy := by
    rw [isUndefined_eq]
    exact isNaN_unpack_pack (isNaN_sub hx hy)
  isUndefined_hypot x y hx hy := by
    have hx' : x.isNaN = false := (isUndefined_eq x).symm.trans hx
    have hy' : y.isNaN = false := (isUndefined_eq y).symm.trans hy
    change Scalar.isUndefined (hypot x y) = false
    rw [hypot, hx', hy']
    split
    · decide +kernel
    · exact isUndefined_round _

end RegionDrawing.Binary64
