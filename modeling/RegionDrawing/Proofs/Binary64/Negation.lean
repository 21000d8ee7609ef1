import Mathlib
import RegionDrawing.Proofs.Binary64.Sums

/-! # Rounding and signs

Rounding looks at magnitudes only. So differences that are taken the other way round are each
other's negatives, except that equal numbers give the same zero, and adding the one is the same as
subtracting the other up to the sign of a zero.
-/
namespace RegionDrawing.Binary64

open Float.Model UnpackedFloat

variable {u v w : UnpackedFloat}

theorem neg_neg_unpacked (u : UnpackedFloat) : u.neg.neg = u := by
  have hsign (s : Sign) : - -s = s := by cases s <;> rfl
  cases u with
  | notANumber => rfl
  | infinity s | zero s | finite s m e hm => simp only [UnpackedFloat.neg, hsign]

theorem neg_roundWithAccuracy (s : Sign) (n : Nat) (e : Int) (accuracy : Accuracy) :
    (roundWithAccuracy Format.binary64 s n e accuracy).neg =
      roundWithAccuracy Format.binary64 (-s) n e accuracy := by
  simp only [roundWithAccuracy]
  split <;> rfl

theorem neg_round (s : Sign) (n : Nat) (e : Int) :
    (UnpackedFloat.round Format.binary64 s n e).neg =
      UnpackedFloat.round Format.binary64 (-s) n e := neg_roundWithAccuracy _ _ _ _

theorem neg_mul_unpacked (u v : UnpackedFloat) :
    UnpackedFloat.mul Format.binary64 u.neg v = (UnpackedFloat.mul Format.binary64 u v).neg := by
  have hsign (s t : Sign) : -s * t = -(s * t) := by cases s <;> cases t <;> rfl
  cases u with
  | notANumber => rfl
  | infinity s | zero s =>
    cases v with
    | notANumber => rfl
    | infinity t | zero t | finite t =>
      simp only [UnpackedFloat.mul, UnpackedFloat.neg, hsign]
  | finite s =>
    cases v with
    | notANumber => rfl
    | infinity t | zero t => simp only [UnpackedFloat.mul, UnpackedFloat.neg, hsign]
    | finite t =>
      simp only [UnpackedFloat.mul, UnpackedFloat.neg, hsign]
      exact (neg_roundWithAccuracy _ _ _ _).symm

theorem unpack_packComponents_neg (s : Sign) (exponent : BitVec Format.binary64.exponentBits)
    (mantissa : BitVec Format.binary64.mantissaBitsWithoutImplicit) :
    UnpackedFloat.unpack Format.binary64
        (packComponents Format.binary64 (-s) exponent mantissa) =
      (UnpackedFloat.unpack Format.binary64
        (packComponents Format.binary64 s exponent mantissa)).neg := by
  unfold UnpackedFloat.unpack
  simp only [unpackExponent_packComponents, unpackMantissa_packComponents,
    unpackSign_packComponents, Sign.ofBitVec_toBitVec]
  split
  · split <;> rfl
  · split
    · split <;> rfl
    · rfl

theorem unpack_pack_neg (u : UnpackedFloat) :
    (Float.Model.pack u.neg).unpack = (Float.Model.pack u).unpack.neg := by
  cases u with
  | notANumber => rfl
  | infinity s | zero s => cases s <;> rfl
  | finite s m e hm =>
    show UnpackedFloat.unpack Format.binary64
        (UnpackedFloat.pack Format.binary64 (.finite (-s) m e hm)) =
      (UnpackedFloat.unpack Format.binary64
        (UnpackedFloat.pack Format.binary64 (.finite s m e hm))).neg
    simp only [UnpackedFloat.pack]
    split
    · cases s <;> rfl
    · split <;> exact unpack_packComponents_neg _ _ _

/-- Numbers that are each other's negatives, up to the sign of zero. -/
def Opposite (u v : UnpackedFloat) : Prop := v = u.neg ∨ ∃ s t, u = .zero s ∧ v = .zero t

theorem opposite_normalize (n e : Int) (zeroSign : Sign) :
    Opposite (UnpackedFloat.normalize Format.binary64 n e zeroSign)
      (UnpackedFloat.normalize Format.binary64 (-n) e zeroSign) := by
  rcases eq_or_ne n 0 with rfl | hne
  · exact .inr ⟨zeroSign, zeroSign, rfl, rfl⟩
  · left
    obtain ⟨s, k, hpos, rfl⟩ := exists_apply hne
    rw [← apply_neg, normalize_apply _ hpos, normalize_apply _ hpos, neg_round]

theorem opposite_sub (u v : UnpackedFloat) :
    Opposite (UnpackedFloat.sub Format.binary64 u v) (UnpackedFloat.sub Format.binary64 v u) := by
  cases u with
  | notANumber => cases v <;> exact .inl rfl
  | infinity s =>
    cases v with
    | infinity t => cases s <;> cases t <;> exact .inl rfl
    | _ => exact .inl rfl
  | zero s =>
    cases v with
    | zero t => cases s <;> cases t <;> exact .inr ⟨_, _, rfl, rfl⟩
    | infinity t | finite t => cases t <;> exact .inl rfl
    | notANumber => exact .inl rfl
  | finite s m e =>
    cases v with
    | finite t m' e' =>
      simp only [UnpackedFloat.sub, decreaseExponent, min_comm e' e]
      rw [← neg_sub (s.apply _) (t.apply _)]
      exact opposite_normalize _ _ _
    | infinity t => cases t <;> exact .inl rfl
    | _ => exact .inl rfl

theorem Opposite.mul (h : Opposite u v) (w : UnpackedFloat) :
    Opposite (UnpackedFloat.mul Format.binary64 u w) (UnpackedFloat.mul Format.binary64 v w) := by
  rcases h with rfl | ⟨s, t, rfl, rfl⟩
  · exact .inl (neg_mul_unpacked u w)
  · cases w with
    | notANumber | infinity => exact .inl rfl
    | zero r | finite r => exact .inr ⟨_, _, rfl, rfl⟩

theorem Opposite.stored (h : Opposite u v) :
    Opposite (Float.Model.pack u).unpack (Float.Model.pack v).unpack := by
  rcases h with rfl | ⟨s, t, rfl, rfl⟩
  · exact .inl (unpack_pack_neg u)
  · exact .inr ⟨s, t, unpack_pack_of_stored (.zero s), unpack_pack_of_stored (.zero t)⟩

theorem Opposite.add_sub (h : Opposite u v) (w : UnpackedFloat) :
    UnpackedFloat.add Format.binary64 w u = UnpackedFloat.sub Format.binary64 w v ∨
      ∃ s t, UnpackedFloat.add Format.binary64 w u = .zero s ∧
        UnpackedFloat.sub Format.binary64 w v = .zero t := by
  rcases h with rfl | ⟨s, t, rfl, rfl⟩
  · left
    rw [sub_eq_add_neg, neg_neg_unpacked]
  · cases w with
    | zero r =>
      right
      cases r <;> cases s <;> cases t <;> exact ⟨_, _, rfl, rfl⟩
    | _ => exact .inl rfl

/-- Adding a multiple of a difference is subtracting that of the opposite difference, up to the
sign of a zero. -/
theorem add_mul_sub (a b c k : Float) :
    a + (b - c) * k = a - (c - b) * k ∨ a + (b - c) * k == a - (c - b) * k := by
  have hdifferences : Opposite (unpacked (b - c)) (unpacked (c - b)) := (opposite_sub _ _).stored
  have hmultiples : Opposite (unpacked ((b - c) * k)) (unpacked ((c - b) * k)) :=
    (hdifferences.mul _).stored
  rcases hmultiples.add_sub (unpacked a) with heq | ⟨s, t, hsum, hdifference⟩
  · left
    exact congrArg (fun u => Float.ofModel (Float.Model.pack u)) heq
  · right
    rw [beq_eq, unpacked_add hsum (.zero s), unpacked_sub hdifference (.zero t)]
    rfl

end RegionDrawing.Binary64
