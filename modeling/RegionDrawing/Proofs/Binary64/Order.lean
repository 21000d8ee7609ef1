import Mathlib
import RegionDrawing.Binary64.Scalar
import RegionDrawing.Proofs.Scalar.Order

/-! # The order of machine numbers

Machine numbers are compared in their unpacked form. Comparison is undecided exactly for undefined
numbers and turns around with its arguments, which gives the laws of scalars.
-/
namespace RegionDrawing.Binary64

open Float.Model (UnpackedFloat)

def unpacked (x : Float) : UnpackedFloat := x.toModel.unpack

theorem lt_iff (x y : Float) : x < y ↔ (unpacked x).compare (unpacked y) = some .lt := by
  have hmodel : x < y ↔ x.toModel < y.toModel := by
    show decide (x.toModel < y.toModel) = true ↔ _
    rw [decide_eq_true_iff]
  have hunpacked : x.toModel < y.toModel ↔ (unpacked x).lt (unpacked y) = true := Iff.rfl
  rw [hmodel, hunpacked, UnpackedFloat.lt, beq_iff_eq]

theorem le_iff (x y : Float) : x ≤ y ↔ ((unpacked x).compare (unpacked y)).any (·.isLE) := by
  have hmodel : x ≤ y ↔ x.toModel ≤ y.toModel := by
    show decide (x.toModel ≤ y.toModel) = true ↔ _
    rw [decide_eq_true_iff]
  exact hmodel

theorem compare_swap (a b : UnpackedFloat) : b.compare a = (a.compare b).map .swap := by
  cases a with
  | notANumber => cases b <;> rfl
  | infinity s =>
    cases b with
    | infinity t => cases s <;> cases t <;> rfl
    | _ => cases s <;> rfl
  | zero s =>
    cases b with
    | infinity t => cases t <;> rfl
    | finite t m e _ => cases t <;> rfl
    | _ => rfl
  | finite s m e _ =>
    cases b with
    | infinity t => cases s <;> cases t <;> rfl
    | zero t => cases s <;> rfl
    | notANumber => cases s <;> rfl
    | finite t m' e' _ =>
      have horder : (compare e' e).then (compare m' m) =
          ((compare e e').then (compare m m')).swap := by
        rw [Ordering.swap_then, Int.compare_swap, Nat.compare_swap]
      cases s <;> cases t <;> simp [UnpackedFloat.compare, horder]

theorem compare_eq_none_iff (a b : UnpackedFloat) :
    a.compare b = none ↔ a.isNaN ∨ b.isNaN := by
  cases a with
  | notANumber => simp [UnpackedFloat.compare, UnpackedFloat.isNaN]
  | infinity s => cases b <;> cases s <;> simp [UnpackedFloat.compare, UnpackedFloat.isNaN]
  | zero s =>
    cases b with
    | infinity t => cases t <;> simp [UnpackedFloat.compare, UnpackedFloat.isNaN]
    | finite t m e _ => cases t <;> simp [UnpackedFloat.compare, UnpackedFloat.isNaN]
    | _ => simp [UnpackedFloat.compare, UnpackedFloat.isNaN]
  | finite s m e _ =>
    cases b with
    | infinity t => cases s <;> cases t <;> simp [UnpackedFloat.compare, UnpackedFloat.isNaN]
    | finite t m' e' _ =>
      cases s <;> cases t <;> simp [UnpackedFloat.compare, UnpackedFloat.isNaN]
    | _ => cases s <;> simp [UnpackedFloat.compare, UnpackedFloat.isNaN]

theorem compare_self {a : UnpackedFloat} (h : a.isNaN = false) : a.compare a = some .eq := by
  cases horder : a.compare a with
  | none =>
    rw [compare_eq_none_iff, h] at horder
    simp at horder
  | some order =>
    have hswap := compare_swap a a
    rw [horder] at hswap
    cases order with
    | eq => rfl
    | lt => cases hswap
    | gt => cases hswap

theorem isUndefined_eq (x : Float) : Scalar.isUndefined x = (unpacked x).isNaN := by
  have hself : Scalar.isUndefined x = !((unpacked x).compare (unpacked x) == some .eq) := rfl
  rw [hself]
  cases h : (unpacked x).isNaN with
  | false => rw [compare_self h]; rfl
  | true => rw [(compare_eq_none_iff _ _).mpr (.inl h)]; rfl

theorem isFinite_eq (x : Float) : Scalar.isFinite x = (unpacked x).isFinite := rfl

instance : LawfulScalar Float where
  isFinite_zero := by decide +kernel
  isFinite_one := by decide +kernel
  zero_le_one := by decide +kernel
  le_self x h := by
    rw [isUndefined_eq] at h
    rw [le_iff, compare_self h]
    rfl
  isUndefined_of_isFinite x h := by
    rw [isFinite_eq] at h
    rw [isUndefined_eq]
    cases hx : unpacked x with
    | notANumber => simp [hx, UnpackedFloat.isFinite] at h
    | _ => rfl
  not_lt_of_isUndefined x y h := by
    rw [isUndefined_eq] at h
    rw [lt_iff, lt_iff, (compare_eq_none_iff _ _).mpr (.inl h),
      (compare_eq_none_iff _ _).mpr (.inr h)]
    exact ⟨nofun, nofun⟩
  le_of_not_lt x y hx hy h := by
    rw [isUndefined_eq] at hx hy
    rw [lt_iff] at h
    rw [le_iff, compare_swap (unpacked x)]
    cases horder : (unpacked x).compare (unpacked y) with
    | none => simp [compare_eq_none_iff, hx, hy] at horder
    | some order => cases order <;> simp_all
  isFinite_of_le x y z hx hz hxy hyz := by
    rw [isFinite_eq] at hx hz ⊢
    rw [le_iff] at hxy hyz
    cases hy : unpacked y with
    | notANumber =>
      rw [(compare_eq_none_iff _ _).mpr (.inr (by rw [hy]; rfl))] at hxy
      cases hxy
    | infinity s =>
      rw [hy] at hxy hyz
      cases s with
      | positive =>
        cases hz' : unpacked z <;> simp_all [UnpackedFloat.isFinite, UnpackedFloat.compare]
      | negative =>
        cases hx' : unpacked x with
        | finite t m e _ => cases t <;> simp_all [UnpackedFloat.isFinite, UnpackedFloat.compare]
        | _ => simp_all [UnpackedFloat.isFinite, UnpackedFloat.compare]
    | _ => rfl

theorem beq_eq (x y : Float) : (x == y) = ((unpacked x).compare (unpacked y) == some .eq) := rfl

theorem eq_or_zero_of_compare_eq {a b : UnpackedFloat} (h : a.compare b = some .eq) :
    a = b ∨ ∃ s t, a = .zero s ∧ b = .zero t := by
  cases a with
  | notANumber => cases h
  | infinity s =>
    cases b with
    | infinity t => cases s <;> cases t <;> first | exact .inl rfl | cases h
    | _ => cases s <;> cases h
  | zero s =>
    cases b with
    | zero t => exact .inr ⟨s, t, rfl, rfl⟩
    | infinity t | finite t => cases t <;> cases h
    | notANumber => cases h
  | finite s m e _ =>
    cases b with
    | finite t m' e' _ =>
      have hsame : (compare e e').then (compare m m') = .eq → e = e' ∧ m = m' := by
        intro horder
        obtain ⟨he, hm⟩ := Ordering.then_eq_eq.mp horder
        exact ⟨Int.compare_eq_eq.mp he, Nat.compare_eq_eq.mp hm⟩
      left
      cases s <;> cases t
      · have horder : ((compare e e').then (compare m m')).swap = .eq := Option.some.inj h
        obtain ⟨rfl, rfl⟩ := hsame (Ordering.swap_eq_eq.mp horder)
        rfl
      · cases h
      · cases h
      · obtain ⟨rfl, rfl⟩ := hsame (Option.some.inj h)
        rfl
    | infinity t => cases s <;> cases t <;> cases h
    | zero t => cases s <;> cases h
    | notANumber => cases s <;> cases h

theorem compare_congr {a b : UnpackedFloat} (h : a.compare b = some .eq) (c : UnpackedFloat) :
    a.compare c = b.compare c := by
  rcases eq_or_zero_of_compare_eq h with rfl | ⟨s, t, rfl, rfl⟩
  · rfl
  · cases c with
    | infinity r | finite r => cases r <;> rfl
    | _ => rfl

instance floatPartialEquivBEq : PartialEquivBEq Float where
  symm {x y} h := by
    rw [beq_eq, beq_iff_eq] at h ⊢
    rw [compare_swap (unpacked x), h]
    rfl
  trans {x y z} hxy hyz := by
    rw [beq_eq, beq_iff_eq] at hxy hyz ⊢
    rw [compare_congr hxy, hyz]

end RegionDrawing.Binary64
