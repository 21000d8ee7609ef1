import Mathlib
import RegionDrawing.Proofs.Geometry.Curve
import RegionDrawing.Proofs.Json.Tree
import RegionDrawing.Proofs.Session.Drag

/-! # Sizes of sampled curves

A path is measured by a list of samples whose size is computed with 64 bits. Settings may ask for
any positive number of samples per span that 64 bits can hold, so the size of the list may not fit.
-/
namespace RegionDrawing

namespace Json

theorem Tree.unsigned64?_num_iff {n : Numeral} {k : Nat} :
    (num n).unsigned64? = some k ↔ n.int? = some (k : Int) ∧ k < 2 ^ 64 := by
  have hsize : (UInt64.size : Int) = 2 ^ 64 := by decide
  rw [unsigned64?, hsize]
  simp only [Option.map_eq_some_iff, Option.filter_eq_some_iff, Bool.and_eq_true,
    decide_eq_true_eq]
  constructor
  · rintro ⟨i, ⟨hint, hnonneg, hlt⟩, rfl⟩
    obtain ⟨j, rfl⟩ := Int.eq_ofNat_of_zero_le hnonneg
    exact ⟨hint, by exact_mod_cast hlt⟩
  · rintro ⟨hint, hlt⟩
    exact ⟨k, ⟨hint, by omega, by exact_mod_cast hlt⟩, rfl⟩

theorem Tree.lt_of_unsigned64? {tree : Tree} {k : Nat}
    (h : tree.unsigned64? = some k) : k < 2 ^ 64 := by
  cases tree with
  | num n => exact (unsigned64?_num_iff.mp h).2
  | _ => cases h

variable {α : Type} [WrittenScalar α]

theorem unsigned64?_natCast (k : Nat) :
    (int k : Json α).tree.unsigned64? = if k < 2 ^ 64 then some k else none := by
  apply Option.ext
  intro n
  rw [tree, Tree.unsigned64?_num_iff, Numeral.int?_int, Option.some_inj,
    Nat.cast_inj, Option.ite_none_right_eq_some, Option.some_inj, and_comm]
  exact and_congr_left fun h => by rw [h]

theorem chars_natCast (k : Nat) : (int k : Json α).chars = (toString k).toList := by
  have hneg : ¬ (k : Int) < 0 := by omega
  rw [chars, if_neg hneg]
  exact (String.toList_ofList (l := Nat.toDigits 10 k)).symm

end Json

namespace Settings

section
variable {α : Type} [WrittenScalar α] {s : Settings α} {k : Nat}

theorem splineSamples_lt_of_ofTree? {tree : Json.Tree} (h : ofTree? tree = some s) :
    s.splineSamples < 2 ^ 64 := by
  simp only [ofTree?, Option.bind_eq_bind, Option.bind_eq_some_iff] at h
  obtain ⟨fields, -, h⟩ := h
  split at h
  · simp only [Option.bind_eq_some_iff, Option.some.injEq] at h
    obtain ⟨_, _, _, _, _, _, _, _, _, _, samples, hsamples, _, _, _, _, _, _, rfl⟩ := h
    show samples < 2 ^ 64
    unfold Json.defaulted at hsamples
    split at hsamples
    · obtain rfl := Option.some.inj hsamples
      exact (by decide : 16 < 2 ^ 64)
    · exact Json.Tree.lt_of_unsigned64? hsamples
  · cases h

theorem validated_eq_ok_iff {t : Settings α} :
    s.validated = .ok t ↔ s.fault? = none ∧ s = t := by
  unfold validated
  split
  · next fault hfault => simp [hfault]
  · next hnone => simp [hnone]

theorem splineSamples_pos_of_fault? (h : s.fault? = none) : 1 ≤ s.splineSamples := by
  rw [fault?_eq_none_iff] at h
  simp only [checks, List.forall_mem_cons, bne_iff_ne] at h
  obtain ⟨_, _, _, _, _, _, _, _, _, hsamples, _⟩ := h
  exact Nat.one_le_iff_ne_zero.mpr hsamples

theorem splineSamples_of_ofText {text : String} (h : ofText text = .ok s) :
    1 ≤ s.splineSamples ∧ s.splineSamples < 2 ^ 64 := by
  unfold ofText at h
  split at h
  · next settings hread =>
    obtain ⟨hfault, rfl⟩ := validated_eq_ok_iff.mp h
    obtain ⟨tree, -, hsettings⟩ := Option.bind_eq_some_iff.mp hread
    exact ⟨splineSamples_pos_of_fault? hfault, splineSamples_lt_of_ofTree? hsettings⟩
  · cases h

/-- The text of settings that give nothing but a number of samples. -/
def samplesText (k : Nat) : String := r#"{"spline_samples":"# ++ toString k ++ r"}"

theorem samplesText_eq (k : Nat) :
    samplesText k = (Json.obj [("spline_samples", .int k)] : Json α).text := by
  have hopen : '{' :: Json.quote "spline_samples" ++ [':'] =
      r#"{"spline_samples":"#.toList := by decide
  have hclose : ['}'] = r"}".toList := by decide
  have hchars : (Json.obj [("spline_samples", .int k)] : Json α).chars =
      ('{' :: Json.quote "spline_samples" ++ [':']) ++ (Json.int k : Json α).chars ++
        ['}'] := by
    simp only [Json.chars, Json.membersChars, List.append_assoc, List.cons_append,
      List.nil_append]
  rw [Json.text, hchars, hopen, hclose, Json.chars_natCast]
  simp only [String.ofList_append, String.ofList_toList]
  rfl

theorem ofTree?_of_samples {tree value : Json.Tree}
    (h : tree.fields? fieldNames .refused =
      some [none, none, none, none, none, some value, none, none, none]) :
    ofTree? tree =
      value.unsigned64?.map fun k => { (default : Settings α) with splineSamples := k } := by
  simp only [ofTree?, h, Option.bind_eq_bind, Option.bind_some, Json.defaulted]
  cases value.unsigned64? <;> rfl

theorem fields?_samples (k : Nat) :
    (Json.obj [("spline_samples", .int k)] : Json α).tree.fields? fieldNames .refused =
      some [none, none, none, none, none, some (Json.int k : Json α).tree, none, none, none] := rfl

theorem parse?_samplesText (k : Nat) :
    (Json.Tree.parse? (samplesText k) >>= ofTree? : Option (Settings α)) =
      if k < 2 ^ 64 then some { (default : Settings α) with splineSamples := k } else none := by
  have hreadable : (Json.obj [("spline_samples", .int k)] : Json α).Readable := ⟨trivial, trivial⟩
  rw [samplesText_eq (α := α), Json.parse?_text _ hreadable, Option.bind_eq_bind,
    Option.bind_some, ofTree?_of_samples (fields?_samples k), Json.unsigned64?_natCast]
  split <;> rfl

theorem ofText_samplesText_iff (hdefault : (default : Settings α).fault? = none) :
    ofText (samplesText k) = .ok s ↔
      (1 ≤ k ∧ k < 2 ^ 64) ∧ { (default : Settings α) with splineSamples := k } = s := by
  have hfault : ({ (default : Settings α) with splineSamples := k } : Settings α).fault? = none ↔
      1 ≤ k := by
    rw [fault?_eq_none_iff] at hdefault ⊢
    simp only [checks, List.forall_mem_cons] at hdefault ⊢
    obtain ⟨h₁, h₂, h₃, h₄, h₅, h₆, h₇, h₈, h₉, -⟩ := hdefault
    simp [h₁, h₂, h₃, h₄, h₅, h₆, h₇, h₈, h₉, Nat.one_le_iff_ne_zero]
  unfold ofText
  rw [parse?_samplesText]
  by_cases hlt : k < 2 ^ 64
  · simp only [hlt, if_true, validated_eq_ok_iff, hfault, and_true]
  · simp only [hlt, if_false, and_false, false_and, reduceCtorEq]

theorem fault?_default_float : (default : Settings Float).fault? = none := by
  rw [fault?_eq_none_iff]
  decide +kernel

end

end Settings

namespace PolylineDrawer

open Spline

section
variable {α : Type} [Scalar α] (settings : Settings α) (outline : Outline α)

/-- The size that is computed for the samples of a path. -/
def sampledSize : Nat :=
  sampleCount (spanCount outline.points.length (wraps outline.points outline.closed))
    settings.splineSamples

variable {settings}

omit [Scalar α] in
theorem sampledSize_eq (h : 1 ≤ settings.splineSamples) :
    sampledSize settings outline =
      spanCount outline.points.length (wraps outline.points outline.closed) *
        settings.splineSamples + 1 := by
  rw [sampledSize, sampleCount, stepCount, Nat.max_eq_left h]

theorem sampledSize_lt_iff (h : 1 ≤ settings.splineSamples) :
    sampledSize settings outline < 2 ^ 64 ↔
      (spans outline.points outline.closed settings.splineTension).length *
        settings.splineSamples < 2 ^ 64 - 1 := by
  rw [sampledSize_eq outline h, length_spans]
  omega

/-- With the joined path of the most points, all paths fit. -/
theorem forall_sampledSize_lt_iff (h : 1 ≤ settings.splineSamples) {n : Nat} (hn : 3 ≤ n) :
    (∀ outline : Outline α, outline.points.length ≤ n → sampledSize settings outline < 2 ^ 64) ↔
      n * settings.splineSamples < 2 ^ 64 - 1 := by
  constructor
  · intro hfits
    have hlength : (List.replicate n (Point.origin : Point α)).length = n := List.length_replicate
    have hcount := spanCount_wraps (hlength.symm ▸ (by omega : 2 ≤ n)) true
    have hlt := hfits ⟨List.replicate n Point.origin, true⟩ hlength.le
    rw [sampledSize_eq _ h, hcount, hlength, if_pos ⟨rfl, hn⟩] at hlt
    omega
  · intro hlt outline hle
    have hcount : spanCount outline.points.length (wraps outline.points outline.closed) ≤ n :=
      (spanCount_le _ _).trans hle
    have hproduct := Nat.mul_le_mul_right settings.splineSamples hcount
    rw [sampledSize_eq outline h]
    omega

end

/-- Settings that are read have a positive number of samples that 64 bits hold, and the curve that
bounds a path of two or more points is a list of the size that is computed for it. 64 bits hold
that size exactly if the number of spans times the number of samples stays below their largest
number; and they hold it for all paths of up to some number of points exactly if that number of
points times the number of samples stays below it. -/
theorem sampledSize_fits_iff {α : Type} [WrittenScalar α] {text : String} {settings : Settings α}
    (h : Settings.ofText text = .ok settings) :
    (1 ≤ settings.splineSamples ∧ settings.splineSamples < 2 ^ 64) ∧
    (∀ (element : Element α) (outline : Outline α), element.shape = .path outline →
      let curve := sample outline.points outline.closed settings.splineTension
        settings.splineSamples
      bounds settings element = Rect.enclosing curve ∧
      (2 ≤ outline.points.length → curve.length = sampledSize settings outline) ∧
      (sampledSize settings outline < 2 ^ 64 ↔
        (spans outline.points outline.closed settings.splineTension).length *
          settings.splineSamples < 2 ^ 64 - 1)) ∧
    ∀ n, 3 ≤ n →
      ((∀ outline : Outline α, outline.points.length ≤ n →
          sampledSize settings outline < 2 ^ 64) ↔
        n * settings.splineSamples < 2 ^ 64 - 1) := by
  have hpos := (Settings.splineSamples_of_ofText h).1
  refine ⟨Settings.splineSamples_of_ofText h, ?_, fun n hn => forall_sampledSize_lt_iff hpos hn⟩
  intro element outline hshape curve
  refine ⟨?_, fun htwo => length_sample htwo _ _ _, sampledSize_lt_iff outline hpos⟩
  rw [bounds, hshape]

/-- Thirty-two samples per span fit for every path whose points, of sixteen bytes each, are
addressed with 63 bits. -/
theorem thirty_two_samples_fit :
    ∃ settings : Settings Float,
      Settings.ofText (Settings.samplesText 32) = .ok settings ∧
      ∀ outline : Outline Float, outline.points.length ≤ 2 ^ 59 - 1 →
        sampledSize settings outline < 2 ^ 64 := by
  have h := (Settings.ofText_samplesText_iff (k := 32) Settings.fault?_default_float).mpr
    ⟨by decide, rfl⟩
  obtain ⟨-, -, hfits⟩ := sampledSize_fits_iff h
  exact ⟨_, h, (hfits (2 ^ 59 - 1) (by norm_num)).mpr (by norm_num)⟩

/-- The largest number of samples is read, and does not fit for a path between two points. -/
theorem largest_count_overflows :
    let text := r#"{"spline_samples":18446744073709551615}"#
    let path : Outline Float := ⟨[⟨0, 0⟩, ⟨1, 1⟩], false⟩
    ∃ settings : Settings Float,
      Settings.ofText text = .ok settings ∧ sampledSize settings path = 2 ^ 64 := by
  intro text path
  have htext : text = Settings.samplesText (2 ^ 64 - 1) := by decide +kernel
  have hcount : 1 ≤ 2 ^ 64 - 1 ∧ 2 ^ 64 - 1 < 2 ^ 64 := by norm_num
  have h := (Settings.ofText_samplesText_iff Settings.fault?_default_float).mpr ⟨hcount, rfl⟩
  have hspans : spanCount path.points.length (wraps path.points path.closed) = 1 := rfl
  refine ⟨_, htext ▸ h, ?_⟩
  rw [sampledSize_eq path hcount.1, hspans]
  norm_num

end PolylineDrawer

end RegionDrawing
