import AudioCatalog.Pcm.Basic
import AudioCatalog.Proofs.Number.Patterns
import Mathlib.Data.List.Forall2

/-!
# Samples of 32 bits

What the samples of each format are as signed 32-bit integers.  A 16-bit sample fills the upper
half, a 32-bit one stays as it is, and a floating-point one is brought to the nearest integer once
it is scaled: a number in the middle goes away from zero, and what is outside the range goes to
its end, so that the order of samples is kept.  `SampleList.StandsFor` says so of two lists, sample
by sample and without computing one from the other; a list stands for its canonical samples.
-/

namespace AudioCatalog

open FloatFormat (binary32)

/-! ## The sample of a floating-point value -/

/-- Which sample a floating-point value is brought to. -/
inductive CanonicalSample : FloatValue → Int → Prop
  | nan : CanonicalSample .nan 0
  | belowAll : CanonicalSample (.infinite true) (-2147483648)
  | aboveAll : CanonicalSample (.infinite false) 2147483647
  | finite {value : Rat} {nearest : Int}
      (h : Rounding.IsNearestAway (value * 2147483648) nearest) :
      CanonicalSample (.finite value) (max (-2147483648) (min 2147483647 nearest))

theorem Rounding.clamp_eq {low high : Int} (hle : low ≤ high) (n : Int) :
    clamp low high n = max low (min high n) := by
  rw [clamp]
  split
  · omega
  · split <;> omega

/-- A sample in the range is not changed by writing it with 32 bits. -/
theorem toInt_ofInt_clamp (n : Int) :
    (Int32.ofInt (max (-2147483648) (min 2147483647 n))).toInt =
      max (-2147483648) (min 2147483647 n) :=
  Int32.toInt_ofInt_of_le (by omega) (by omega)

section Patterns

variable {pattern : UInt32}

theorem canonicalFloat_nan (h : binary32.decode pattern.toNat = .nan) :
    canonicalFloat pattern = 0 := by
  rw [canonicalFloat, h]

theorem toInt_canonicalFloat_infinite {negative : Bool}
    (h : binary32.decode pattern.toNat = .infinite negative) :
    (canonicalFloat pattern).toInt = if negative then -2147483648 else 2147483647 := by
  rw [canonicalFloat, h]
  cases negative <;> rfl

theorem toInt_canonicalFloat_finite {value : Rat}
    (h : binary32.decode pattern.toNat = .finite value) :
    (canonicalFloat pattern).toInt =
      max (-2147483648) (min 2147483647 (Rounding.halfAway (value * 2147483648))) := by
  have hscale : mkRat 2147483648 1 = 2147483648 := Rat.mkRat_one ..
  rw [canonicalFloat, h]
  simp only [sampleRange, hscale]
  rw [Rounding.clamp_eq (by decide), toInt_ofInt_clamp]

end Patterns

/-- Every pattern is brought to its sample. -/
theorem canonicalSample_canonicalFloat (pattern : UInt32) :
    CanonicalSample (binary32.decode pattern.toNat) (canonicalFloat pattern).toInt := by
  cases h : binary32.decode pattern.toNat with
  | nan =>
      rw [canonicalFloat_nan h]
      exact .nan
  | infinite negative =>
      rw [toInt_canonicalFloat_infinite h]
      cases negative
      · exact .aboveAll
      · exact .belowAll
  | finite value =>
      rw [toInt_canonicalFloat_finite h]
      exact .finite (Rounding.isNearestAway_halfAway _)

/-- A larger value is not brought to a smaller sample. -/
theorem canonicalFloat_mono {p q : UInt32}
    (hle : (binary32.decode p.toNat).Le (binary32.decode q.toNat)) :
    canonicalFloat p ≤ canonicalFloat q := by
  rw [Int32.le_iff_toInt_le]
  generalize hp : binary32.decode p.toNat = first at hle
  generalize hq : binary32.decode q.toNat = second at hle
  cases hle with
  | belowAll _ =>
      rw [toInt_canonicalFloat_infinite hp]
      exact (canonicalFloat q).le_toInt
  | aboveAll _ =>
      rw [toInt_canonicalFloat_infinite hq]
      exact Int.lt_add_one_iff.mp (canonicalFloat p).toInt_lt
  | finite hle =>
      have hscaled := mul_le_mul_of_nonneg_right hle (by norm_num : (0 : Rat) ≤ 2147483648)
      have hrounded := Rounding.halfAway_mono hscaled
      rw [toInt_canonicalFloat_finite hp, toInt_canonicalFloat_finite hq]
      omega

/-- A value that is a sample once it is scaled is brought to that sample. -/
theorem canonicalFloat_eq {pattern : UInt32} {value : Rat} {sample : Int32}
    (h : binary32.decode pattern.toNat = .finite value)
    (hscaled : value * 2147483648 = sample.toInt) : canonicalFloat pattern = sample := by
  have hleast := sample.le_toInt
  have hgreatest := sample.toInt_lt
  rw [← Int32.toInt_inj, toInt_canonicalFloat_finite h, hscaled, Rounding.halfAway_intCast]
  omega

/-! ## The sample of a 16-bit value -/

/-- Whether a 32-bit sample has a 16-bit one in its upper half. -/
def Widens (value : Int16) (word : Int32) : Prop :=
  word.toInt = value.toInt * 65536

/-- A 16-bit sample fits the upper half of a 32-bit one. -/
theorem widens_ofInt (value : Int16) : Widens value (Int32.ofInt (value.toInt * 65536)) := by
  have hleast := value.le_toInt
  have hgreatest := value.toInt_lt
  exact Int32.toInt_ofInt_of_le (by omega) (by omega)

/-! ## Lists of samples -/

namespace SampleList

/-- Which 32-bit samples a list stands for: as many as it has, in the same order. -/
inductive StandsFor : SampleList → List Int32 → Prop
  | int16 {values : List Int16} {words : List Int32} (h : List.Forall₂ Widens values words) :
      StandsFor (.int16 values) words
  | int32 (words : List Int32) : StandsFor (.int32 words) words
  | float32 {patterns : List UInt32} {words : List Int32}
      (h : List.Forall₂ (fun pattern word =>
        CanonicalSample (binary32.decode pattern.toNat) word.toInt) patterns words) :
      StandsFor (.float32 patterns) words

/-- A list stands for its canonical samples. -/
theorem standsFor_canonical (samples : SampleList) : samples.StandsFor samples.canonical := by
  cases samples with
  | int16 values =>
      apply StandsFor.int16
      exact List.forall₂_map_right_iff.mpr (List.forall₂_same.mpr fun value _ => widens_ofInt value)
  | int32 words => exact .int32 words
  | float32 patterns =>
      apply StandsFor.float32
      exact List.forall₂_map_right_iff.mpr
        (List.forall₂_same.mpr fun pattern _ => canonicalSample_canonicalFloat pattern)

/-- As many samples as the list has. -/
theorem length_canonical (samples : SampleList) : samples.canonical.length = samples.length := by
  cases samples with
  | int16 values => exact List.length_map _
  | int32 words => rfl
  | float32 patterns => exact List.length_map _

end SampleList

end AudioCatalog
