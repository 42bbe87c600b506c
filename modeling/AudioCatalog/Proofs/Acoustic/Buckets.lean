import AudioCatalog.Proofs.Acoustic.Agreement
import AudioCatalog.Proofs.Number.Accuracy
import Mathlib.Tactic.GCongr

/-!
# The buckets near a key

A score exceeds the ratio of the frame counts by rounding errors alone, so a key that scores
at least the threshold has a frame count within the threshold of the other one, but for an
error that is far below one frame.  The bounds of `nearbyBuckets` are rounded too, and the
frame on either side makes up for all of it.
-/

namespace AudioCatalog

theorem abs_matchThreshold_sub_le : |matchThreshold - 17 / 20| ≤ 1 / 2 ^ 52 := by
  have hexact : mkRat 17 20 = 17 / 20 := by norm_num [Rat.mkRat_eq_div]
  have herror := @Binary64.abs_round_sub_le_of_le (17 / 20) 0 (by norm_num) (by norm_num)
  rw [matchThreshold, hexact]
  simpa using herror

namespace AcousticKey

variable (a b : AcousticKey)

/-- The ratio of the shorter to the longer frame count, before it is rounded. -/
def exactRatio : Rat :=
  (min a.frames b.frames : Nat) / (max a.frames b.frames : Nat)

theorem exactRatio_nonneg : 0 ≤ exactRatio a b :=
  div_nonneg (Nat.cast_nonneg _) (Nat.cast_nonneg _)

theorem exactRatio_le_one : exactRatio a b ≤ 1 := by
  have hle : ((min a.frames b.frames : Nat) : Rat) ≤ (max a.frames b.frames : Nat) := by
    exact_mod_cast min_le_max
  exact div_le_one_of_le₀ hle (Nat.cast_nonneg _)

theorem lengthRatio_eq : lengthRatio a b = Binary64.round (exactRatio a b) := by
  rw [lengthRatio, exactRatio, Rat.mkRat_eq_div]
  rfl

/-- The share of equal bits in the words that both keys have, before it is rounded. -/
def exactShare : Rat :=
  (matchingBits a b : Rat) / (overlap a b * 32 : Nat)

theorem exactShare_nonneg : 0 ≤ exactShare a b :=
  div_nonneg (Nat.cast_nonneg _) (Nat.cast_nonneg _)

theorem exactShare_le_one : exactShare a b ≤ 1 :=
  div_le_one_of_le₀ (by exact_mod_cast matchingBits_le a b) (Nat.cast_nonneg _)

theorem overlap_pos : 0 < overlap a b := by
  have ha := a.frames_pos
  have hb := b.frames_pos
  simp only [overlap, validLength, vectorLength]
  omega

/-- A score is the product of the two ratios, each of the three rounded. -/
theorem similarity_eq :
    similarity a b = Binary64.round (Binary64.round (exactShare a b) * lengthRatio a b) := by
  rw [similarity, if_neg (overlap_pos a b).ne', exactShare, Rat.mkRat_eq_div]
  rfl

/-- The score exceeds the ratio of the frame counts by rounding errors alone. -/
theorem similarity_le : similarity a b ≤ exactRatio a b + 1 / 2 ^ 49 := by
  have hratio_nonneg := exactRatio_nonneg a b
  have hratio_le := exactRatio_le_one a b
  have hshare_nonneg := exactShare_nonneg a b
  have hshare_le := exactShare_le_one a b
  have hshared := @Binary64.abs_round_sub_le_of_le _ 0 hshare_nonneg (by simpa using hshare_le)
  have hlength := @Binary64.abs_round_sub_le_of_le _ 0 hratio_nonneg (by simpa using hratio_le)
  have hshared_nonneg := Binary64.round_nonneg hshare_nonneg
  have hlength_nonneg := Binary64.round_nonneg hratio_nonneg
  rw [← lengthRatio_eq] at hlength hlength_nonneg
  rw [similarity_eq]
  generalize Binary64.round (exactShare a b) = shared at *
  rw [abs_le] at hshared hlength
  have hshared_le : shared ≤ 1 + 1 / 2 ^ 52 := by linarith
  have hlength_le : lengthRatio a b ≤ exactRatio a b + 1 / 2 ^ 52 := by linarith
  have hproduct : shared * lengthRatio a b ≤ exactRatio a b + 1 / 2 ^ 50 :=
    calc shared * lengthRatio a b
        ≤ (1 + 1 / 2 ^ 52) * (exactRatio a b + 1 / 2 ^ 52) := by gcongr
      _ ≤ exactRatio a b + 1 / 2 ^ 50 := by linarith
  have hscore := @Binary64.abs_round_sub_le_of_le _ 1
    (mul_nonneg hshared_nonneg hlength_nonneg) (by linarith)
  rw [abs_le] at hscore
  linarith

/-- The frame counts of keys that match differ by the threshold, up to an error that is far
below one frame. -/
theorem frames_le_of_matches (hmatch : matchThreshold ≤ similarity a b) :
    (a.frames : Rat) * matchThreshold ≤ b.frames + 1 / 2 ^ 17 ∧
      (b.frames : Rat) * matchThreshold ≤ a.frames + 1 / 2 ^ 17 := by
  have hratio : matchThreshold ≤ exactRatio a b + 1 / 2 ^ 49 := hmatch.trans (similarity_le a b)
  have hthreshold := abs_le.mp abs_matchThreshold_sub_le
  have hlongest : (0 : Rat) < (max a.frames b.frames : Nat) := by
    exact_mod_cast lt_max_of_lt_left a.frames_pos
  have hbound : ((max a.frames b.frames : Nat) : Rat) ≤ 2 ^ 32 := by
    exact_mod_cast (max_lt a.frames_lt b.frames_lt).le
  have hmin : ((max a.frames b.frames : Nat) : Rat) * matchThreshold ≤
      (min a.frames b.frames : Nat) + 1 / 2 ^ 17 :=
    calc ((max a.frames b.frames : Nat) : Rat) * matchThreshold
        ≤ (max a.frames b.frames : Nat) * (exactRatio a b + 1 / 2 ^ 49) := by gcongr
      _ = (min a.frames b.frames : Nat) + (max a.frames b.frames : Nat) * (1 / 2 ^ 49) := by
        rw [mul_add, exactRatio, mul_div_cancel₀ _ hlongest.ne']
      _ ≤ (min a.frames b.frames : Nat) + 1 / 2 ^ 17 := by linarith
  have hpositive : 0 ≤ matchThreshold := by linarith
  constructor
  · refine le_trans ?_ (hmin.trans ?_)
    · gcongr
      exact_mod_cast le_max_left ..
    · gcongr
      exact_mod_cast min_le_right ..
  · refine le_trans ?_ (hmin.trans ?_)
    · gcongr
      exact_mod_cast le_max_right ..
    · gcongr
      exact_mod_cast min_le_left ..

/-- The bucket of a key that matches is among the buckets near the other one. -/
theorem bucket_nearby_of_matches (hmatch : matchThreshold ≤ similarity a b) :
    (nearbyBuckets a).1 ≤ b.bucket ∧ b.bucket ≤ (nearbyBuckets a).2 := by
  obtain ⟨hshort, hlong⟩ := frames_le_of_matches a b hmatch
  have hthreshold := abs_le.mp abs_matchThreshold_sub_le
  have hpositive : 0 < matchThreshold := by linarith
  have hframes : (a.frames : Rat) ≤ 2 ^ 32 := by exact_mod_cast a.frames_lt.le
  have hfloor : (Binary64.round (a.frames * matchThreshold)).floor < (b.frames : Int) + 1 := by
    have hproduct : (a.frames : Rat) * matchThreshold ≤ 2 ^ 32 :=
      (mul_le_of_le_one_right (Nat.cast_nonneg _) (by linarith)).trans hframes
    have herror := abs_le.mp (Binary64.abs_round_sub_le_of_le (by positivity) hproduct)
    rw [Rat.floor_lt_iff]
    push_cast
    linarith
  have hceil : (b.frames : Int) - 1 < (Binary64.round (a.frames / matchThreshold)).ceil := by
    have hquotient : (a.frames : Rat) / matchThreshold ≤ 2 ^ 33 := by
      rw [div_le_iff₀ hpositive]
      linarith
    have hfar : (b.frames : Rat) ≤ a.frames / matchThreshold + 1 / 2 ^ 16 := by
      have hshared : (b.frames : Rat) ≤ (a.frames + 1 / 2 ^ 17) / matchThreshold :=
        (le_div_iff₀ hpositive).mpr hlong
      have hsmall : 1 / 2 ^ 17 / matchThreshold ≤ 1 / 2 ^ 16 := by
        rw [div_le_iff₀ hpositive]
        linarith
      rw [add_div] at hshared
      linarith
    have herror := abs_le.mp (Binary64.abs_round_sub_le_of_le (by positivity) hquotient)
    rw [Rat.lt_ceil_iff]
    push_cast
    linarith
  have hlimit := b.frames_lt
  have hwhole : mkRat (Int.ofNat a.frames) 1 = (a.frames : Rat) := Rat.mkRat_one ..
  simp only [nearbyBuckets, bucket, hwhole]
  constructor
  · apply Nat.div_le_div_right
    omega
  · apply Nat.div_le_div_right
    omega

end AcousticKey

end AudioCatalog
