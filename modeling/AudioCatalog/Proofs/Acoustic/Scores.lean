import AudioCatalog.Proofs.Acoustic.Buckets
import AudioCatalog.Proofs.Number.Exactness

/-!
# Scores and leads

Scores lie between zero and one, and those that reach the threshold are multiples of one unit,
2⁻⁵³.  The difference of two such scores is exact.  The lead that a clear match needs lies
between two multiples of the unit, so that it makes no difference whether it is asked how far a
score is behind the best one, or whether it is above the best one less the lead, rounded.
-/

namespace AudioCatalog

open Binary64 (OnGrid pow2_zero pow2_neg_one)

/-- Half is below the threshold. -/
theorem half_lt_matchThreshold : 1 / 2 < matchThreshold := by
  decide +kernel

/-- The lead is 0.02 rounded to a multiple of 2⁻⁵⁸. -/
theorem clearLead_eq : clearLead = 5764607523034235 / 2 ^ 58 := by
  decide +kernel

theorem clearLead_pos : 0 < clearLead := by
  rw [clearLead_eq]
  norm_num

/-- The unit of the scores that reach the threshold. -/
theorem pow2_unit : pow2 (-53) = 1 / 2 ^ 53 := by
  rw [pow2_eq_zpow]
  norm_num

namespace AcousticKey

variable (a b : AcousticKey)

theorem lengthRatio_nonneg : 0 ≤ lengthRatio a b := by
  rw [lengthRatio_eq]
  exact Binary64.round_nonneg (exactRatio_nonneg a b)

theorem lengthRatio_le_one : lengthRatio a b ≤ 1 := by
  rw [lengthRatio_eq]
  exact Binary64.round_le_one (exactRatio_nonneg a b) (exactRatio_le_one a b)

/-- A score is a product of two ratios, rounded. -/
theorem exists_similarity_eq :
    ∃ product, 0 ≤ product ∧ product ≤ 1 ∧ similarity a b = Binary64.round product := by
  have hratio_nonneg := lengthRatio_nonneg a b
  have hshared_nonneg := Binary64.round_nonneg (exactShare_nonneg a b)
  have hshared_le := Binary64.round_le_one (exactShare_nonneg a b) (exactShare_le_one a b)
  exact ⟨_, mul_nonneg hshared_nonneg hratio_nonneg,
    mul_le_one₀ hshared_le hratio_nonneg (lengthRatio_le_one a b), similarity_eq a b⟩

theorem similarity_le_one : similarity a b ≤ 1 := by
  obtain ⟨product, hnonneg, hle, hrounded⟩ := exists_similarity_eq a b
  rw [hrounded]
  exact Binary64.round_le_one hnonneg hle

end AcousticKey

/-- Whether a number can be the score of a match. -/
structure MatchScore (score : Rat) : Prop where
  onGrid : OnGrid (-53) score
  reaches : matchThreshold ≤ score
  le_one : score ≤ 1

/-- A score that reaches the threshold is one of a match. -/
theorem AcousticKey.matchScore_similarity {a b : AcousticKey}
    (hmatch : matchThreshold ≤ similarity a b) : MatchScore (similarity a b) where
  onGrid := by
    obtain ⟨product, hnonneg, hle, hrounded⟩ := exists_similarity_eq a b
    rw [hrounded] at hmatch ⊢
    refine Binary64.onGrid_round_of_le (k := -1) ?_
    by_contra hsmall
    have hbelow := Binary64.round_le_pow2 (by decide) hnonneg (not_le.mp hsmall).le
    rw [pow2_neg_one] at hbelow
    linarith [half_lt_matchThreshold]
  reaches := hmatch
  le_one := similarity_le_one a b

namespace MatchScore

variable {best score : Rat}

/-- The difference of two scores is exact. -/
theorem round_sub (hbest : MatchScore best) (hscore : MatchScore score) (hle : score ≤ best) :
    Binary64.round (best - score) = best - score := by
  refine Binary64.round_eq_self (k := 0) (sub_nonneg.mpr hle) ?_ (hbest.onGrid.sub hscore.onGrid)
  rw [pow2_zero]
  linarith [hbest.le_one, hscore.reaches, half_lt_matchThreshold]

/-- What the best score less the lead is rounded to: the nearest multiple of the unit, which is
five thirty-seconds of a unit below. -/
theorem round_sub_clearLead (hbest : MatchScore best) :
    Binary64.round (best - clearLead) = best - 180143985094820 / 2 ^ 53 := by
  have habove : 1 / 2 ≤ best - clearLead := by
    have hfar : 1 / 2 + clearLead ≤ matchThreshold := by decide +kernel
    linarith [hbest.reaches]
  have hbelow : best - clearLead < 1 := by
    linarith [hbest.le_one, clearLead_pos]
  have hplace : Binary64.lastPlace (best - clearLead) = -53 := by
    rw [Binary64.lastPlace_of_pos (by linarith),
      Binary64.log2_eq_of_le_of_lt (pow2_neg_one ▸ habove) (pow2_zero ▸ hbelow)]
    decide
  refine Binary64.round_eq_of_abs_sub_lt (by linarith) ?_ ?_
  · rw [hplace]
    refine hbest.onGrid.sub ⟨180143985094820, ?_⟩
    rw [pow2_unit]
    norm_num
  · rw [hplace, pow2_unit, clearLead_eq, sub_sub_sub_cancel_left]
    norm_num

/-- A score is above the best one less the lead exactly if it is behind by less than the
lead. -/
theorem bound_lt_iff (hbest : MatchScore best) (hscore : MatchScore score) (hle : score ≤ best) :
    Binary64.round (best - clearLead) < score ↔ Binary64.round (best - score) < clearLead := by
  obtain ⟨behind, hbehind⟩ := hbest.onGrid.sub hscore.onGrid
  rw [hbest.round_sub_clearLead, hbest.round_sub hscore hle, sub_lt_comm, hbehind,
    clearLead_eq, pow2_unit]
  -- The lead is 180143985094819 units and twenty-seven thirty-seconds.
  constructor
  · intro hlt
    have hwhole : (behind : Rat) < 180143985094820 := by linarith
    have hunits : behind < 180143985094820 := by exact_mod_cast hwhole
    have hcast : (behind : Rat) ≤ 180143985094819 := by
      exact_mod_cast Int.lt_add_one_iff.mp hunits
    linarith
  · intro hlt
    linarith

end MatchScore

end AudioCatalog
