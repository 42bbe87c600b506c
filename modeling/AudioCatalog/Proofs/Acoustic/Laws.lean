import AudioCatalog.Proofs.Acoustic.Scores
import AudioCatalog.Proofs.Number.Monotonicity

/-!
# Laws of the similarity score

A score is two rounded quotients and their rounded product.  It does not depend on the order of
the keys, lies between zero and one and below the rounded ratio of the frame counts, depends on
the frame counts and the valid words only, and grows with the bits in which the keys agree.
It is one exactly for equal frame counts and equal valid words: there are at most 8192
overlapping bits and fewer than 2³² frames, so that a quotient below one stays below one by more
than all three roundings can make up for.
-/

namespace AudioCatalog

open Binary64 (round_mono round_one round_nonneg round_le_one round_le_one_sub)

namespace AcousticKey

variable (a b : AcousticKey)

theorem exactRatio_comm : exactRatio a b = exactRatio b a := by
  rw [exactRatio, exactRatio, min_comm, max_comm]

theorem lengthRatio_comm : lengthRatio a b = lengthRatio b a := by
  rw [lengthRatio_eq, lengthRatio_eq, exactRatio_comm]

theorem exactShare_comm : exactShare a b = exactShare b a := by
  rw [exactShare, exactShare, matchingBits_comm, overlap_comm]

/-- A score does not depend on the order of the keys. -/
theorem similarity_comm : similarity a b = similarity b a := by
  rw [similarity_eq, similarity_eq, exactShare_comm, lengthRatio_comm]

theorem similarity_nonneg : 0 ≤ similarity a b := by
  rw [similarity_eq]
  exact round_nonneg (mul_nonneg (round_nonneg (exactShare_nonneg a b)) (lengthRatio_nonneg a b))

/-- No score is above the rounded ratio of the frame counts. -/
theorem similarity_le_lengthRatio : similarity a b ≤ lengthRatio a b := by
  have hshared_nonneg := round_nonneg (exactShare_nonneg a b)
  have hshared_le := round_le_one (exactShare_nonneg a b) (exactShare_le_one a b)
  have hproduct : Binary64.round (exactShare a b) * lengthRatio a b ≤ lengthRatio a b :=
    mul_le_of_le_one_left (lengthRatio_nonneg a b) hshared_le
  have hproduct_nonneg := mul_nonneg hshared_nonneg (lengthRatio_nonneg a b)
  rw [similarity_eq]
  rw [lengthRatio_eq] at hproduct hproduct_nonneg ⊢
  exact Binary64.round_le_round_of_le hproduct_nonneg (exactRatio_nonneg a b) hproduct

variable {a b}

/-! ## What a score depends on -/

theorem lengthRatio_congr {a' b' : AcousticKey} (ha : a.frames = a'.frames)
    (hb : b.frames = b'.frames) : lengthRatio a' b' = lengthRatio a b := by
  rw [lengthRatio, lengthRatio, ha, hb]

/-- Words that do not come from the fingerprints have no influence. -/
theorem similarity_congr {a' b' : AcousticKey} (ha : SameWords a a') (hb : SameWords b b') :
    similarity a' b' = similarity a b := by
  obtain ⟨hoverlap, hbits⟩ := matchingBits_congr ha hb
  rw [similarity_eq, similarity_eq, exactShare, exactShare, hoverlap, hbits,
    lengthRatio_congr ha.1 hb.1]

/-- A key that agrees with another one in more bits does not score less. -/
theorem similarity_mono {closer : AcousticKey} (hmore : AgreesMore a b closer) :
    similarity a b ≤ similarity a closer := by
  obtain ⟨hoverlap, hbits⟩ := matchingBits_mono hmore
  have hshare : exactShare a b ≤ exactShare a closer := by
    rw [exactShare, exactShare, hoverlap]
    exact div_le_div_of_nonneg_right (by exact_mod_cast hbits) (Nat.cast_nonneg _)
  have hshared := round_mono (exactShare_nonneg a b) hshare
  have hratio := lengthRatio_congr (a := a) rfl hmore.1.symm
  rw [similarity_eq, similarity_eq, hratio]
  refine round_mono ?_ (mul_le_mul_of_nonneg_right hshared (lengthRatio_nonneg a b))
  exact mul_nonneg (round_nonneg (exactShare_nonneg a b)) (lengthRatio_nonneg a b)

/-! ## Full scores -/

/-- A proper fraction is below one by the reciprocal of its denominator. -/
theorem div_le_one_sub {m n j : Nat} (hlt : m < n) (hn : n ≤ 2 ^ j) :
    (m / n : Rat) ≤ 1 - pow2 (-j) := by
  have hpos : (0 : Rat) < n := by exact_mod_cast Nat.zero_lt_of_lt hlt
  have hstep : (m : Rat) + 1 ≤ n := by exact_mod_cast hlt
  have hbound : (n : Rat) ≤ 2 ^ j := by exact_mod_cast hn
  have hunit : pow2 (-j) ≤ 1 / n := by
    rw [pow2_eq_zpow, zpow_neg, zpow_natCast, one_div]
    exact inv_anti₀ hpos hbound
  have hquotient : (m / n : Rat) ≤ 1 - 1 / n := by
    rw [div_le_iff₀ hpos, sub_mul, one_mul, one_div_mul_cancel hpos.ne']
    linarith
  linarith

/-- The share of equal bits is one exactly if the overlapping words are equal. -/
theorem exactShare_eq_one_iff :
    exactShare a b = 1 ↔ ∀ i < overlap a b, a.word i = b.word i := by
  have hpos : ((overlap a b * 32 : Nat) : Rat) ≠ 0 := by
    exact_mod_cast (Nat.mul_pos (overlap_pos a b) (by decide)).ne'
  rw [exactShare, div_eq_one_iff_eq hpos, ← matchingBits_eq_iff]
  exact Nat.cast_inj

theorem exactRatio_eq_one_iff : exactRatio a b = 1 ↔ a.frames = b.frames := by
  have hpos : ((max a.frames b.frames : Nat) : Rat) ≠ 0 := by
    exact_mod_cast (lt_max_of_lt_left a.frames_pos).ne'
  rw [exactRatio, div_eq_one_iff_eq hpos, Nat.cast_inj]
  omega

/-- A share below one is rounded to one that is below one by 2⁻¹³ or more. -/
theorem round_exactShare_le (hshare : exactShare a b ≠ 1) :
    Binary64.round (exactShare a b) ≤ 1 - pow2 (-13) := by
  have hoverlap : overlap a b ≤ 256 := (overlap_le_left a b).trans (Nat.min_le_right ..)
  have hlt : matchingBits a b < overlap a b * 32 := by
    refine (matchingBits_le a b).lt_of_ne fun hfull => hshare ?_
    rw [exactShare_eq_one_iff, ← matchingBits_eq_iff, hfull]
  exact round_le_one_sub (j := 13) (by decide) (exactShare_nonneg a b)
    (div_le_one_sub hlt (by omega))

/-- A ratio below one is rounded to one that is below one by 2⁻³² or more. -/
theorem lengthRatio_le (hratio : exactRatio a b ≠ 1) : lengthRatio a b ≤ 1 - pow2 (-32) := by
  have hlt : min a.frames b.frames < max a.frames b.frames := by
    rw [Ne, exactRatio_eq_one_iff] at hratio
    omega
  have hlongest : max a.frames b.frames < 4294967296 := max_lt a.frames_lt b.frames_lt
  rw [lengthRatio_eq]
  exact round_le_one_sub (j := 32) (by decide) (exactRatio_nonneg a b)
    (div_le_one_sub hlt (by omega))

/-- A score is one exactly if both ratios are. -/
theorem similarity_eq_one_iff_exact :
    similarity a b = 1 ↔ exactShare a b = 1 ∧ exactRatio a b = 1 := by
  have hshared_nonneg := round_nonneg (exactShare_nonneg a b)
  have hshared_le := round_le_one (exactShare_nonneg a b) (exactShare_le_one a b)
  have hratio_nonneg := lengthRatio_nonneg a b
  constructor
  · intro hfull
    -- Where one of the ratios is below one, so is the product, and by no less.
    have hbelow : ∀ j : Nat, j ≤ 53 →
        ¬ Binary64.round (exactShare a b) * lengthRatio a b ≤ 1 - pow2 (-j) := by
      intro j hj hproduct
      have hrounded := round_le_one_sub hj (mul_nonneg hshared_nonneg hratio_nonneg) hproduct
      rw [← similarity_eq, hfull] at hrounded
      linarith [pow2_pos (-j)]
    constructor
    · by_contra hshare
      refine hbelow 13 (by decide) (le_trans ?_ (round_exactShare_le hshare))
      exact mul_le_of_le_one_right hshared_nonneg (lengthRatio_le_one a b)
    · by_contra hratio
      refine hbelow 32 (by decide) (le_trans ?_ (lengthRatio_le hratio))
      exact mul_le_of_le_one_left hratio_nonneg hshared_le
  · rintro ⟨hshare, hratio⟩
    rw [similarity_eq, lengthRatio_eq, hshare, hratio, round_one, mul_one, round_one]

/-- A score is one exactly for equal frame counts and equal valid words. -/
theorem similarity_eq_one_iff : similarity a b = 1 ↔ SameWords a b := by
  rw [similarity_eq_one_iff_exact, exactShare_eq_one_iff, exactRatio_eq_one_iff, and_comm,
    SameWords]
  refine and_congr_right fun hframes => ?_
  have hoverlap : overlap a b = a.validLength := by
    rw [overlap, ← validLength_congr hframes, min_self]
  rw [hoverlap]

/-! ## The laws -/

/-- A score does not depend on the order of the keys.  It lies between zero and one, and is not
above the rounded ratio of the frame counts.  It is one exactly if the frame counts are equal and
the valid words are, the words behind those have no influence, and it does not fall where more of
the overlapping bits agree. -/
theorem similarity_laws (a b : AcousticKey) :
    similarity a b = similarity b a ∧
      (0 ≤ similarity a b ∧ similarity a b ≤ 1) ∧
      similarity a b ≤ Binary64.round
        ((min a.frames b.frames : Nat) / (max a.frames b.frames : Nat)) ∧
      (similarity a b = 1 ↔
        a.frames = b.frames ∧ ∀ i < min a.frames 256, a.word i = b.word i) ∧
      (∀ a' b', SameWords a a' → SameWords b b' → similarity a' b' = similarity a b) ∧
      ∀ closer, AgreesMore a b closer → similarity a b ≤ similarity a closer := by
  have hratio := similarity_le_lengthRatio a b
  rw [lengthRatio_eq] at hratio
  exact ⟨similarity_comm a b, ⟨similarity_nonneg a b, similarity_le_one a b⟩, hratio,
    similarity_eq_one_iff, fun _ _ => similarity_congr, fun _ => similarity_mono⟩

/-- A key of two frames, with one word repeated behind the two that count. -/
def twoFrames (first second rest : UInt32) : AcousticKey where
  vector := first :: second :: List.replicate 254 rest
  frames := 2
  length_eq := by rw [List.length_cons, List.length_cons, List.length_replicate]
  frames_pos := by decide
  frames_lt := by decide

/-- Two frames in which the upper bits are set. -/
def upperBits : AcousticKey :=
  twoFrames 0xffff0000 0xffff0000 0

/-- Two frames in which all bits are set. -/
def allBits : AcousticKey :=
  twoFrames 0xffffffff 0xffffffff 0

/-- Two keys agree in half of their bits: other words behind those of the second make no
difference, and with its lowest bit made that of the first it does not score less. -/
theorem similarity_laws_of_halves :
    SameWords upperBits upperBits ∧ SameWords allBits (twoFrames 0xffffffff 0xffffffff 7) ∧
    AgreesMore upperBits allBits (twoFrames 0xfffffffe 0xffffffff 0) ∧
    similarity upperBits allBits = 1 / 2 ∧
    similarity upperBits (twoFrames 0xffffffff 0xffffffff 7) = 1 / 2 ∧
    1 / 2 ≤ similarity upperBits (twoFrames 0xfffffffe 0xffffffff 0) := by
  have hfirst : SameWords upperBits upperBits := ⟨rfl, fun _ _ => rfl⟩
  have hsecond : SameWords allBits (twoFrames 0xffffffff 0xffffffff 7) := ⟨rfl, by decide⟩
  have hmore : AgreesMore upperBits allBits (twoFrames 0xfffffffe 0xffffffff 0) :=
    ⟨rfl, by decide +kernel⟩
  have hhalf : similarity upperBits allBits = 1 / 2 := by decide +kernel
  obtain ⟨_, _, _, _, hwords, hcloser⟩ := similarity_laws upperBits allBits
  refine ⟨hfirst, hsecond, hmore, hhalf, ?_, ?_⟩
  · rw [hwords _ _ hfirst hsecond, hhalf]
  · rw [← hhalf]
    exact hcloser _ hmore

end AcousticKey

end AudioCatalog
