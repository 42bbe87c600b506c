import AudioCatalog.Proofs.Number.Exactness

/-!
# Rounding keeps the order

A larger number is not rounded to a smaller one.  Two numbers with the same last place are
rounded on the same grid, and between two numbers with different last places there is a power
of two, which neither is rounded past.  Rounding twice is rounding once, so that a bound that is
a number of the format survives the rounding of what it bounds.
-/

namespace AudioCatalog

/-- A rule that rounds to a nearest integer keeps the order, whichever of two it takes for a
number in the middle. -/
theorem Rounding.mono_of_abs_sub_le {rule : Rat → Int}
    (hnear : ∀ q, |(rule q : Rat) - q| ≤ 1 / 2) {p q : Rat} (hle : p ≤ q) : rule p ≤ rule q := by
  by_contra hlt
  have hstep : rule q + 1 ≤ rule p := by omega
  have hfar : (rule q : Rat) + 1 ≤ rule p := by exact_mod_cast hstep
  have hp := (abs_le.mp (hnear p)).2
  have hq := (abs_le.mp (hnear q)).1
  -- Both errors are at most one half, so the two numbers are the same.
  have hsame : p = q := le_antisymm hle (by linarith)
  rw [hsame] at hlt
  exact hlt le_rfl

namespace Binary64

variable {p q : Rat}

theorem round_zero : round 0 = 0 :=
  if_pos rfl

theorem log2_mono (hp : 0 < p) (hle : p ≤ q) : log2 p ≤ log2 q := by
  have hq : 0 < q := hp.trans_le hle
  have hbetween : pow2 (log2 p) < pow2 (log2 q + 1) :=
    (pow2_log2_le hp).trans_lt (hle.trans_lt (lt_pow2_log2_succ hq))
  exact Int.lt_add_one_iff.mp (pow2_lt_pow2_iff.mp hbetween)

/-- No number is rounded past a smaller multiple of its last place. -/
theorem le_round_of_onGrid {m : Rat} (hq : 0 < q) (hle : m ≤ q) (hgrid : OnGrid (lastPlace q) m) :
    m ≤ round q := by
  obtain ⟨n, rfl⟩ := hgrid
  have hunit : 0 < pow2 (lastPlace q) := pow2_pos _
  rw [round_of_pos hq]
  generalize pow2 (lastPlace q) = unit at hunit hle ⊢
  have hscaled : (n : Rat) ≤ q / unit := (le_div_iff₀ hunit).mpr hle
  have hrounded := (abs_le.mp (Rounding.abs_halfEven_sub_le (q / unit))).1
  have hinteger : n - 1 < Rounding.halfEven (q / unit) := by
    have hclose : (n : Rat) - 1 < Rounding.halfEven (q / unit) := by linarith
    exact_mod_cast hclose
  refine mul_le_mul_of_nonneg_right ?_ hunit.le
  exact_mod_cast Int.le_of_sub_one_lt hinteger

/-- A number that is not below a power of two of the format is not rounded below it. -/
theorem pow2_le_round {k : Int} (hk : -1074 ≤ k) (hle : pow2 k ≤ q) (hlt : q < pow2 (k + 1)) :
    pow2 k ≤ round q := by
  have hq : 0 < q := (pow2_pos k).trans_le hle
  refine le_round_of_onGrid hq hle ((onGrid_pow2 k).mono ?_)
  exact (lastPlace_le_of_lt hq hlt).trans (by omega)

/-- A larger number is not rounded to a smaller one. -/
theorem round_mono (hp : 0 ≤ p) (hle : p ≤ q) : round p ≤ round q := by
  rcases hp.eq_or_lt with rfl | hpos
  · rw [round_zero]
    exact round_nonneg hle
  have hq : 0 < q := hpos.trans_le hle
  have hexponents := log2_mono hpos hle
  by_cases hplace : lastPlace p = lastPlace q
  · have hunit : 0 < pow2 (lastPlace q) := pow2_pos _
    rw [round_of_pos hpos, round_of_pos hq, hplace]
    refine mul_le_mul_of_nonneg_right ?_ hunit.le
    exact_mod_cast Rounding.mono_of_abs_sub_le Rounding.abs_halfEven_sub_le
      (div_le_div_of_nonneg_right hle hunit.le)
  · rw [lastPlace_of_pos hpos, lastPlace_of_pos hq] at hplace
    -- The exponents differ too, and the power of two between the numbers has the larger one.
    have hstep : pow2 (log2 p + 1) ≤ pow2 (log2 q) := by
      rw [← not_lt, pow2_lt_pow2_iff]
      omega
    calc round p
        ≤ pow2 (log2 q) :=
          round_le_pow2 (by omega) hpos.le ((lt_pow2_log2_succ hpos).le.trans hstep)
      _ ≤ round q := pow2_le_round (by omega) (pow2_log2_le hq) (lt_pow2_log2_succ hq)

/-- What a number is rounded to is not changed by rounding it again. -/
theorem round_round (hq : 0 ≤ q) : round (round q) = round q := by
  rcases hq.eq_or_lt with rfl | hpos
  · rw [round_zero, round_zero]
  rcases (round_nonneg hq).eq_or_lt with hzero | hsome
  · rw [← hzero, round_zero]
  refine round_of_onGrid hsome ?_
  have hgrid : OnGrid (lastPlace q) (round q) := ⟨_, round_of_pos hpos⟩
  -- The least power of two of the format that the number is not above.
  obtain ⟨k, hk⟩ : ∃ k, k = max (log2 q + 1) (-1074) := ⟨_, rfl⟩
  have habove : q ≤ pow2 k := by
    refine (lt_pow2_log2_succ hpos).le.trans ?_
    rw [← not_lt, pow2_lt_pow2_iff]
    omega
  rcases (round_le_pow2 (by omega) hq habove).eq_or_lt with htop | hbelow
  · have hplace : lastPlace (round q) ≤ k := by
      have hlt : round q < pow2 (k + 1) := by
        rw [htop, pow2_lt_pow2_iff]
        omega
      exact (lastPlace_le_of_lt hsome hlt).trans (by omega)
    rw [htop] at hplace ⊢
    exact (onGrid_pow2 k).mono hplace
  · refine hgrid.mono ((lastPlace_le_of_lt hsome hbelow).trans ?_)
    rw [lastPlace_of_pos hpos]
    omega

/-- A bound that is a number of the format survives rounding. -/
theorem round_le_round_of_le (hq : 0 ≤ q) (hp : 0 ≤ p) (hle : q ≤ round p) : round q ≤ round p := by
  rw [← round_round hp]
  exact round_mono hq hle

theorem round_one : round 1 = 1 := by
  refine round_eq_self (k := 1) zero_le_one ?_ ((onGrid_pow2 0).mono (by omega))
  rw [← pow2_zero, pow2_lt_pow2_iff]
  omega

/-- A number that is some places below one is not rounded to one, if the format has the places. -/
theorem round_le_one_sub {j : Nat} (hj : j ≤ 53) (hq : 0 ≤ q) (hle : q ≤ 1 - pow2 (-j)) :
    round q ≤ 1 - pow2 (-j) := by
  have hexact : round (1 - pow2 (-j)) = 1 - pow2 (-j) := by
    refine round_eq_self (k := 0) (hq.trans hle) ?_ ?_
    · rw [pow2_zero]
      exact sub_lt_self 1 (pow2_pos _)
    · rw [← pow2_zero]
      exact ((onGrid_pow2 0).mono (by omega)).sub ((onGrid_pow2 _).mono (by omega))
  rw [← hexact]
  exact round_mono hq hle

end Binary64

end AudioCatalog
