import AudioCatalog.Proofs.Number.Accuracy

/-!
# Where rounding is exact

The numbers of the format between two powers of two are the multiples of one unit, which is the
last place of the numbers there.  A number that is such a multiple is not changed by rounding,
a number less than half a unit from one is rounded to it, and no number is rounded past one.
-/

namespace AudioCatalog

/-- The nearest integer is the one less than one half away. -/
theorem Rounding.halfEven_eq_of_abs_sub_lt {q : Rat} {n : Int} (hnear : |q - n| < 1 / 2) :
    halfEven q = n := by
  have hrounded := abs_halfEven_sub_le q
  have hdistance : |((halfEven q - n : Int) : Rat)| < 1 := by
    push_cast
    calc |(halfEven q : Rat) - n|
        ≤ |(halfEven q : Rat) - q| + |q - n| := abs_sub_le ..
      _ < 1 := by linarith
  have hzero : halfEven q - n = 0 := by
    rw [← Int.abs_lt_one_iff]
    exact_mod_cast hdistance
  omega

namespace Binary64

/-- Whether a number is a multiple of a power of two. -/
def OnGrid (place : Int) (q : Rat) : Prop :=
  ∃ n : Int, q = n * pow2 place

theorem pow2_add (m n : Int) : pow2 (m + n) = pow2 m * pow2 n := by
  rw [pow2_eq_zpow, pow2_eq_zpow, pow2_eq_zpow, zpow_add₀ (by norm_num)]

theorem pow2_zero : pow2 0 = 1 := by
  rw [pow2_eq_zpow, zpow_zero]

theorem pow2_neg_one : pow2 (-1) = 1 / 2 := by
  rw [pow2_eq_zpow]
  norm_num

theorem pow2_lt_pow2_iff {m n : Int} : pow2 m < pow2 n ↔ m < n := by
  rw [pow2_eq_zpow, pow2_eq_zpow]
  exact zpow_lt_zpow_iff_right₀ (by norm_num)

/-- A finer grid has all numbers of a coarser one. -/
theorem OnGrid.mono {place finer : Int} {q : Rat} (hgrid : OnGrid place q)
    (hle : finer ≤ place) : OnGrid finer q := by
  obtain ⟨n, rfl⟩ := hgrid
  obtain ⟨k, rfl⟩ := Int.le.dest hle
  refine ⟨n * 2 ^ k, ?_⟩
  rw [pow2_add, pow2_eq_zpow k, zpow_natCast]
  push_cast
  ring

theorem OnGrid.sub {place : Int} {p q : Rat} (hp : OnGrid place p) (hq : OnGrid place q) :
    OnGrid place (p - q) := by
  obtain ⟨m, rfl⟩ := hp
  obtain ⟨n, rfl⟩ := hq
  refine ⟨m - n, ?_⟩
  push_cast
  ring

theorem onGrid_pow2 (place : Int) : OnGrid place (pow2 place) :=
  ⟨1, by simp⟩

/-! ## The last place -/

/-- A positive number is below the next power of two after that of its exponent. -/
theorem lt_pow2_log2_succ {q : Rat} (hq : 0 < q) : q < pow2 (log2 q + 1) := by
  simp only [log2]
  split
  · have hnum : 0 < q.num := Rat.num_pos.mpr hq
    have hhigh : (q.num : Rat) < 2 ^ (q.num.natAbs.log2 + 1) := by
      have h : q.num.natAbs < 2 ^ (q.num.natAbs.log2 + 1) := Nat.lt_log2_self
      have habs : (q.num.natAbs : Int) = q.num := Int.natAbs_of_nonneg hnum.le
      rw [← habs]
      exact_mod_cast h
    have hlow : (2 : Rat) ^ q.den.log2 ≤ q.den := by
      exact_mod_cast Nat.log2_self_le q.den_nz
    calc q = q.num / q.den := q.num_div_den.symm
      _ < 2 ^ (q.num.natAbs.log2 + 1) / 2 ^ q.den.log2 :=
          div_lt_div₀ hhigh hlow (by positivity) (by positivity)
      _ = pow2 (Int.ofNat q.num.natAbs.log2 - Int.ofNat q.den.log2 + 1) := by
          rw [pow2_eq_zpow, sub_add_eq_add_sub, zpow_sub₀ (by norm_num)]
          rfl
  · rename_i hguess
    rw [sub_add_cancel]
    exact not_le.mp hguess

/-- The exponent of a number between two powers of two. -/
theorem log2_eq_of_le_of_lt {q : Rat} {k : Int} (hle : pow2 k ≤ q) (hlt : q < pow2 (k + 1)) :
    log2 q = k := by
  have hq : 0 < q := (pow2_pos k).trans_le hle
  have hlow := pow2_lt_pow2_iff.mp ((pow2_log2_le hq).trans_lt hlt)
  have hhigh := pow2_lt_pow2_iff.mp (hle.trans_lt (lt_pow2_log2_succ hq))
  omega

theorem lastPlace_of_pos {q : Rat} (hq : 0 < q) : lastPlace q = max (log2 q - 52) (-1074) := by
  rw [lastPlace, magnitude, if_neg (not_lt.mpr hq.le)]

/-- The last place of a number below a power of two. -/
theorem lastPlace_le_of_lt {q : Rat} {k : Int} (hq : 0 < q) (hlt : q < pow2 k) :
    lastPlace q ≤ max (k - 53) (-1074) := by
  have hexponent := pow2_lt_pow2_iff.mp ((pow2_log2_le hq).trans_lt hlt)
  rw [lastPlace_of_pos hq]
  omega

/-- The last place of a number that is not below a power of two. -/
theorem le_lastPlace_of_le {q : Rat} {k : Int} (hle : pow2 k ≤ q) : k - 52 ≤ lastPlace q := by
  have hq : 0 < q := (pow2_pos k).trans_le hle
  have hexponent := pow2_lt_pow2_iff.mp (hle.trans_lt (lt_pow2_log2_succ hq))
  rw [lastPlace_of_pos hq]
  omega

/-! ## Rounding to multiples of the last place -/

theorem round_of_pos {q : Rat} (hq : 0 < q) :
    round q = Rounding.halfEven (q / pow2 (lastPlace q)) * pow2 (lastPlace q) := by
  rw [round, if_neg hq.ne']

/-- What a number is rounded to is as coarse as the last place of the number. -/
theorem onGrid_round_of_le {q : Rat} {k : Int} (hle : pow2 k ≤ q) : OnGrid (k - 52) (round q) := by
  have hq : 0 < q := (pow2_pos k).trans_le hle
  have hgrid : OnGrid (lastPlace q) (round q) := ⟨_, round_of_pos hq⟩
  exact hgrid.mono (le_lastPlace_of_le hle)

/-- A number is rounded to the multiple of its last place that is less than half a unit away. -/
theorem round_eq_of_abs_sub_lt {q m : Rat} (hq : 0 < q) (hgrid : OnGrid (lastPlace q) m)
    (hnear : |q - m| < pow2 (lastPlace q) / 2) : round q = m := by
  obtain ⟨n, rfl⟩ := hgrid
  have hunit : 0 < pow2 (lastPlace q) := pow2_pos _
  rw [round_of_pos hq]
  generalize pow2 (lastPlace q) = unit at hunit hnear ⊢
  have hclose : |q / unit - n| < 1 / 2 := by
    have hscaled : q / unit - n = (q - n * unit) / unit := by
      field_simp
    rw [hscaled, abs_div, abs_of_pos hunit, div_lt_iff₀ hunit]
    linarith
  rw [Rounding.halfEven_eq_of_abs_sub_lt hclose]

/-- A multiple of its last place is not changed by rounding. -/
theorem round_of_onGrid {q : Rat} (hq : 0 < q) (hgrid : OnGrid (lastPlace q) q) :
    round q = q := by
  refine round_eq_of_abs_sub_lt hq hgrid ?_
  rw [sub_self, abs_zero]
  exact half_pos (pow2_pos _)

/-- A number with few enough places below a power of two is not changed by rounding. -/
theorem round_eq_self {q : Rat} {k : Int} (hq : 0 ≤ q) (hlt : q < pow2 k)
    (hgrid : OnGrid (max (k - 53) (-1074)) q) : round q = q := by
  rcases hq.eq_or_lt with rfl | hpos
  · exact if_pos rfl
  · exact round_of_onGrid hpos (hgrid.mono (lastPlace_le_of_lt hpos hlt))

/-- No number is rounded past a multiple of its last place. -/
theorem round_le_of_onGrid {q m : Rat} (hq : 0 < q) (hle : q ≤ m)
    (hgrid : OnGrid (lastPlace q) m) : round q ≤ m := by
  obtain ⟨n, rfl⟩ := hgrid
  have hunit : 0 < pow2 (lastPlace q) := pow2_pos _
  rw [round_of_pos hq]
  generalize pow2 (lastPlace q) = unit at hunit hle ⊢
  have hscaled : q / unit ≤ n := (div_le_iff₀ hunit).mpr hle
  have hrounded := (abs_le.mp (Rounding.abs_halfEven_sub_le (q / unit))).2
  have hinteger : Rounding.halfEven (q / unit) < n + 1 := by
    have hclose : (Rounding.halfEven (q / unit) : Rat) < n + 1 := by linarith
    exact_mod_cast hclose
  refine mul_le_mul_of_nonneg_right ?_ hunit.le
  exact_mod_cast Int.lt_add_one_iff.mp hinteger

/-- No number is rounded past a power of two of the format. -/
theorem round_le_pow2 {q : Rat} {k : Int} (hk : -1074 ≤ k) (hq : 0 ≤ q) (hle : q ≤ pow2 k) :
    round q ≤ pow2 k := by
  rcases hq.eq_or_lt with rfl | hpos
  · rw [round, if_pos rfl]
    exact (pow2_pos k).le
  · refine round_le_of_onGrid hpos hle ((onGrid_pow2 k).mono ?_)
    have hlt : q < pow2 (k + 1) := hle.trans_lt (pow2_lt_pow2_iff.mpr (Int.lt_succ k))
    exact (lastPlace_le_of_lt hpos hlt).trans (by omega)

theorem round_le_one {q : Rat} (hq : 0 ≤ q) (hle : q ≤ 1) : round q ≤ 1 := by
  rw [← pow2_zero] at hle ⊢
  exact round_le_pow2 (by decide) hq hle

end Binary64

end AudioCatalog
