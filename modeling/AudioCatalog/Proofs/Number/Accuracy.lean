import AudioCatalog.Number.Binary64
import Mathlib.Algebra.Order.Field.Power
import Mathlib.Data.Rat.Lemmas
import Mathlib.Tactic.FieldSimp
import Mathlib.Tactic.Linarith
import Mathlib.Tactic.Positivity
import Mathlib.Tactic.Ring

/-!
# The accuracy of rounding

A number that is not negative is rounded to a number of the format that is within half a unit
of its last place.  That is at most one part in 2⁵³ of the number, or half of the least number
there is.
-/

namespace AudioCatalog

/-- Powers of two are powers of two. -/
theorem pow2_eq_zpow (n : Int) : pow2 n = (2 : Rat) ^ n := by
  cases n with
  | ofNat n => simp [pow2, Rat.mkRat_one]
  | negSucc n => simp [pow2, Rat.mkRat_eq_div, zpow_negSucc]

theorem pow2_pos (n : Int) : 0 < pow2 n := by
  rw [pow2_eq_zpow]
  positivity

/-- The nearest integer is at most one half away. -/
theorem Rounding.abs_halfEven_sub_le (q : Rat) : |(halfEven q : Rat) - q| ≤ 1 / 2 := by
  have hhalf : mkRat 1 2 = 1 / 2 := by norm_num [Rat.mkRat_eq_div]
  have hfloor := Rat.floor_le q
  have hnext := Rat.lt_floor_add_one q
  push_cast at hnext
  simp only [halfEven, hhalf]
  rw [abs_le]
  split
  · constructor <;> linarith
  · split
    · push_cast
      constructor <;> linarith
    · split
      · constructor <;> linarith
      · push_cast
        constructor <;> linarith

namespace Binary64

/-- A positive number is not below the power of two of its exponent. -/
theorem pow2_log2_le {q : Rat} (hq : 0 < q) : pow2 (log2 q) ≤ q := by
  simp only [log2]
  split
  · assumption
  · have hnum : 0 < q.num := Rat.num_pos.mpr hq
    have hlow : (2 : Rat) ^ q.num.natAbs.log2 ≤ (q.num : Rat) := by
      have h : 2 ^ q.num.natAbs.log2 ≤ q.num.natAbs := Nat.log2_self_le (by omega)
      have habs : (q.num.natAbs : Int) = q.num := Int.natAbs_of_nonneg hnum.le
      rw [← habs]
      exact_mod_cast h
    have hhigh : (q.den : Rat) ≤ 2 ^ (q.den.log2 + 1) := by
      exact_mod_cast (Nat.lt_log2_self).le
    have hden : (0 : Rat) < q.den := by exact_mod_cast q.den_pos
    calc pow2 (Int.ofNat q.num.natAbs.log2 - Int.ofNat q.den.log2 - 1)
        = 2 ^ q.num.natAbs.log2 / 2 ^ (q.den.log2 + 1) := by
          rw [pow2_eq_zpow, sub_sub, zpow_sub₀ (by norm_num)]
          rfl
      _ ≤ q.num / q.den := div_le_div₀ (by exact_mod_cast hnum.le) hlow hden hhigh
      _ = q := q.num_div_den

/-- Half a unit of the last place of a positive number is one part in 2⁵³ of it at most, or
half of the least number of the format. -/
theorem pow2_lastPlace_le {q : Rat} (hq : 0 < q) :
    pow2 (lastPlace q) / 2 ≤ q * 2 ^ (-53 : Int) + 2 ^ (-1075 : Int) := by
  have hmagnitude : magnitude q = q := if_neg (not_lt.mpr hq.le)
  have hlog := pow2_log2_le hq
  rw [pow2_eq_zpow] at hlog ⊢
  rw [lastPlace, hmagnitude]
  rcases le_total (log2 q - 52) (-1074) with hsmall | hlarge
  · rw [max_eq_right hsmall]
    have hsplit : (2 : Rat) ^ (-1074 : Int) / 2 = 2 ^ (-1075 : Int) :=
      (zpow_sub_one₀ (by norm_num) (-1074)).symm
    rw [hsplit]
    exact le_add_of_nonneg_left (by positivity)
  · rw [max_eq_left hlarge]
    have hsplit : (2 : Rat) ^ (log2 q - 52) / 2 = 2 ^ log2 q * 2 ^ (-53 : Int) := by
      rw [zpow_sub₀ (by norm_num)]
      norm_num
      ring
    rw [hsplit]
    refine le_add_of_le_of_nonneg ?_ (by positivity)
    exact mul_le_mul_of_nonneg_right hlog (by positivity)

/-- The error of rounding. -/
theorem abs_round_sub_le {q : Rat} (hq : 0 ≤ q) :
    |round q - q| ≤ q * 2 ^ (-53 : Int) + 2 ^ (-1075 : Int) := by
  rcases hq.eq_or_lt with rfl | hpos
  · simp only [round, if_pos, sub_zero, abs_zero, zero_mul, zero_add]
    positivity
  · have hunit : 0 < pow2 (lastPlace q) := pow2_pos _
    have hhalf := Rounding.abs_halfEven_sub_le (q / pow2 (lastPlace q))
    refine le_trans ?_ (pow2_lastPlace_le hpos)
    rw [round, if_neg hpos.ne']
    generalize pow2 (lastPlace q) = unit at hunit hhalf ⊢
    calc |(Rounding.halfEven (q / unit) : Rat) * unit - q|
        = |(Rounding.halfEven (q / unit) : Rat) - q / unit| * unit := by
          rw [← abs_of_pos hunit, ← abs_mul, abs_of_pos hunit, sub_mul,
            div_mul_cancel₀ q hunit.ne']
      _ ≤ 1 / 2 * unit := mul_le_mul_of_nonneg_right hhalf hunit.le
      _ = unit / 2 := by ring

/-- The error of rounding a number up to a power of two. -/
theorem abs_round_sub_le_of_le {q : Rat} {k : Nat} (hq : 0 ≤ q) (hle : q ≤ 2 ^ k) :
    |round q - q| ≤ 2 ^ k / 2 ^ 52 := by
  have hleast : (2 : Rat) ^ (-1075 : Int) ≤ 2 ^ (-53 : Int) :=
    zpow_le_zpow_right₀ (by norm_num) (by norm_num)
  have hone : (1 : Rat) ≤ 2 ^ k := one_le_pow₀ (by norm_num)
  have hunit : (2 : Rat) ^ (-53 : Int) = 1 / 2 ^ 53 := by norm_num
  have herror := abs_round_sub_le hq
  rw [hunit] at herror hleast
  linarith

theorem round_nonneg {q : Rat} (hq : 0 ≤ q) : 0 ≤ round q := by
  rw [round]
  split
  · exact le_rfl
  · have hunit : 0 < pow2 (lastPlace q) := pow2_pos _
    have hfloor : 0 ≤ (q / pow2 (lastPlace q)).floor :=
      Rat.le_floor_iff.mpr (by simpa using div_nonneg hq hunit.le)
    refine mul_nonneg ?_ hunit.le
    have hnearest : 0 ≤ Rounding.halfEven (q / pow2 (lastPlace q)) := by
      simp only [Rounding.halfEven]
      split_ifs <;> omega
    exact_mod_cast hnearest

end Binary64

end AudioCatalog
