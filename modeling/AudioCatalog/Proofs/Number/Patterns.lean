import AudioCatalog.Number.FloatPattern
import AudioCatalog.Proofs.Number.Monotonicity

/-!
# Numbers of 32-bit patterns

A finite pattern of 32 bits stands for an integer of 24 bits times a power of two, so that
scaling it by a power of two gives a number of the 64-bit format: nothing is lost.  The order of
the values leaves out what is not a number, and rounding to the nearest integer keeps it.
-/

namespace AudioCatalog

/-! ## The nearest integer, with halves away from zero -/

namespace Rounding

/-- Whether an integer is the nearest one, and in the middle between two the one that is further
from zero. -/
def IsNearestAway (q : Rat) (n : Int) : Prop :=
  |(n : Rat) - q| ≤ 1 / 2 ∧ (|(n : Rat) - q| = 1 / 2 → |q| < |(n : Rat)|)

theorem IsNearestAway.neg {q : Rat} {n : Int} (h : IsNearestAway q n) :
    IsNearestAway (-q) (-n) := by
  have hmirror : |((-n : Int) : Rat) - -q| = |(n : Rat) - q| := by
    rw [← abs_neg]
    push_cast
    ring_nf
  rw [IsNearestAway, hmirror, Int.cast_neg, abs_neg, abs_neg]
  exact h

theorem isNearestAway_halfAway (q : Rat) : IsNearestAway q (halfAway q) := by
  have hhalf : mkRat 1 2 = 1 / 2 := by norm_num [Rat.mkRat_eq_div]
  -- On both sides of zero it is a floor that is taken.
  have hfloor : ∀ p : Rat, 0 ≤ p → IsNearestAway p (p + 1 / 2).floor := by
    intro p hp
    have hlow := Rat.floor_le (p + 1 / 2)
    have hhigh := Rat.lt_floor_add_one (p + 1 / 2)
    push_cast at hhigh
    refine ⟨abs_le.mpr ⟨by linarith, by linarith⟩, fun htie => ?_⟩
    have habove : ((p + 1 / 2).floor : Rat) - p = 1 / 2 := by
      rcases abs_eq (by norm_num) |>.mp htie with h | h
      · exact h
      · linarith
    rw [abs_of_nonneg hp]
    exact lt_of_lt_of_le (by linarith) (le_abs_self _)
  rw [halfAway, hhalf]
  split
  · have hmirrored := (hfloor (-q) (by linarith)).neg
    rwa [neg_neg, neg_add_eq_sub] at hmirrored
  · exact hfloor q (by linarith)

theorem halfAway_mono {p q : Rat} (hle : p ≤ q) : halfAway p ≤ halfAway q :=
  mono_of_abs_sub_le (fun q => (isNearestAway_halfAway q).1) hle

theorem halfAway_intCast (n : Int) : halfAway n = n := by
  have hnear := (abs_le.mp (isNearestAway_halfAway n).1)
  have hlow : n - 1 < halfAway n := by
    have hclose : (n : Rat) - 1 < halfAway n := by linarith
    exact_mod_cast hclose
  have hhigh : halfAway n < n + 1 := by
    have hclose : (halfAway n : Rat) < n + 1 := by linarith
    exact_mod_cast hclose
  omega

end Rounding

/-! ## The order of values -/

/-- The order of values, in which what is not a number has no place. -/
inductive FloatValue.Le : FloatValue → FloatValue → Prop
  | belowAll {value : FloatValue} (h : value ≠ .nan) : Le (.infinite true) value
  | aboveAll {value : FloatValue} (h : value ≠ .nan) : Le value (.infinite false)
  | finite {p q : Rat} (h : p ≤ q) : Le (.finite p) (.finite q)

/-! ## Patterns of 32 bits -/

namespace FloatFormat

/-- The value of a pattern by its fields: one bit for the sign, eight for the exponent and
twenty-three for the fraction. -/
theorem decode_binary32 (pattern : Nat) :
    binary32.decode pattern =
      if pattern / 8388608 % 256 = 255 then
        if pattern % 8388608 = 0 then .infinite (pattern / 2147483648 % 2 == 1) else .nan
      else
        let size : Rat :=
          if pattern / 8388608 % 256 = 0 then (pattern % 8388608 : Nat) * pow2 (-149)
          else (8388608 + pattern % 8388608 : Nat) *
            pow2 (-149 + (pattern / 8388608 % 256 : Nat) - 1)
        .finite (if pattern / 2147483648 % 2 == 1 then -size else size) := by
  have hcast : ∀ n : Nat, (n : Rat) = ((Int.ofNat n : Int) : Rat) := fun n =>
    (Int.cast_natCast n).symm
  rw [hcast, hcast]
  rfl

/-- A finite pattern stands for an integer of twenty-four bits times a power of two. -/
theorem exists_of_decode_binary32 {pattern : Nat} {value : Rat}
    (h : binary32.decode pattern = .finite value) :
    ∃ (n : Nat) (place : Int), n < 16777216 ∧ -149 ≤ place ∧
      (value = n * pow2 place ∨ value = -(n * pow2 place)) := by
  have hfraction : pattern % 8388608 < 8388608 := Nat.mod_lt _ (by decide)
  obtain ⟨n, place, hn, hplace, hsize⟩ : ∃ (n : Nat) (place : Int), n < 16777216 ∧ -149 ≤ place ∧
      (if pattern / 8388608 % 256 = 0 then (pattern % 8388608 : Nat) * pow2 (-149)
        else (8388608 + pattern % 8388608 : Nat) *
          pow2 (-149 + (pattern / 8388608 % 256 : Nat) - 1) : Rat) = n * pow2 place := by
    split
    · exact ⟨pattern % 8388608, -149, by omega, le_rfl, rfl⟩
    · exact ⟨8388608 + pattern % 8388608, -149 + (pattern / 8388608 % 256 : Nat) - 1, by omega,
        by omega, rfl⟩
  refine ⟨n, place, hn, hplace, ?_⟩
  rw [decode_binary32, hsize] at h
  split at h
  · split at h <;> cases h
  · cases h
    split
    · exact .inr rfl
    · exact .inl rfl

/-- A pattern with an exponent that is neither the least nor the greatest. -/
theorem decode_fields (negative : Bool) {exponent fraction : Nat} (hlow : exponent ≠ 0)
    (hhigh : exponent < 255) (hfraction : fraction < 8388608) :
    binary32.decode ((if negative then 2147483648 else 0) + exponent * 8388608 + fraction) =
      .finite ((if negative then -1 else 1) *
        ((8388608 + fraction : Nat) * pow2 (exponent - 150))) := by
  generalize hpattern :
    (if negative then 2147483648 else 0) + exponent * 8388608 + fraction = pattern
  have hfields : pattern % 8388608 = fraction ∧ pattern / 8388608 % 256 = exponent ∧
      (pattern / 2147483648 % 2 == 1) = negative := by
    cases negative with
    | false =>
        simp only [Bool.false_eq_true, if_false] at hpattern
        rw [beq_eq_false_iff_ne]
        omega
    | true =>
        simp only [if_true] at hpattern
        rw [beq_iff_eq]
        omega
  have hplace : -149 + (exponent : Int) - 1 = exponent - 150 := by omega
  rw [decode_binary32, hfields.1, hfields.2.1, hfields.2.2, if_neg hhigh.ne, if_neg hlow, hplace]
  cases negative with
  | false => simp only [Bool.false_eq_true, if_false, one_mul]
  | true => simp only [if_true, neg_one_mul]

/-- The pattern of a 16-bit sample divided by 32768: the highest bit of its size is implied, and
the others are moved to the front of the fraction. -/
def samplePattern (sample : Int16) : UInt32 :=
  let size := sample.toInt.natAbs
  if size = 0 then 0
  else
    UInt32.ofNat ((if sample.toInt < 0 then 2147483648 else 0) + (size.log2 + 112) * 8388608 +
      (size - 2 ^ size.log2) * 2 ^ (23 - size.log2))

/-- With its highest bit moved to the front, a number of twenty-four bits fills them all, and
what is behind that bit is a fraction. -/
theorem significand_eq {n : Nat} (hsome : n ≠ 0) (hlt : n < 16777216) :
    8388608 + (n - 2 ^ n.log2) * 2 ^ (23 - n.log2) = n * 2 ^ (23 - n.log2) ∧
      (n - 2 ^ n.log2) * 2 ^ (23 - n.log2) < 8388608 := by
  have hbelow : 2 ^ n.log2 ≤ n := Nat.log2_self_le hsome
  have habove : n < 2 ^ n.log2 * 2 := Nat.lt_log2_self
  have hplaces : n.log2 < 24 := (Nat.log2_lt hsome).mpr hlt
  have hsplit : 2 ^ n.log2 * 2 ^ (23 - n.log2) = 8388608 := by
    rw [← Nat.pow_add, Nat.add_sub_of_le (by omega)]
  constructor
  · rw [← hsplit, ← Nat.add_mul, Nat.add_sub_of_le hbelow]
  · rw [← hsplit]
    exact Nat.mul_lt_mul_of_pos_right (by omega) (Nat.two_pow_pos _)

/-- The pattern of a sample has the value of the sample divided by 32768. -/
theorem decode_samplePattern (sample : Int16) :
    binary32.decode (samplePattern sample).toNat = .finite (sample.toInt / 32768) := by
  have hleast : -32768 ≤ sample.toInt := sample.le_toInt
  have hgreatest : sample.toInt < 32768 := sample.toInt_lt
  rw [samplePattern]
  generalize sample.toInt = n at hleast hgreatest
  split
  · rename_i hzero
    rw [Int.natAbs_eq_zero.mp hzero, decode_binary32]
    norm_num
  · rename_i hsome
    obtain ⟨hsignificand, hfraction⟩ := significand_eq hsome (by omega)
    have hplaces : n.natAbs.log2 < 16 := (Nat.log2_lt hsome).mpr (by omega)
    generalize n.natAbs.log2 = k at hsignificand hfraction hplaces ⊢
    have hscale : ((n.natAbs * 2 ^ (23 - k) : Nat) : Rat) * pow2 ((k + 112 : Nat) - 150) =
        |(n : Rat)| / 32768 := by
      have hexponent : ((23 - k : Nat) : Int) + ((k + 112 : Nat) - 150) = -15 := by omega
      have hsize : (n.natAbs : Rat) = |(n : Rat)| := by rw [Nat.cast_natAbs, Int.cast_abs]
      rw [Nat.cast_mul, mul_assoc, Nat.cast_pow, Nat.cast_ofNat, ← zpow_natCast, pow2_eq_zpow,
        ← zpow_add₀ (by norm_num), hexponent, hsize]
      norm_num
      ring
    have hexponent : k + 112 ≠ 0 ∧ k + 112 < 255 := by omega
    have hdecoded := decode_fields (decide (n < 0)) hexponent.1 hexponent.2 hfraction
    rw [hsignificand, hscale] at hdecoded
    simp only [decide_eq_true_eq] at hdecoded
    rw [UInt32.toNat_ofNat', Nat.mod_eq_of_lt (by split <;> omega), hdecoded]
    congr 1
    split
    · rename_i hnegative
      rw [abs_of_neg (by exact_mod_cast hnegative)]
      ring
    · rename_i hpositive
      rw [abs_of_nonneg (by exact_mod_cast not_lt.mp hpositive), one_mul]

end FloatFormat

/-! ## Scaling -/

namespace Binary64

theorem magnitude_eq_abs (q : Rat) : magnitude q = |q| := by
  rw [magnitude]
  split
  · rename_i hneg
    exact (abs_of_neg hneg).symm
  · rename_i hnonneg
    exact (abs_of_nonneg (not_lt.mp hnonneg)).symm

theorem lastPlace_abs (q : Rat) : lastPlace |q| = lastPlace q := by
  rw [lastPlace, lastPlace, magnitude_eq_abs, magnitude_eq_abs, abs_abs]

/-- A number of either sign with few enough places is not changed by rounding. -/
theorem round_eq_self_of_abs_lt {q : Rat} {k : Int} (hlt : |q| < pow2 k)
    (hgrid : OnGrid (max (k - 53) (-1074)) q) : round q = q := by
  by_cases hzero : q = 0
  · rw [hzero, round_zero]
  · have hplace : lastPlace q ≤ max (k - 53) (-1074) := by
      rw [← lastPlace_abs]
      exact lastPlace_le_of_lt (abs_pos.mpr hzero) hlt
    obtain ⟨n, hn⟩ := hgrid.mono hplace
    have hunit : pow2 (lastPlace q) ≠ 0 := (pow2_pos _).ne'
    have hquotient : q / pow2 (lastPlace q) = n := by
      rw [div_eq_iff hunit]
      exact hn
    have hinteger : Rounding.halfEven (n : Rat) = n :=
      Rounding.halfEven_eq_of_abs_sub_lt (by rw [sub_self, abs_zero]; norm_num)
    simp only [round, if_neg hzero, hquotient, hinteger]
    exact hn.symm

/-- A 32-bit number times 2³¹ is a number of the 64-bit format. -/
theorem round_scaled {pattern : Nat} {value : Rat}
    (h : FloatFormat.binary32.decode pattern = .finite value) :
    round (value * 2147483648) = value * 2147483648 := by
  obtain ⟨n, place, hn, hplace, hvalue⟩ := FloatFormat.exists_of_decode_binary32 h
  have hscale : (2147483648 : Rat) = pow2 31 := by
    rw [pow2_eq_zpow]
    norm_num
  have hbound : (n : Rat) < pow2 24 := by
    rw [pow2_eq_zpow]
    exact_mod_cast hn
  have hproduct : (n : Rat) * pow2 place * 2147483648 = n * pow2 (place + 31) := by
    rw [hscale, mul_assoc, ← pow2_add]
  have hsize : |(n : Rat) * pow2 (place + 31)| < pow2 (place + 55) := by
    have hsum : place + 55 = 24 + (place + 31) := by omega
    rw [abs_of_nonneg (mul_nonneg (Nat.cast_nonneg n) (pow2_pos _).le), hsum, pow2_add 24]
    exact mul_lt_mul_of_pos_right hbound (pow2_pos _)
  have hfine : max (place + 55 - 53) (-1074) ≤ place + 31 := by omega
  rcases hvalue with rfl | rfl
  · rw [hproduct]
    exact round_eq_self_of_abs_lt hsize (OnGrid.mono ⟨n, by rw [Int.cast_natCast]⟩ hfine)
  · rw [neg_mul, hproduct]
    refine round_eq_self_of_abs_lt (by rwa [abs_neg]) (OnGrid.mono ⟨-n, ?_⟩ hfine)
    push_cast
    ring

end Binary64

end AudioCatalog
