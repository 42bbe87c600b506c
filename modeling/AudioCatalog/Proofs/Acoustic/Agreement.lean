import AudioCatalog.Acoustic.Similarity
import Mathlib.Algebra.BigOperators.Group.Finset.Basic
import Mathlib.Algebra.Order.BigOperators.Group.Finset

/-!
# The bits in which keys agree

Two words agree in the bits that are the same in both, and two keys in those of the words that
both have from their fingerprints.  The number of such bits does not depend on the order of the
keys or on what stands behind the valid words, it is full exactly if the words are equal, and it
grows with the set of bits.
-/

namespace AudioCatalog

/-! ## Words -/

theorem agreeingBits_le (x y : UInt32) : agreeingBits x y ≤ 32 :=
  Nat.sub_le ..

/-- Words agree in the bits that are the same in both. -/
theorem agreeingBits_eq_countP (x y : UInt32) :
    agreeingBits x y =
      (List.range 32).countP fun k => x.toNat.testBit k == y.toNat.testBit k := by
  have hdiffer : populationCount (x ^^^ y) =
      (List.range 32).countP fun k => ¬ (x.toNat.testBit k == y.toNat.testBit k) := by
    rw [populationCount]
    refine List.countP_congr fun k _ => ?_
    rw [UInt32.toNat_xor, Nat.testBit_xor]
    cases x.toNat.testBit k <;> cases y.toNat.testBit k <;> decide
  have hall := List.length_eq_countP_add_countP (l := List.range 32)
    (fun k => x.toNat.testBit k == y.toNat.testBit k)
  rw [List.length_range] at hall
  rw [agreeingBits, hdiffer]
  omega

theorem agreeingBits_comm (x y : UInt32) : agreeingBits x y = agreeingBits y x := by
  rw [agreeingBits, agreeingBits, UInt32.xor_comm]

/-- Words that agree in all bits are equal. -/
theorem agreeingBits_eq_iff {x y : UInt32} : agreeingBits x y = 32 ↔ x = y := by
  have hcount := List.countP_eq_length (l := List.range 32)
    (p := fun k => x.toNat.testBit k == y.toNat.testBit k)
  rw [← agreeingBits_eq_countP, List.length_range] at hcount
  rw [hcount]
  constructor
  · intro hbits
    apply UInt32.toNat_inj.mp
    apply Nat.eq_of_testBit_eq
    intro k
    by_cases hk : k < 32
    · exact eq_of_beq (hbits k (List.mem_range.mpr hk))
    · have hpow : 2 ^ 32 ≤ 2 ^ k := Nat.pow_le_pow_right (by decide) (not_lt.mp hk)
      rw [Nat.testBit_lt_two_pow (x.toNat_lt.trans_le hpow),
        Nat.testBit_lt_two_pow (y.toNat_lt.trans_le hpow)]
  · rintro rfl k _
    exact beq_self_eq_true _

/-- A word that agrees with another one in more bits. -/
theorem agreeingBits_mono {x y z : UInt32}
    (hmore : ∀ k < 32, y.toNat.testBit k = x.toNat.testBit k →
      z.toNat.testBit k = x.toNat.testBit k) :
    agreeingBits x y ≤ agreeingBits x z := by
  rw [agreeingBits_eq_countP, agreeingBits_eq_countP]
  refine List.countP_mono_left fun k hk hagree => ?_
  have hsame := hmore k (List.mem_range.mp hk) (eq_of_beq hagree).symm
  rw [hsame]
  exact beq_self_eq_true _

namespace AcousticKey

/-! ## Keys -/

/-- A word of a key, by its position. -/
def word (key : AcousticKey) (i : Nat) : UInt32 :=
  key.vector.getD i 0

/-- A bit of a word of a key. -/
def bit (key : AcousticKey) (i k : Nat) : Bool :=
  (key.word i).toNat.testBit k

/-- Whether two keys have the same frame count, and the same words from their fingerprints. -/
def SameWords (a b : AcousticKey) : Prop :=
  a.frames = b.frames ∧ ∀ i < a.validLength, a.word i = b.word i

/-- Whether one key agrees with `a` in every overlapping bit in which `b` does, and has the
frame count of `b`. -/
def AgreesMore (a b closer : AcousticKey) : Prop :=
  closer.frames = b.frames ∧
    ∀ i < overlap a b, ∀ k < 32, b.bit i k = a.bit i k → closer.bit i k = a.bit i k

variable {a b : AcousticKey}

theorem overlap_comm (a b : AcousticKey) : overlap a b = overlap b a :=
  Nat.min_comm ..

theorem validLength_congr (hframes : a.frames = b.frames) : a.validLength = b.validLength := by
  rw [validLength, validLength, hframes]

theorem overlap_le_left (a b : AcousticKey) : overlap a b ≤ a.validLength :=
  Nat.min_le_left ..

theorem overlap_le_right (a b : AcousticKey) : overlap a b ≤ b.validLength :=
  Nat.min_le_right ..

theorem overlap_le_length (key a b : AcousticKey) : overlap a b ≤ key.vector.length := by
  rw [key.length_eq]
  exact (overlap_le_left a b).trans (Nat.min_le_right ..)

theorem word_eq_getElem (key : AcousticKey) {i : Nat} (hi : i < key.vector.length) :
    key.word i = key.vector[i] :=
  (List.getElem_eq_getD 0).symm

/-- The bits in which keys agree, counted word by word. -/
theorem matchingBits_eq_sum (a b : AcousticKey) :
    matchingBits a b =
      ∑ i ∈ Finset.range (overlap a b), agreeingBits (a.word i) (b.word i) := by
  have hwords : List.zipWith agreeingBits (a.vector.take (overlap a b))
      (b.vector.take (overlap a b)) =
        (List.range (overlap a b)).map fun i => agreeingBits (a.word i) (b.word i) := by
    have ha := overlap_le_length a a b
    have hb := overlap_le_length b a b
    apply List.ext_getElem
    · simp only [List.length_zipWith, List.length_take, List.length_map, List.length_range]
      omega
    · intro i _ hi
      simp only [List.length_map, List.length_range] at hi
      simp only [List.getElem_zipWith, List.getElem_take, List.getElem_map, List.getElem_range,
        word_eq_getElem a (hi.trans_le ha), word_eq_getElem b (hi.trans_le hb)]
  rw [matchingBits, hwords]
  rfl

theorem matchingBits_comm (a b : AcousticKey) : matchingBits a b = matchingBits b a := by
  rw [matchingBits_eq_sum, matchingBits_eq_sum, overlap_comm a b]
  exact Finset.sum_congr rfl fun i _ => agreeingBits_comm ..

/-- The overlapping bits, counted word by word. -/
theorem overlap_mul_eq_sum (a b : AcousticKey) :
    overlap a b * 32 = ∑ _i ∈ Finset.range (overlap a b), 32 := by
  rw [Finset.sum_const, Finset.card_range, Nat.nsmul_eq_mul]

theorem matchingBits_le (a b : AcousticKey) : matchingBits a b ≤ overlap a b * 32 := by
  rw [matchingBits_eq_sum, overlap_mul_eq_sum]
  exact Finset.sum_le_sum fun i _ => agreeingBits_le ..

/-- All overlapping bits agree exactly if the overlapping words are equal. -/
theorem matchingBits_eq_iff (a b : AcousticKey) :
    matchingBits a b = overlap a b * 32 ↔ ∀ i < overlap a b, a.word i = b.word i := by
  have heach := Finset.sum_eq_sum_iff_of_le (s := Finset.range (overlap a b))
    fun i _ => agreeingBits_le (a.word i) (b.word i)
  rw [matchingBits_eq_sum, overlap_mul_eq_sum, heach]
  exact forall_congr' fun i => by rw [Finset.mem_range, agreeingBits_eq_iff]

/-- Only the valid words are compared. -/
theorem matchingBits_congr {a' b' : AcousticKey} (ha : SameWords a a') (hb : SameWords b b') :
    overlap a' b' = overlap a b ∧ matchingBits a' b' = matchingBits a b := by
  have hoverlap : overlap a' b' = overlap a b := by
    rw [overlap, overlap, validLength_congr ha.1, validLength_congr hb.1]
  refine ⟨hoverlap, ?_⟩
  rw [matchingBits_eq_sum, matchingBits_eq_sum, hoverlap]
  refine Finset.sum_congr rfl fun i hi => ?_
  have hi := Finset.mem_range.mp hi
  rw [ha.2 i (hi.trans_le (overlap_le_left a b)), hb.2 i (hi.trans_le (overlap_le_right a b))]

/-- A key that agrees with another one in more bits. -/
theorem matchingBits_mono {closer : AcousticKey} (hmore : AgreesMore a b closer) :
    overlap a closer = overlap a b ∧ matchingBits a b ≤ matchingBits a closer := by
  have hoverlap : overlap a closer = overlap a b := by
    rw [overlap, overlap, validLength_congr hmore.1]
  refine ⟨hoverlap, ?_⟩
  rw [matchingBits_eq_sum, matchingBits_eq_sum, hoverlap]
  exact Finset.sum_le_sum fun i hi => agreeingBits_mono (hmore.2 i (Finset.mem_range.mp hi))

end AcousticKey

end AudioCatalog
