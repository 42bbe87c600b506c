import AudioCatalog.Number.LittleEndian
import Mathlib.Algebra.Group.Nat.Defs

/-!
# Little-endian numbers read back

The bytes of a number are its remainders by 256, the lowest first.  As many bytes as the number
needs are read back as the number, and words written one after the other as those words.
-/

namespace AudioCatalog

/-- The lowest bytes of a number, as many as the width says. -/
def numberBytes : Nat → Nat → List UInt8
  | 0, _ => []
  | width + 1, number => UInt8.ofNat number :: numberBytes width (number / 256)

theorem length_numberBytes (width number : Nat) : (numberBytes width number).length = width := by
  induction width generalizing number with
  | zero => rfl
  | succ width ih => rw [numberBytes, List.length_cons, ih]

/-- Of a number that is too large only the remainder is read back. -/
theorem ofLittleEndian_numberBytes (width number : Nat) :
    ofLittleEndian (numberBytes width number) = number % 256 ^ width := by
  induction width generalizing number with
  | zero => rw [numberBytes, ofLittleEndian, Nat.pow_zero, Nat.mod_one]
  | succ width ih =>
      have hbyte : (UInt8.ofNat number).toNat = number % 256 := UInt8.toNat_ofNat'
      rw [numberBytes, ofLittleEndian, ih, hbyte, Nat.pow_succ', Nat.mod_mul]

/-- A byte string is the bytes of the number that it stands for. -/
theorem numberBytes_ofLittleEndian (bytes : List UInt8) :
    numberBytes bytes.length (ofLittleEndian bytes) = bytes := by
  induction bytes with
  | nil => rfl
  | cons byte bytes ih =>
      have hlt : byte.toNat < 256 := byte.toNat_lt
      have hbyte : UInt8.ofNat (byte.toNat + 256 * ofLittleEndian bytes) = byte := by
        apply UInt8.toNat_inj.mp
        rw [UInt8.toNat_ofNat']
        omega
      have hrest : (byte.toNat + 256 * ofLittleEndian bytes) / 256 = ofLittleEndian bytes := by
        omega
      rw [List.length_cons, ofLittleEndian, numberBytes, hbyte, hrest, ih]

theorem ofLittleEndian_lt (bytes : List UInt8) : ofLittleEndian bytes < 256 ^ bytes.length := by
  induction bytes with
  | nil => exact Nat.one_pos
  | cons byte bytes ih =>
      have hlt : byte.toNat < 256 := byte.toNat_lt
      rw [ofLittleEndian, List.length_cons, Nat.pow_succ']
      omega

/-! ## Words -/

theorem littleEndian32_eq (n : UInt32) : littleEndian32 n = numberBytes 4 n.toNat := by
  simp only [littleEndian32, numberBytes, Nat.div_div_eq_div_mul, Nat.reduceMul, List.cons.injEq,
    ← UInt8.toNat_inj, UInt32.toNat_toUInt8, UInt32.toNat_shiftRight, UInt8.toNat_ofNat',
    UInt32.reduceToNat, Nat.reduceMod, Nat.shiftRight_eq_div_pow, Nat.reducePow, and_self]

theorem littleEndian16_eq (n : UInt16) : littleEndian16 n = numberBytes 2 n.toNat := by
  simp only [littleEndian16, numberBytes, List.cons.injEq, ← UInt8.toNat_inj, UInt16.toNat_toUInt8,
    UInt16.toNat_shiftRight, UInt8.toNat_ofNat', UInt16.reduceToNat, Nat.reduceMod,
    Nat.shiftRight_eq_div_pow, Nat.reducePow, and_self]

theorem ofLittleEndian_littleEndian32 (n : UInt32) :
    ofLittleEndian (littleEndian32 n) = n.toNat := by
  rw [littleEndian32_eq, ofLittleEndian_numberBytes]
  exact Nat.mod_eq_of_lt n.toNat_lt

theorem ofLittleEndian_littleEndian16 (n : UInt16) :
    ofLittleEndian (littleEndian16 n) = n.toNat := by
  rw [littleEndian16_eq, ofLittleEndian_numberBytes]
  exact Nat.mod_eq_of_lt n.toNat_lt

theorem littleEndianWords_flatMap (words : List UInt32) :
    littleEndianWords (words.flatMap littleEndian32) = words := by
  induction words with
  | nil => rfl
  | cons word words ih =>
      have hword := ofLittleEndian_littleEndian32 word
      rw [littleEndian32] at hword
      rw [List.flatMap_cons, littleEndian32, List.cons_append, List.cons_append, List.cons_append,
        List.singleton_append, littleEndianWords, hword, UInt32.ofNat_toNat, ih]

theorem length_flatMap_littleEndian32 (words : List UInt32) :
    (words.flatMap littleEndian32).length = 4 * words.length := by
  induction words with
  | nil => rfl
  | cons word words ih =>
      rw [List.flatMap_cons, List.length_append, ih, List.length_cons]
      simp only [littleEndian32, List.length_cons, List.length_nil]
      omega

/-- Four bytes are those of the word that they stand for. -/
theorem littleEndian32_ofLittleEndian {bytes : List UInt8} (hlength : bytes.length = 4) :
    littleEndian32 (UInt32.ofNat (ofLittleEndian bytes)) = bytes := by
  have hlt := ofLittleEndian_lt bytes
  rw [hlength] at hlt
  rw [littleEndian32_eq, UInt32.toNat_ofNat_of_lt' hlt, ← hlength, numberBytes_ofLittleEndian]

/-- Bytes in groups of four are those of the words that they stand for. -/
theorem flatMap_littleEndianWords {bytes : List UInt8} (hwhole : bytes.length % 4 = 0) :
    (littleEndianWords bytes).flatMap littleEndian32 = bytes := by
  fun_induction littleEndianWords bytes with
  | case1 b0 b1 b2 b3 rest ih =>
      have hrest : rest.length % 4 = 0 := by
        simp only [List.length_cons] at hwhole
        omega
      rw [List.flatMap_cons, ih hrest, littleEndian32_ofLittleEndian rfl]
      rfl
  | case2 bytes short =>
      rcases bytes with _ | ⟨b0, _ | ⟨b1, _ | ⟨b2, _ | ⟨b3, rest⟩⟩⟩⟩
      · rfl
      · cases hwhole
      · cases hwhole
      · cases hwhole
      · exact (short b0 b1 b2 b3 rest rfl).elim

/-- Behind the bytes of some words stand those of the other words. -/
theorem drop_flatMap_littleEndian32 (count : Nat) (words : List UInt32) :
    (words.flatMap littleEndian32).drop (4 * count) =
      (words.drop count).flatMap littleEndian32 := by
  induction count generalizing words with
  | zero => rfl
  | succ count ih =>
      cases words with
      | nil => rw [List.flatMap_nil, List.drop_nil, List.drop_nil, List.flatMap_nil]
      | cons word words =>
          have hword : (littleEndian32 word).length = 4 := rfl
          have hcount : 4 * (count + 1) = (littleEndian32 word).length + 4 * count := by
            rw [hword]
            omega
          rw [List.flatMap_cons, hcount, List.drop_length_add_append, List.drop_succ_cons, ih]

/-- A word is zero exactly if its bytes are. -/
theorem forall_littleEndian32_eq_zero_iff (word : UInt32) :
    (∀ byte ∈ littleEndian32 word, byte = 0) ↔ word = 0 := by
  constructor
  · intro hbytes
    have hzero : littleEndian32 word = littleEndian32 0 :=
      List.eq_replicate_iff.mpr ⟨rfl, hbytes⟩
    have hnumber := congrArg ofLittleEndian hzero
    rw [ofLittleEndian_littleEndian32, ofLittleEndian_littleEndian32] at hnumber
    exact UInt32.toNat_inj.mp hnumber
  · rintro rfl
    exact (List.eq_replicate_iff (n := 4).mp rfl).2

end AudioCatalog
