import AudioCatalog.Proofs.Acoustic.Laws
import AudioCatalog.Proofs.Catalog.ReadBack

/-!
# Keys with nothing behind their frames

A key has 256 words, of which as many are valid as there are frames.  Fingerprints make keys with
zeros behind the valid words, and each such key is that of a fingerprint.  What is stored of a key
determines it, but reading takes the words behind the valid ones as they are: a stored key comes
from a fingerprint exactly if the bytes behind its frames are zero.
-/

namespace AudioCatalog.AcousticKey

/-- Whether there are only zeros behind the valid words. -/
def Padded (key : AcousticKey) : Prop :=
  ∀ word ∈ key.vector.drop key.frames, word = 0

/-- Whether there are only zeros behind the bytes of so many words. -/
def ZeroBehind (bytes : List UInt8) (frames : Nat) : Prop :=
  ∀ byte ∈ bytes.drop (4 * frames), byte = 0

variable {key : AcousticKey}

theorem ext {a b : AcousticKey} (hvector : a.vector = b.vector) (hframes : a.frames = b.frames) :
    a = b := by
  cases a
  cases b
  cases hvector
  cases hframes
  rfl

/-! ## Words behind the frames -/

/-- A padded key is its valid words and zeros. -/
theorem Padded.vector_eq (hpadded : key.Padded) :
    key.vector = key.vector.take key.frames ++ List.replicate (vectorLength - key.frames) 0 := by
  have hrest : key.vector.drop key.frames = List.replicate (vectorLength - key.frames) 0 := by
    refine List.eq_replicate_iff.mpr ⟨?_, hpadded⟩
    rw [List.length_drop, key.length_eq, vectorLength]
  rw [← hrest, List.take_append_drop]

/-- The valid words are those at the positions below the frame count. -/
theorem SameWords.take_eq {a b : AcousticKey} (hsame : SameWords a b) :
    a.vector.take a.frames = b.vector.take b.frames := by
  obtain ⟨hframes, hwords⟩ := hsame
  apply List.ext_getElem
  · rw [List.length_take, List.length_take, a.length_eq, b.length_eq, hframes]
  · intro i ha hb
    rw [List.length_take] at ha hb
    have hword := hwords i (by rw [validLength, vectorLength, ← a.length_eq]; exact ha)
    rw [word_eq_getElem a (by omega), word_eq_getElem b (by omega)] at hword
    rw [List.getElem_take, List.getElem_take, hword]

/-- Padded keys with the same valid words are equal. -/
theorem Padded.eq_of_sameWords {a b : AcousticKey} (ha : a.Padded) (hb : b.Padded)
    (hsame : SameWords a b) : a = b := by
  refine ext ?_ hsame.1
  rw [ha.vector_eq, hb.vector_eq, hsame.take_eq, hsame.1]

/-! ## Keys of fingerprints -/

/-- The key of a fingerprint, by its words and its frame count. -/
theorem ofFingerprint?_eq_some_iff {words : List UInt32} :
    ofFingerprint? words = some key ↔
      words ≠ [] ∧ key.frames = min words.length 4294967295 ∧
        key.vector = words.take vectorLength ++ List.replicate (vectorLength - words.length) 0 := by
  rw [ofFingerprint?]
  by_cases hnone : words = []
  · simp [hnone]
  · rw [dif_neg hnone, Option.some_inj]
    constructor
    · rintro rfl
      exact ⟨hnone, rfl, rfl⟩
    · rintro ⟨-, hframes, hvector⟩
      exact ext hvector.symm hframes.symm

theorem padded_of_ofFingerprint? {words : List UInt32} (h : ofFingerprint? words = some key) :
    key.Padded := by
  obtain ⟨-, hframes, hvector⟩ := ofFingerprint?_eq_some_iff.mp h
  intro word hmem
  rw [hvector, List.drop_append, List.mem_append, List.length_take, vectorLength] at hmem
  rcases hmem with hvalid | hzero
  · -- Frames are cut off only where the vector is full.
    have hnone : (words.take 256).drop key.frames = [] := by
      rw [List.drop_eq_nil_iff, List.length_take]
      omega
    rw [hnone] at hvalid
    cases hvalid
  · exact (List.mem_replicate.mp (List.mem_of_mem_drop hzero)).2

/-- A padded key is that of its valid words, with more words behind them if there are more frames
than words in a key. -/
theorem Padded.exists_ofFingerprint? (hpadded : key.Padded) :
    ∃ words, ofFingerprint? words = some key := by
  have hlength := key.length_eq
  have hpos := key.frames_pos
  have hlt := key.frames_lt
  have hwords : (key.vector.take key.frames ++
      List.replicate (key.frames - vectorLength) 0).length = key.frames := by
    rw [List.length_append, List.length_take, List.length_replicate, hlength, vectorLength]
    omega
  refine ⟨key.vector.take key.frames ++ List.replicate (key.frames - vectorLength) 0,
    ofFingerprint?_eq_some_iff.mpr ⟨?_, ?_, ?_⟩⟩
  · intro hnone
    rw [hnone] at hwords
    exact Nat.ne_of_lt hpos hwords
  · rw [hwords]
    omega
  · have hvalid : (key.vector.take key.frames).take vectorLength = key.vector.take key.frames := by
      refine List.take_of_length_le ?_
      rw [List.length_take, hlength]
      exact Nat.min_le_right ..
    -- Words are added only where none of them is among the first 256.
    have hadded : (List.replicate (key.frames - vectorLength) (0 : UInt32)).take
        (vectorLength - (key.vector.take key.frames).length) = [] := by
      rw [List.take_replicate, List.length_take, hlength, vectorLength]
      exact (List.replicate_eq_nil_iff 0).mpr (by omega)
    rw [hwords, List.take_append, hvalid, hadded, List.append_nil]
    exact hpadded.vector_eq

/-! ## Stored keys -/

/-- What is stored of a key determines it. -/
theorem ofStored?_eq_some_iff {bytes : List UInt8} {frames : UInt32} :
    ofStored? bytes frames = some key ↔ bytes = key.stored ∧ frames.toNat = key.frames := by
  constructor
  · intro h
    rw [ofStored?] at h
    split at h
    · rename_i hread
      cases h
      have hwhole : bytes.length % 4 = 0 := by rw [hread.1]
      exact ⟨(flatMap_littleEndianWords hwhole).symm, rfl⟩
    · cases h
  · rintro ⟨rfl, hframes⟩
    rw [← key.ofStored?_stored, ← hframes, UInt32.ofNat_toNat]

/-- A key is padded exactly if what is stored of it ends in zeros. -/
theorem padded_iff_zeroBehind : key.Padded ↔ ZeroBehind key.stored key.frames := by
  rw [ZeroBehind, stored, drop_flatMap_littleEndian32]
  simp only [List.mem_flatMap]
  constructor
  · rintro hpadded byte ⟨word, hmem, hbyte⟩
    exact (forall_littleEndian32_eq_zero_iff word).mpr (hpadded word hmem) byte hbyte
  · intro hbytes word hmem
    exact (forall_littleEndian32_eq_zero_iff word).mp fun byte hbyte =>
      hbytes byte ⟨word, hmem, hbyte⟩

/-! ## The rule -/

/-- Stored bytes with nothing behind their frames are read exactly if they are those of a
fingerprint. -/
theorem isSome_ofStored?_iff {bytes : List UInt8} {frames : UInt32}
    (hzero : ZeroBehind bytes frames.toNat) :
    (ofStored? bytes frames).isSome ↔ ∃ words key, ofFingerprint? words = some key ∧
      bytes = key.stored ∧ frames.toNat = key.frames := by
  constructor
  · intro hread
    obtain ⟨key, hkey⟩ := Option.isSome_iff_exists.mp hread
    obtain ⟨hbytes, hframes⟩ := ofStored?_eq_some_iff.mp hkey
    have hpadded : key.Padded := by
      rw [padded_iff_zeroBehind, ← hbytes, ← hframes]
      exact hzero
    obtain ⟨words, hwords⟩ := hpadded.exists_ofFingerprint?
    exact ⟨words, key, hwords, hbytes, hframes⟩
  · rintro ⟨words, key, -, hstored⟩
    rw [ofStored?_eq_some_iff.mpr hstored]
    rfl

/-- Every key has 256 words and at least one frame.  Fingerprints make exactly the keys with zeros
behind their frames, and a stored key is one of these exactly if its bytes behind the frames are
zero.  Such bytes can be read exactly if they are stored of the key of a fingerprint, and keys of
this kind are equal if their frame counts and their valid words are. -/
theorem canonical_iff_zeroBehind (words : List UInt32) (bytes : List UInt8) (frames : UInt32) :
    (∀ key, ofFingerprint? words = some key →
      key.vector.length = vectorLength ∧ 0 < key.frames ∧ key.Padded) ∧
    (∀ key, ofStored? bytes frames = some key →
      key.vector.length = vectorLength ∧ 0 < key.frames ∧
        (key.Padded ↔ ZeroBehind bytes frames.toNat)) ∧
    (ZeroBehind bytes frames.toNat →
      ((ofStored? bytes frames).isSome ↔ ∃ words key, ofFingerprint? words = some key ∧
        bytes = key.stored ∧ frames.toNat = key.frames)) ∧
    ∀ a b : AcousticKey, a.Padded → b.Padded → SameWords a b → a = b := by
  refine ⟨fun key hkey => ?_, fun key hkey => ?_, isSome_ofStored?_iff,
    fun a b => Padded.eq_of_sameWords⟩
  · exact ⟨key.length_eq, key.frames_pos, padded_of_ofFingerprint? hkey⟩
  · obtain ⟨rfl, hframes⟩ := ofStored?_eq_some_iff.mp hkey
    rw [hframes]
    exact ⟨key.length_eq, key.frames_pos, padded_iff_zeroBehind⟩

/-- The key of two words is read from what is stored of it, and only from bytes that end in
zeros. -/
theorem canonical_of_two_words :
    ofFingerprint? [1, 2] = some (twoFrames 1 2 0) ∧ (twoFrames 1 2 0).Padded ∧
      (ofStored? (twoFrames 1 2 0).stored 2).isSome ∧
      ZeroBehind (twoFrames 1 2 0).stored (2 : UInt32).toNat := by
  obtain ⟨hfingerprint, hstored, hread, -⟩ :=
    canonical_iff_zeroBehind [1, 2] (twoFrames 1 2 0).stored 2
  have hwords : ofFingerprint? [1, 2] = some (twoFrames 1 2 0) := rfl
  have hkey : ofStored? (twoFrames 1 2 0).stored 2 = some (twoFrames 1 2 0) :=
    (twoFrames 1 2 0).ofStored?_stored
  have hpadded := (hfingerprint _ hwords).2.2
  have hzero := (hstored _ hkey).2.2.mp hpadded
  exact ⟨hwords, hpadded, (hread hzero).mpr ⟨_, _, hwords, rfl, rfl⟩, hzero⟩

/-- A word behind the two valid ones is read as it is stored.  The key is then that of no
fingerprint, and differs from one with the same frame count and the same valid words. -/
theorem canonical_not_of_third_word : ∃ key,
    ofStored? (twoFrames 1 2 3).stored 2 = some key ∧ ¬ key.Padded ∧
      (∀ words, ofFingerprint? words ≠ some key) ∧
      SameWords key (twoFrames 1 2 0) ∧ key ≠ twoFrames 1 2 0 := by
  have hbehind : 3 ∈ (twoFrames 1 2 3).vector.drop (twoFrames 1 2 3).frames :=
    List.mem_replicate.mpr ⟨by decide, rfl⟩
  have hunpadded : ¬ (twoFrames 1 2 3).Padded := fun hpadded =>
    absurd (hpadded 3 hbehind) (by decide)
  refine ⟨twoFrames 1 2 3, (twoFrames 1 2 3).ofStored?_stored, hunpadded, fun words hwords => ?_,
    ⟨rfl, by decide⟩, by decide⟩
  exact hunpadded (padded_of_ofFingerprint? hwords)

end AudioCatalog.AcousticKey
