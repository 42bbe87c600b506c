import AudioCatalog.Number.LittleEndian

/-!
# Acoustic keys

A decoder describes how a recording sounds by a fingerprint, a list of 32-bit
words, one per frame.  The catalog keeps a key of fixed size: the first 256 words,
filled up with zeros, and the number of frames.  A key can also be rebuilt from
its stored bytes; the words past the frame count are then taken as they are.
-/

namespace AudioCatalog

/-- The words of a key, and its number of frames. -/
structure AcousticKey where
  vector : List UInt32
  frames : Nat
  length_eq : vector.length = 256
  frames_pos : 0 < frames
  frames_lt : frames < 4294967296
  deriving DecidableEq

namespace AcousticKey

/-- The number of words in every key. -/
def vectorLength : Nat := 256

/-- How many frame counts share a bucket. -/
def bucketSpan : Nat := 32

/-- The key of a fingerprint; an empty fingerprint has none.  A frame count past the
range of 32 bits is held at its end. -/
def ofFingerprint? (words : List UInt32) : Option AcousticKey :=
  if h : words = [] then none
  else some {
    vector := words.take vectorLength ++ List.replicate (vectorLength - words.length) 0
    frames := min words.length 4294967295
    length_eq := by
      simp only [vectorLength, List.length_append, List.length_take, List.length_replicate]
      omega
    frames_pos := by
      have := List.length_pos_iff.mpr h
      omega
    frames_lt := by omega }

/-- The key with the given stored bytes and frame count, unless the bytes are not
256 words or there are no frames. -/
def ofStored? (bytes : List UInt8) (frames : UInt32) : Option AcousticKey :=
  if h : bytes.length = 1024 ∧ frames ≠ 0 then some {
    vector := littleEndianWords bytes
    frames := frames.toNat
    length_eq := by rw [length_littleEndianWords, h.1]
    frames_pos := Nat.pos_of_ne_zero fun zero => h.2 (UInt32.toNat_inj.mp zero)
    frames_lt := frames.toNat_lt }
  else none

/-- The stored bytes of the words. -/
def stored (key : AcousticKey) : List UInt8 :=
  key.vector.flatMap littleEndian32

/-- The bucket that the catalog files the key under. -/
def bucket (key : AcousticKey) : Nat :=
  key.frames / bucketSpan

/-- How many words come from the fingerprint. -/
def validLength (key : AcousticKey) : Nat :=
  min key.frames vectorLength

end AcousticKey

end AudioCatalog
