import AudioCatalog.Acoustic.Key
import AudioCatalog.Number.Binary64

/-!
# Similarity of acoustic keys

Two keys are as similar as the share of equal bits in the words both have, scaled
by the ratio of the shorter to the longer frame count, so that an excerpt does not
pass for the whole.  The score is a binary floating-point number, rounded after
each operation.  `nearbyBuckets` bounds the frame counts that can reach the
acceptance threshold.
-/

namespace AudioCatalog

/-- The least score of a match: the floating-point number nearest to 0.85. -/
def matchThreshold : Rat :=
  Binary64.round (mkRat 17 20)

/-- A match is clear when it leads by this much: the floating-point number nearest
to 0.02. -/
def clearLead : Rat :=
  Binary64.round (mkRat 1 50)

/-- How many of the 32 bits of a word are set. -/
def populationCount (word : UInt32) : Nat :=
  (List.range 32).countP word.toNat.testBit

/-- In how many bits two words agree. -/
def agreeingBits (x y : UInt32) : Nat :=
  32 - populationCount (x ^^^ y)

namespace AcousticKey

/-- How many words both keys have from their fingerprints. -/
def overlap (a b : AcousticKey) : Nat :=
  min a.validLength b.validLength

/-- In how many bits the overlapping words agree. -/
def matchingBits (a b : AcousticKey) : Nat :=
  (List.zipWith agreeingBits (a.vector.take (overlap a b)) (b.vector.take (overlap a b))).foldr
    (· + ·) 0

/-- The ratio of the shorter to the longer frame count. -/
def lengthRatio (a b : AcousticKey) : Rat :=
  Binary64.round (mkRat (Int.ofNat (min a.frames b.frames)) (max a.frames b.frames))

/-- The similarity of two keys, between zero and one. -/
def similarity (a b : AcousticKey) : Rat :=
  if overlap a b = 0 then 0
  else
    let shared := Binary64.round (mkRat (Int.ofNat (matchingBits a b)) (overlap a b * 32))
    Binary64.round (shared * lengthRatio a b)

/-- The first and last bucket that can hold a key scoring at least the acceptance
threshold against this one.  The length ratio alone bounds the score, and one frame
on either side makes up for rounding. -/
def nearbyBuckets (key : AcousticKey) : Nat × Nat :=
  let frames : Rat := mkRat (Int.ofNat key.frames) 1
  let shortest := (Binary64.round (frames * matchThreshold)).floor.toNat - 1
  let longest := min ((Binary64.round (frames / matchThreshold)).ceil.toNat + 1) 4294967295
  (shortest / bucketSpan, longest / bucketSpan)

end AcousticKey

end AudioCatalog
