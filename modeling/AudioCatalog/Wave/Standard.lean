import AudioCatalog.Wave.Decoder

/-!
# The decoder that is built in

It reads wave files and no others, and has no fingerprinter at hand: what stands in for one
refuses the layouts that a fingerprinter refuses and gives as many words as one would, but
the words are right for silence only.  So it tells for how long a recording plays and not
what it sounds like.  Nothing that is said of decoders, imports or commands elsewhere is
about this decoder rather than another.
-/

namespace AudioCatalog

namespace Fingerprinter

/-- The rate that samples are brought to. -/
def innerRate : Nat := 11025

/-- Samples are brought to the inner rate in blocks of this many frames. -/
def resamplingBlock : Nat := 32768

/-- How many frames there are at the inner rate.  The last block is filled up. -/
def innerFrames (rate frames : Nat) : Nat :=
  if rate = innerRate then frames
  else (frames + resamplingBlock - 1) / resamplingBlock * resamplingBlock * innerRate / rate

/-- How many windows of 4096 frames, each 1365 behind the one before, begin in some
frames; the last one may be incomplete. -/
def windowCount (frames : Nat) : Nat :=
  if 4096 ≤ frames then (frames - 4096) / 1365 + 2 else if 0 < frames then 1 else 0

/-- How many words a recording has: one per window, but for the first nineteen. -/
def wordCount (rate frames : Nat) : Nat :=
  windowCount (innerFrames rate frames) - 19

/-- The word of silence. -/
def silentWord : UInt32 := 627964279

/-- A fingerprinter that hears only for how long a recording plays: every word is that
of silence, whatever the samples are. -/
def silent : Fingerprinter where
  accepts rate channels := 1000 < rate && 0 < channels
  words rate channels samples :=
    List.replicate (wordCount rate.toNat (samples.length / channels.toNat)) silentWord

end Fingerprinter

/-- The decoder for wave files, with fingerprints of silence. -/
def WaveDecoder.standard : WaveDecoder :=
  ⟨.silent, defaultSeconds⟩

end AudioCatalog
