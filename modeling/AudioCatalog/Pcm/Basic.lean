import AudioCatalog.Digest.Basic
import AudioCatalog.Number.FloatPattern
import AudioCatalog.Number.LittleEndian
import AudioCatalog.Text.Utf8

/-!
# Decoded audio and its digest

A decoded recording is a sample rate, a channel count and interleaved samples in
one of three formats.  All formats are brought to signed 32-bit integers before
hashing, so the digest depends on the sound and not on the format it was decoded
to.  `PcmStream.message` is the byte string under the hash and
`PcmStream.digest` hashes it a buffer at a time.
-/

namespace AudioCatalog

/-- Interleaved samples in the format of the decoder.  Samples of 32-bit floating
point are kept as their bit patterns. -/
inductive SampleList where
  | int16 (values : List Int16)
  | int32 (values : List Int32)
  | float32 (patterns : List UInt32)
  deriving DecidableEq

/-- The least and greatest 32-bit sample. -/
def sampleRange : Int × Int := (-2147483648, 2147483647)

/-- The 32-bit sample of a floating-point one: scaled by two to the 31st, rounded
with halves away from zero, and limited to the range.  What is not a number is
silence. -/
def canonicalFloat (pattern : UInt32) : Int32 :=
  match FloatFormat.binary32.decode pattern.toNat with
  | .nan => 0
  | .infinite negative => Int32.ofInt (if negative then sampleRange.1 else sampleRange.2)
  | .finite value =>
    Int32.ofInt (Rounding.clamp sampleRange.1 sampleRange.2
      (Rounding.halfAway (value * mkRat 2147483648 1)))

namespace SampleList

/-- The number of samples over all channels. -/
def length : SampleList → Nat
  | int16 values => values.length
  | int32 values => values.length
  | float32 patterns => patterns.length

/-- The samples as signed 32-bit integers; 16-bit samples fill the upper half. -/
def canonical : SampleList → List Int32
  | int16 values => values.map fun v => Int32.ofInt (v.toInt * 65536)
  | int32 values => values
  | float32 patterns => patterns.map canonicalFloat

end SampleList

/-- A decoded recording. -/
structure PcmStream where
  rate : UInt32
  channels : UInt16
  samples : SampleList
  deriving DecidableEq

/-- The four bytes of a sample. -/
def sampleBytes (sample : Int32) : List UInt8 :=
  littleEndian32 sample.toUInt32

namespace PcmStream

/-- What sets these digests apart from other uses of the hash. -/
def messageTag : List UInt8 :=
  Utf8.encode "audiofs-pcm-v1"

/-- The part of the message in front of the samples. -/
def header (stream : PcmStream) : List UInt8 :=
  messageTag ++ littleEndian32 stream.rate ++ littleEndian16 stream.channels

/-- The byte string that the digest is taken of. -/
def message (stream : PcmStream) : List UInt8 :=
  stream.header ++ stream.samples.canonical.flatMap sampleBytes

/-- How many samples are handed to the hash at once. -/
def bufferLength : Nat := 4096

/-- Hashes samples a buffer at a time. -/
def hashSamples (hasher : Sha256.Hasher) (samples : List Int32) : Sha256.Hasher :=
  match samples with
  | [] => hasher
  | sample :: rest =>
    hashSamples (hasher.update (((sample :: rest).take bufferLength).flatMap sampleBytes))
      ((sample :: rest).drop bufferLength)
termination_by samples.length
decreasing_by
  simp only [bufferLength, List.length_drop, List.length_cons]
  omega

/-- The digest that identifies the recording. -/
def digest (stream : PcmStream) : Digest :=
  .ofChain (hashSamples (Sha256.Hasher.start.update stream.header)
    stream.samples.canonical).finish

end PcmStream

end AudioCatalog
