import AudioCatalog.Metadata.TagMap
import AudioCatalog.Number.Binary64

/-!
# Metadata of a recording

What a decoder reports about the container and its streams.  Metadata takes no part
in identity; the catalog keeps what it saw last.
-/

namespace AudioCatalog

/-- The duration of one tick, as a fraction of a second. -/
structure TimeBase where
  numer : UInt32
  denom : UInt32
  deriving DecidableEq

namespace TimeBase

/-- A time base, unless the denominator is zero. -/
def make? (numer denom : UInt32) : Option TimeBase :=
  if denom = 0 then none else some ⟨numer, denom⟩

/-- Whole milliseconds in a number of ticks, kept to the range of 64 bits, where the
denominator is not zero. -/
def millis (base : TimeBase) (ticks : UInt64) : UInt64 :=
  UInt64.ofNat (ticks.toNat * base.numer.toNat * 1000 / base.denom.toNat)

/-- Whole milliseconds in a number of ticks, or nothing where the denominator is zero and the
division fails. -/
def millis? (base : TimeBase) (ticks : UInt64) : Option UInt64 :=
  if base.denom = 0 then none else some (base.millis ticks)

end TimeBase

/-- One stream of a container. -/
structure StreamFacts where
  index : UInt32
  codecType : String
  codecName : String
  sampleRate : Option UInt32
  channels : Option UInt16
  bitsPerSample : Option UInt32
  bitRate : Option UInt32
  frames : Option UInt64
  timeBase : Option TimeBase
  tags : TagMap
  deriving DecidableEq

/-- A container and its streams. -/
structure Metadata where
  formatName : String
  formatLongName : Option String
  durationMillis : Option UInt64
  bitRate : Option UInt32
  tags : TagMap
  streams : List StreamFacts
  deriving DecidableEq

namespace Metadata

/-- Metadata that says nothing. -/
def empty : Metadata :=
  ⟨"", none, none, none, .empty, []⟩

/-- The first audio stream, over which the digest is taken. -/
def audioStream (m : Metadata) : Option StreamFacts :=
  m.streams.find? fun stream => stream.codecType = "audio"

/-- The codec of the first audio stream. -/
def primaryCodec (m : Metadata) : Option String :=
  m.audioStream.map (·.codecName)

/-- The bits per second of a file of the given size that plays for the given time.
Bits per millisecond and bits per second are each rounded to a floating-point number,
the fraction is dropped, and the result is kept to the range of 32 bits. -/
def estimatedBitRate (size duration : Nat) : UInt32 :=
  let bits := Binary64.round (mkRat (Int.ofNat (size * 8 % 18446744073709551616)) 1)
  let perMilli := Binary64.round (bits / Binary64.round (mkRat (Int.ofNat duration) 1))
  UInt32.ofNat (min (Binary64.round (perMilli * mkRat 1000 1)).floor.toNat 4294967295)

/-- Fills in the bit rate from size and duration, if it is missing and the duration
is known and not zero. -/
def fillBitRate (m : Metadata) (size : Nat) : Metadata :=
  match m.bitRate, m.durationMillis with
  | none, some duration =>
    if duration = 0 then m
    else { m with bitRate := some (estimatedBitRate size duration.toNat) }
  | _, _ => m

end Metadata

end AudioCatalog
