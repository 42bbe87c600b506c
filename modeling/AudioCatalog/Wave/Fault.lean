import AudioCatalog.Error

/-!
# Faults of wave files

What can be wrong with a wave file, and which kind of decoding error each fault is: the
file ends too early, holds something that is not supported, or is malformed.
-/

namespace AudioCatalog

/-- The families of samples, each with a format chunk of its own layout. -/
inductive SampleFamily where
  | integer
  | float
  | aLaw
  | muLaw
  /-- Differences between samples, with steps that adapt to them. -/
  | adaptive
  deriving DecidableEq

/-- The name of a family in messages. -/
def SampleFamily.label : SampleFamily → String
  | integer => "fmt_pcm"
  | float => "fmt_ieee"
  | aLaw => "fmt_alaw"
  | muLaw => "fmt_mulaw"
  | adaptive => "fmt_adpcm"

/-- The widths that the samples of a family can have, as messages put it. -/
def SampleFamily.widths : SampleFamily → String
  | integer => "8, 16, 24 or 32 bits"
  | float => "32 or 64 bits"
  | aLaw | muLaw => "8 bits"
  | adaptive => "4 bits"

/-- What is wrong with a wave file. -/
inductive WaveFault where
  /-- The file ends inside something that was begun. -/
  | endOfStream
  /-- No container begins where one is looked for. -/
  | noMarker
  /-- A block of tags has a version that cannot be. -/
  | tagVersion
  | unknownTagVersion
  | compressedTags
  /-- A block of tags ends inside a frame. -/
  | tagsTooShort
  /-- A frame has flags that do not exist. -/
  | unusedFlags
  /-- The container holds something else than waves. -/
  | otherForm
  | unknownFormat
  | unknownSubFormat
  /-- A channel mask names speakers that do not exist. -/
  | unknownSpeakers
  | noData
  /-- The data come before any format chunk. -/
  | noFormat
  /-- A chunk is longer than what is left of the chunk around it. -/
  | chunkTooLong
  | formatTooShort
  | formatLength (family : SampleFamily)
  | sampleWidth (family : SampleFamily)
  /-- A plain chunk of floating-point samples announces something more. -/
  | floatExtension
  | channelCount
  | extendedTooShort
  | extendedSize
  | codedWidth
  | validWidth
  /-- An extended chunk has a width that its family does not know. -/
  | extendedWidth (family : SampleFamily)
  | extendedFloat
  | factLength
  | listTooShort
  | noChannels
  | blockSize
  /-- The data hold no whole frame. -/
  | noFrames
  /-- A sample rate of zero, at which decoding stops without an answer. -/
  | noRate
  /-- Integers of no bits, at which decoding stops without an answer. -/
  | noWidth
  deriving DecidableEq

/-- The decoding error that a fault amounts to, if decoding ends with one. -/
def WaveFault.decodeFault? (fault : WaveFault) : Option DecodeFault :=
  let malformed (text : String) : Option DecodeFault :=
    some (.corrupt s!"malformed stream: {text}")
  match fault with
  | endOfStream => some (.unreadable "end of stream")
  | noMarker => some (.unsupported "core (probe): no suitable format reader found")
  | tagVersion => malformed "id3v2: invalid version number(s)"
  | unknownTagVersion => some (.unsupported "id3v2: unsupported ID3v2 version")
  | compressedTags => some (.unsupported "id3v2: ID3v2.2 compression is not supported")
  | tagsTooShort => some (.unreadable "out of bounds")
  | unusedFlags => malformed "id3v2: unused flag bits are not cleared"
  | otherForm => some (.unsupported "wav: riff form is not wave")
  | unknownFormat => some (.unsupported "wav: unsupported wave format")
  | unknownSubFormat => some (.unsupported "wav: unsupported fmt_ext sub-type")
  | unknownSpeakers => some (.unsupported "wav: too many channels in mask for fmt_ext")
  | noData => some (.unsupported "wav: missing data chunk")
  | noFormat => some (.unsupported "no decodable audio track")
  | chunkTooLong => malformed "riff: chunk length exceeds parent (list) chunk length"
  | formatTooShort => malformed "wav: malformed fmt chunk"
  | formatLength family => malformed s!"wav: malformed {family.label} chunk"
  | sampleWidth family =>
    malformed s!"wav: bits per sample for {family.label} must be {family.widths}"
  | floatExtension => malformed "wav: extra data not expected for fmt_ieee chunk"
  | channelCount => malformed "riff: invalid channel count"
  | extendedTooShort => malformed "wav: malformed fmt_ext chunk"
  | extendedSize => malformed "wav: extra data size not 22 bytes for fmt_ext chunk"
  | codedWidth =>
    malformed "wav: bits per coded sample for fmt_ext must be a multiple of 8"
  | validWidth =>
    malformed "wav: bits per sample must be <= bits per coded sample for fmt_ext"
  | extendedWidth .float =>
    malformed "wav: bits per sample for fmt_ext IEEE sub-type must be 32 or 64 bits"
  | extendedWidth _ =>
    malformed "bits per sample for fmt_ext PCM sub-type must be <= 32 bits"
  | extendedFloat =>
    malformed "wav: bits per sample for fmt_ext IEEE sub-type must equal bits per coded sample"
  | factLength => malformed "wav: malformed fact chunk"
  | listTooShort => malformed "wav: malformed list chunk"
  | noChannels => some (.unsupported "pcm: number of channels cannot be 0")
  | blockSize =>
    some (.corrupt "error reading packet: malformed stream: riff: block size is 0")
  | noFrames => some (.corrupt "no audio frames decoded")
  | noRate | noWidth => none

end AudioCatalog
