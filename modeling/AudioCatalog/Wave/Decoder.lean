import AudioCatalog.Acoustic.Fingerprint
import AudioCatalog.Import.Decoder
import AudioCatalog.Wave.File

/-!
# The decoder for wave files

Decodes a wave file, describes its only stream, and feeds the samples to a
fingerprinter as they are decoded.
-/

namespace AudioCatalog

/-- How fingerprints are made, and of how many seconds. -/
structure WaveDecoder where
  printer : Fingerprinter
  seconds : UInt32

namespace WaveFile

/-- The description of the stream. -/
def streamFacts (file : WaveFile) : StreamFacts where
  index := 0
  codecType := "audio"
  codecName := file.format.sampleFormat.codecName
  sampleRate := some file.format.rate
  channels := some (UInt16.ofNat file.format.channels)
  bitsPerSample := file.format.validBits.map UInt32.ofNat
  bitRate := none
  frames := some (UInt64.ofNat file.frameCount)
  timeBase := TimeBase.make? 1 file.format.rate
  tags := .empty

/-- The description of the file, given its path name and size. -/
def metadata (file : WaveFile) (path : Pathname) (size : Nat) : Metadata :=
  Metadata.fillBitRate {
    formatName := path.extension?.getD "unknown"
    formatLongName := none
    durationMillis := file.streamFacts.timeBase.bind fun base =>
      base.millis? (UInt64.ofNat file.frameCount)
    bitRate := none
    tags := file.tags
    streams := [file.streamFacts] } size

end WaveFile

namespace WaveDecoder

/-- Seconds that a fingerprint covers unless another number is wanted. -/
def defaultSeconds : UInt32 := 120

/-- The fingerprint of decoded packets. -/
def fingerprint (decoder : WaveDecoder) (rate : UInt32) (channels : UInt16)
    (packets : List (List Int32)) : Option (List UInt32) :=
  let fed := packets.foldl
    (fun feed packet =>
      FingerprintFeed.take feed decoder.printer decoder.seconds rate channels packet)
    FingerprintFeed.start
  fed.words? decoder.printer

/-- Decodes the bytes of a file. -/
def decode (decoder : WaveDecoder) (path : Pathname) (bytes : List UInt8) :
    Except WaveFault Recording := do
  let file ← WaveFile.parse bytes
  let packets ← file.decode
  let channels := UInt16.ofNat file.format.channels
  return {
    metadata := file.metadata path bytes.length
    fingerprint := decoder.fingerprint file.format.rate channels packets
    stream := ⟨file.format.rate, channels, .int32 packets.flatten⟩ }

/-- How decoding ends. -/
def analysis : Except WaveFault Recording → Analysis
  | .ok recording => .answered recording
  | .error fault =>
    match fault.decodeFault? with
    | some cause => .failed cause
    | none => .stopped

/-- The decoder as importers use it.  A directory can be opened, but nothing is found in it. -/
def decoder {κ : Type} (wave : WaveDecoder) : Decoder κ := fun path opened =>
  match opened with
  | .ok body => analysis (wave.decode path body.toList)
  | .error .isADirectory => analysis (.error .noMarker)
  | .error cause => .failed (.unreadable cause.message)

end WaveDecoder

end AudioCatalog
