import AudioCatalog.Wave.Bytes
import AudioCatalog.Wave.Sample

/-!
# Format chunks

The format chunk of a wave file says how its samples are written.  Each family of samples
has a plain layout; the extended layout names a family by a long identifier and may use
fewer bits than it stores.
-/

namespace AudioCatalog

/-- How the samples of a wave file are written.  `blockAlign` is the number of bytes per
frame that the file claims; `validBits` is not always known. -/
structure WaveFormat where
  sampleFormat : SampleFormat
  channels : Nat
  rate : UInt32
  blockAlign : Nat
  validBits : Option Nat
  deriving DecidableEq

namespace WaveFormat

/-- The bytes of one frame, which holds a sample of every channel. -/
def frameBytes (format : WaveFormat) : Nat :=
  format.channels * format.sampleFormat.width

/-- The format of a file with one more format chunk.  The new format replaces the old one,
of which only the number of bits that count stays if the new one has none. -/
def replacing (format : WaveFormat) (old : Option WaveFormat) : WaveFormat :=
  { format with validBits := format.validBits.or (old.bind validBits) }

end WaveFormat

namespace Wave

/-- What all format chunks begin with. -/
structure FormatStart where
  formatTag : Nat
  channels : Nat
  rate : Nat
  blockAlign : Nat
  bits : Nat

/-- The most channels that a file may have. -/
def channelLimit : Nat := 26

/-- Reads the beginning of a format chunk. -/
def readFormatStart : Reader FormatStart := do
  let formatTag ← readNumber 2
  let channels ← readNumber 2
  let rate ← readNumber 4
  let _bytesPerSecond ← readNumber 4
  let blockAlign ← readNumber 2
  let bits ← readNumber 2
  return ⟨formatTag, channels, rate, blockAlign, bits⟩

/-- The format that a beginning and the rest of its chunk give. -/
def FormatStart.format (start : FormatStart) (sampleFormat : SampleFormat)
    (channels : Nat) (validBits : Option Nat) : WaveFormat where
  sampleFormat := sampleFormat
  channels := channels
  rate := UInt32.ofNat start.rate
  blockAlign := start.blockAlign
  validBits := validBits

/-- The format of samples of a family, as far as it is known, with a width in bits.
Companded samples have one width whatever a file claims. -/
def sampleFormat? (family : SampleFamily) (bits : Nat) : Option SampleFormat :=
  match family with
  | .integer => SampleFormat.ofIntegerBits? bits
  | .float => SampleFormat.ofFloatBits? bits
  | .aLaw => some .aLaw
  | .muLaw => some .muLaw
  | .adaptive => none

/-- The families that have a plain format chunk, by their numbers.  Two kinds of adaptive
samples are known to exist. -/
def plainFamily? (formatTag : Nat) : Option SampleFamily :=
  if formatTag = 1 then some .integer
  else if formatTag = 3 then some .float
  else if formatTag = 6 then some .aLaw
  else if formatTag = 7 then some .muLaw
  else if formatTag = 2 ∨ formatTag = 17 then some .adaptive
  else none

/-- Leaves out a size and as many bytes as it says, if it is one that is allowed. -/
def skipSized (allowed : Nat → Bool) (fault : WaveFault) : Reader Unit := do
  let size ← readNumber 2
  if !allowed size then throw fault
  skipBytes size

/-- Leaves out what follows the beginning of a plain format chunk of some length.  Integers
and floating-point numbers may have a size there and, in the longest form, twenty-two
bytes without a meaning; a size of floating-point samples is zero.  The other families
have a size and as many bytes, even beyond the end of the chunk. -/
def skipPlainRest (family : SampleFamily) (start : FormatStart) (length : Nat) :
    Reader Unit := do
  let fault := WaveFault.formatLength family
  match family with
  | .integer =>
    if length ≠ 16 ∧ length ≠ 18 ∧ length ≠ 40 then throw fault
    skipBytes (length - 16)
  | .float =>
    if length = 18 then skipSized (· == 0) .floatExtension
    else if length = 16 ∨ length = 40 then skipBytes (length - 16)
    else throw fault
  | .aLaw | .muLaw =>
    if length ≠ 18 then throw fault
    skipSized (fun _ => true) fault
  | .adaptive =>
    if start.bits ≠ 4 then throw (.sampleWidth family)
    if length < 20 then throw fault
    if start.formatTag = 2 then skipSized (32 ≤ ·) fault else skipSized (· == 2) fault

/-- Reads the rest of a plain format chunk.  Only integers say how many bits count.
Adaptive samples have a format chunk but no decoder. -/
def readPlainFormat (family : SampleFamily) (start : FormatStart) (length : Nat) :
    Reader WaveFormat := do
  skipPlainRest family start length
  let sampleFormat := sampleFormat? family start.bits
  if sampleFormat = none ∧ family ≠ .adaptive then throw (.sampleWidth family)
  if start.channels = 0 ∨ channelLimit < start.channels then throw .channelCount
  match sampleFormat with
  | none => throw .unknownFormat
  | some sampleFormat =>
    let validBits := if family = .integer then some start.bits else none
    return start.format sampleFormat start.channels validBits

/-- The identifier of a family in the extended layout: its number and a common ending. -/
def familyIdentifier (number : UInt8) : List UInt8 :=
  [number, 0, 0, 0, 0, 0, 16, 0, 128, 0, 0, 170, 0, 56, 155, 113]

/-- The identifier of a family whose channels are components of a sound field. -/
def soundFieldIdentifier (number : UInt8) : List UInt8 :=
  [number, 0, 0, 0, 33, 7, 211, 17, 134, 68, 200, 193, 202, 0, 0, 0]

/-- The speakers in a mask, lowest first. -/
def speakersOf (mask : Nat) : List Nat :=
  (List.range 32).filter mask.testBit

/-- The speakers of a number of channels: those of the mask, without the highest if
there are too many, and continued above the highest if there are too few.  Of the
missing ones only the remainder on division by thirty-two is added. -/
def speakers (mask channels : Nat) : List Nat :=
  let named := speakersOf mask
  let above := match named.getLast? with
    | some highest => highest + 1
    | none => 0
  named.take channels ++ (List.range ((channels - named.length) % 32)).map (above + ·)

/-- The family that an identifier stands for. -/
def familyOf? (identifier : List UInt8) : Option SampleFamily :=
  if identifier = familyIdentifier 1 ∨ identifier = soundFieldIdentifier 1 then some .integer
  else if identifier = familyIdentifier 3 ∨ identifier = soundFieldIdentifier 3 then
    some .float
  else if identifier = familyIdentifier 6 then some .aLaw
  else if identifier = familyIdentifier 4 then some .muLaw
  else none

/-- The format of the samples in the extended layout, with so many bits of which so many
count.  Floating-point samples use all their bits. -/
def extendedSampleFormat (family : SampleFamily) (bits valid : Nat) :
    Except WaveFault SampleFormat :=
  if family = .float ∧ valid ≠ bits then .error .extendedFloat
  else
    match sampleFormat? family bits with
    | some sampleFormat => .ok sampleFormat
    | none => .error (if family = .integer ∧ bits = 0 then .noWidth else .extendedWidth family)

/-- Reads the rest of an extended format chunk. -/
def readExtendedFormat (start : FormatStart) (length : Nat) : Reader WaveFormat := do
  if length < 40 then throw .extendedTooShort
  let size ← readNumber 2
  if size ≠ 22 then throw .extendedSize
  let valid ← readNumber 2
  if start.bits % 8 ≠ 0 then throw .codedWidth
  if start.bits < valid then throw .validWidth
  let mask ← readNumber 4
  let speakers := speakers mask start.channels
  if speakers.any (channelLimit ≤ ·) then throw .unknownSpeakers
  let identifier ← readBytes 16
  match familyOf? identifier with
  | none => throw .unknownSubFormat
  | some family =>
    let sampleFormat ← extendedSampleFormat family start.bits valid
    return start.format sampleFormat speakers.length (some valid)

/-- Reads a format chunk of some length. -/
def readFormat (length : Nat) : Reader WaveFormat := do
  if length < 16 then throw .formatTooShort
  let start ← readFormatStart
  let format ←
    if start.formatTag = 65534 then readExtendedFormat start length
    else
      match plainFamily? start.formatTag with
      | some family => readPlainFormat family start length
      | none => throw .unknownFormat
  if format.rate = 0 then throw .noRate
  return format

end Wave

end AudioCatalog
