import AudioCatalog.Number.FloatPattern
import AudioCatalog.Number.LittleEndian
import AudioCatalog.Pcm.Basic
import AudioCatalog.Wave.Companded

/-!
# Samples of wave files

Samples come as integers of one to four bytes, as floating-point numbers, or companded
in one byte.  All are brought to signed 32-bit integers: narrower integers fill the upper
bits, as the sixteen bits of a companded sample do, and floating-point numbers from minus
one to one are scaled to the full range.
-/

namespace AudioCatalog

/-- The formats of a sample. -/
inductive SampleFormat where
  | unsigned8
  | signed16
  | signed24
  | signed32
  | float32
  | float64
  | aLaw
  | muLaw
  deriving DecidableEq

namespace SampleFormat

/-- The number of bytes of a sample. -/
def width : SampleFormat → Nat
  | unsigned8 | aLaw | muLaw => 1
  | signed16 => 2
  | signed24 => 3
  | signed32 | float32 => 4
  | float64 => 8

/-- The name of the codec. -/
def codecName : SampleFormat → String
  | unsigned8 => "pcm_u8"
  | signed16 => "pcm_s16le"
  | signed24 => "pcm_s24le"
  | signed32 => "pcm_s32le"
  | float32 => "pcm_f32le"
  | float64 => "pcm_f64le"
  | aLaw => "pcm_alaw"
  | muLaw => "pcm_mulaw"

/-- The integer format of a width in bits. -/
def ofIntegerBits? (bits : Nat) : Option SampleFormat :=
  if bits = 8 then some unsigned8
  else if bits = 16 then some signed16
  else if bits = 24 then some signed24
  else if bits = 32 then some signed32
  else none

/-- The floating-point format of a width in bits. -/
def ofFloatBits? (bits : Nat) : Option SampleFormat :=
  if bits = 32 then some float32
  else if bits = 64 then some float64
  else none

/-- The sample of a floating-point value: limited to the range from minus one to one,
scaled, and cut to an integer.  What is not a number is silence. -/
def ofFloat : FloatValue → Int32
  | .nan => 0
  | .infinite negative => Int32.ofInt (if negative then sampleRange.1 else sampleRange.2)
  | .finite value =>
    Int32.ofInt (Rounding.clamp sampleRange.1 sampleRange.2
      (Rounding.truncate (value * mkRat 2147483648 1)))

/-- The sample that some bytes stand for. -/
def sample (format : SampleFormat) (bytes : List UInt8) : Int32 :=
  let value := ofLittleEndian bytes
  match format with
  | unsigned8 => Int32.ofInt ((Int.ofNat value - 128) * 16777216)
  | signed16 => Int32.ofInt (Int.ofNat (value * 65536))
  | signed24 => Int32.ofInt (Int.ofNat (value * 256))
  | signed32 => Int32.ofInt (Int.ofNat value)
  | float32 => ofFloat (FloatFormat.binary32.decode value)
  | float64 => ofFloat (FloatFormat.binary64.decode value)
  | aLaw => Int32.ofInt (expandALaw (UInt8.ofNat value) * 65536)
  | muLaw => Int32.ofInt (expandMuLaw (UInt8.ofNat value) * 65536)

/-- The first samples of a byte string. -/
def samples (format : SampleFormat) : Nat → List UInt8 → List Int32
  | 0, _ => []
  | count + 1, bytes =>
    format.sample (bytes.take format.width) :: samples format count (bytes.drop format.width)

end SampleFormat

end AudioCatalog
