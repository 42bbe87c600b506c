import AudioCatalog.Number.LittleEndian
import AudioCatalog.Wave.Fault

/-!
# Reading bytes in order

A reader takes what it needs from the front of a byte string and leaves the rest.  One
that finds too little fails with the end of the stream.
-/

namespace AudioCatalog.Wave

/-- A reader of values. -/
abbrev Reader := StateT (List UInt8) (Except WaveFault)

/-- Reads a number of bytes. -/
def readBytes (count : Nat) : Reader (List UInt8) := fun bytes =>
  if count ≤ bytes.length then .ok (bytes.take count, bytes.drop count)
  else .error .endOfStream

/-- Leaves out a number of bytes. -/
def skipBytes (count : Nat) : Reader Unit := do
  let _ ← readBytes count

/-- Reads a little-endian number of some bytes. -/
def readNumber (width : Nat) : Reader Nat := do
  return ofLittleEndian (← readBytes width)

end AudioCatalog.Wave
