/-!
# Companded samples

Two codes keep a sample of sixteen bits in one byte: a sign, a segment of three bits,
and four bits that divide the segment into equal steps.  The steps of a segment are
twice as wide as those of the segment before it.
-/

namespace AudioCatalog

/-- The parts of a companded byte. -/
structure CompandedParts where
  sign : Bool
  segment : Nat
  step : Nat

/-- The parts of a byte: the sign in the highest bit, the step in the lowest four. -/
def CompandedParts.ofByte (byte : UInt8) : CompandedParts :=
  ⟨128 ≤ byte.toNat, byte.toNat / 16 % 8, byte.toNat % 16⟩

/-- The value of a byte in A-law.  Every second bit of the byte is inverted, the first two
segments have steps of one width, and a set sign means a positive value. -/
def expandALaw (byte : UInt8) : Int :=
  let parts := CompandedParts.ofByte (byte ^^^ 0x55)
  let magnitude : Nat :=
    if parts.segment = 0 then parts.step * 16 + 8
    else (parts.step * 16 + 264) <<< (parts.segment - 1)
  if parts.sign then magnitude else -magnitude

/-- The value of a byte in mu-law.  All bits of the byte are inverted, each segment begins
where the one before it ends, and a set sign means a negative value. -/
def expandMuLaw (byte : UInt8) : Int :=
  let parts := CompandedParts.ofByte (byte ^^^ 0xFF)
  let magnitude : Nat := (parts.step * 8 + 132) <<< parts.segment - 132
  if parts.sign then -magnitude else magnitude

end AudioCatalog
